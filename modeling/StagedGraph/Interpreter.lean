import StagedGraph.Flow
import StagedGraph.Run

/-!
# The interpreter

Arguments are evaluated from left to right and before the call; statements run in order
until one of them does not end normally. A function runs in a scope of its own whose parent
is the scope of the call, and only `return` gives it a value other than `void`.

`eval`, `exec` and `loop` are bounded by fuel: each of them spends one unit and hands the
rest to everything that it starts. The other functions of this module say what one
expression, statement or call does, given what its parts do.
-/

namespace StagedGraph

/-- Whether a native may be called with this many arguments. -/
def checkArity (callee : String) (arity : Arity) (got : Nat) : Except Fault Unit :=
  match arity with
  | .fixed expected => if expected = got then .ok () else .error (.arityMismatch callee expected got)
  | .variadic => .ok ()

/-- Whether a function with these parameters may be called with this many arguments. -/
def checkArgCount (callee : String) (params : List Name) (got : Nat) : Except Fault Unit :=
  if params.length = got then .ok () else .error (.arityMismatch callee params.length got)

namespace Interpreter

variable {R H : Type} [Scalar R]

/-- Evaluates expressions from left to right. -/
def evalAll (eval : ExprId → Run R H (Value R)) : List ExprId → Run R H (List (Value R))
  | [] => pure []
  | e :: es => do
    let v ← eval e
    let vs ← evalAll eval es
    pure (v :: vs)

/-- Calls a native: its arity is checked, and a refusal becomes an error under its name. -/
def callNative (p : Program R H) (n : NativeId) (args : List (Value R)) : Run R H (Value R) := do
  let native := p.native n
  Run.ofExcept (checkArity native.name native.arity args.length)
  fun s =>
    let (outcome, host) := native.op args s.host
    let s := { s with host := host, history := .called n args outcome :: s.history }
    match outcome with
    | .value v => (.ok v, s)
    | .failed message => Run.fail (.native native.name message) s
    | .aborted => Run.stop .aborted s

/-- The value of a call whose body ended so. -/
def resultOf : Flow R → Except Fault (Value R)
  | .returned v => .ok v
  | .normal => .ok .void
  | .breakLoop => .error .breakOutsideLoop

/-- Calls a function: it has to be sealed and takes as many arguments as it has parameters,
which are bound in the frame that its body runs in. -/
def callFunc (p : Program R H) (exec : BlockId → Run R H (Flow R)) (f : FuncId)
    (args : List (Value R)) : Run R H (Value R) := do
  let func := p.func f
  let name := p.text func.name
  Run.ofExcept (if func.isSealed then .ok () else .error (.unsealedCallable name))
  Run.ofExcept (checkArgCount name func.params args.length)
  Run.inCall p f do
    let flow ← Run.inScope .frame do
      Run.bindParams func.params args
      exec func.body
    Run.ofExcept (resultOf flow)

/-- The value of an expression, given those of its operands and what bodies do. -/
def evalExpr (p : Program R H) (eval : ExprId → Run R H (Value R))
    (exec : BlockId → Run R H (Flow R)) : Expr R → Run R H (Value R)
  | .literal v => pure v
  | .var x => Run.lookup p x
  | .neg e => do
    let v ← eval e
    Run.ofExcept v.negated
  | .invoke callee args => do
    let vs ← evalAll eval args
    match callee with
    | .native n => callNative p n vs
    | .callable f => callFunc p exec f vs

/-- Whether a condition holds. -/
def test (eval : ExprId → Run R H (Value R)) (cond : ExprId) : Run R H Bool := do
  let v ← eval cond
  Run.ofExcept v.truth

/-- What a statement does, given what its expressions, nested blocks and loops do. A
definition does nothing: a call finds its function by number. -/
def execStmt (eval : ExprId → Run R H (Value R)) (exec : BlockId → Run R H (Flow R))
    (loop : ExprId → BlockId → Run R H (Flow R)) : Stmt → Run R H (Flow R)
  | .expr e => do
    let _ ← eval e
    pure .normal
  | .assign x e => do
    let v ← eval e
    Run.assign x v
    pure .normal
  | .ifThen cond thenBlock => do
    let holds ← test eval cond
    if holds then exec thenBlock else pure .normal
  | .whileLoop cond body => loop cond body
  | .breakLoop => pure .breakLoop
  | .returnValue none => pure (.returned .void)
  | .returnValue (some e) => do
    let v ← eval e
    pure (.returned v)
  | .funcDef _ => pure .normal

/-- Executes statements in order, up to the first that does not end normally. -/
def execAll (execStmt : Stmt → Run R H (Flow R)) : List Stmt → Run R H (Flow R)
  | [] => pure .normal
  | s :: rest => do
    let flow ← execStmt s
    match flow with
    | .normal => execAll execStmt rest
    | other => pure other

/-- The body of a loop, in the scope that the policy gives to an iteration. -/
def iteration (mode : LoopScope) (x : Run R H (Flow R)) : Run R H (Flow R) :=
  match mode with
  | .shared => x
  | .perIteration => Run.inScope .block x

mutual

/-- The value of an expression. -/
def eval (p : Program R H) (mode : LoopScope) : Nat → ExprId → Run R H (Value R)
  | 0, _ => Run.stop .outOfFuel
  | fuel + 1, e => evalExpr p (eval p mode fuel) (exec p mode fuel) (p.expr e)

/-- Executes the statements of a block. -/
def exec (p : Program R H) (mode : LoopScope) : Nat → BlockId → Run R H (Flow R)
  | 0, _ => Run.stop .outOfFuel
  | fuel + 1, b =>
    execAll (execStmt (eval p mode fuel) (exec p mode fuel) (loop p mode fuel)) (p.block b)

/-- Executes a loop: the condition is tested before each iteration. -/
def loop (p : Program R H) (mode : LoopScope) : Nat → ExprId → BlockId → Run R H (Flow R)
  | 0, _, _ => Run.stop .outOfFuel
  | fuel + 1, cond, body => do
    let holds ← test (eval p mode fuel) cond
    if holds then
      let flow ← iteration mode (exec p mode fuel body)
      match flow.loopAction with
      | .next => loop p mode fuel cond body
      | .leave => pure .normal
      | .exit flow => pure flow
    else pure .normal

end

/-- Executes one statement. -/
def stmt (p : Program R H) (mode : LoopScope) (fuel : Nat) (s : Stmt) : Run R H (Flow R) :=
  execStmt (eval p mode fuel) (exec p mode fuel) (loop p mode fuel) s

/-- Executes a block as a whole program: nothing is there for a break or a return to leave. -/
def run (p : Program R H) (mode : LoopScope) (fuel : Nat) (root : BlockId) : Run R H Unit := do
  let flow ← exec p mode fuel root
  match flow with
  | .normal => pure ()
  | .breakLoop => Run.fail .breakOutsideLoop
  | .returned _ => Run.fail .returnOutsideCallable

end Interpreter

end StagedGraph
