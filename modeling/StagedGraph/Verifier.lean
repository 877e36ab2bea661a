import StagedGraph.Interpreter

/-!
# Verification

A program is verified before it runs: no break outside a loop, no return outside a
function, no call with a wrong number of arguments or of a function that is not sealed, no
block nested inside itself. The verifier follows the statements in order, a condition before
its block, a call before the body of what it calls, and that body before the arguments. The
body of a function is entered once, where the function is first met.

The blocks being walked form the path. A block on the path is not entered again, so the
number of blocks bounds the depth of the walk; an expression only has older operands, so the
number of expressions bounds its depth.
-/

namespace StagedGraph

namespace Verifier

variable {R H : Type}

/-- Where a statement stands. -/
structure Context where
  /-- The blocks being walked, the innermost first. -/
  path : List BlockId
  inLoop : Bool
  inCallable : Bool

/-- The context of a program's root. -/
def Context.root : Context := ⟨[], false, false⟩

/-- The context of the statements of block `b`. -/
def Context.enter (ctx : Context) (b : BlockId) : Context := { ctx with path := b :: ctx.path }

/-- The context of a function's body: the loops around a call or a definition do not count. -/
def Context.body (ctx : Context) : Context := { ctx with inLoop := false, inCallable := true }

/-- A step of the walk: from the functions entered so far, the latest first, to those
entered after it, or to the fault that it meets. -/
abbrev Step := List FuncId → Except Stop (List FuncId)

/-- The step that meets a fault. -/
def fault (f : Fault) : Step := fun _ => .error (.error (.ofFault f))

/-- The steps for the members of a list, one after another. -/
def each {α : Type} (step : α → Step) : List α → Step
  | [], entered => .ok entered
  | a :: as, entered =>
    match step a entered with
    | .ok entered => each step as entered
    | .error stop => .error stop

/-- One step after another. -/
def both (first second : Step) : Step := fun entered =>
  match first entered with
  | .ok entered => second entered
  | .error stop => .error stop

/-- What is wrong with the call itself, whatever its callee does. -/
def checkInvoke (p : Program R H) (callee : Callee) (argc : Nat) : Except Fault Unit :=
  match callee with
  | .native n => checkArity (p.native n).name (p.native n).arity argc
  | .callable f =>
    if (p.func f).isSealed then checkArgCount (p.funcName f) (p.func f).params argc
    else .error (.unsealedCallable (p.funcName f))

/-- Verifies an expression, given how a function is entered. -/
def visitExpr (p : Program R H) (enter : FuncId → Step) : Nat → ExprId → Step
  | 0, _, _ => .error .outOfFuel
  | fuel + 1, e, entered =>
    match p.expr e with
    | .literal _ => .ok entered
    | .var _ => .ok entered
    | .neg operand => visitExpr p enter fuel operand entered
    | .invoke callee args =>
      match checkInvoke p callee args.length with
      | .error f => fault f entered
      | .ok () =>
        match callee with
        | .native _ => each (visitExpr p enter fuel) args entered
        | .callable f => both (enter f) (each (visitExpr p enter fuel) args) entered

/-- Verifies a statement, given how its parts are verified. -/
def visitStmt (expr : ExprId → Step) (block : Context → BlockId → Step) (enter : FuncId → Step)
    (ctx : Context) : Stmt → Step
  | .expr e => expr e
  | .assign _ e => expr e
  | .ifThen cond thenBlock => both (expr cond) (block ctx thenBlock)
  | .whileLoop cond body => both (expr cond) (block { ctx with inLoop := true } body)
  | .breakLoop => if ctx.inLoop then .ok else fault .breakOutsideLoop
  | .returnValue none => if ctx.inCallable then .ok else fault .returnOutsideCallable
  | .returnValue (some e) => if ctx.inCallable then expr e else fault .returnOutsideCallable
  | .funcDef f => enter f

/-- Verifies a block. -/
def visitBlock (p : Program R H) : Nat → Context → BlockId → Step
  | 0, _, _, _ => .error .outOfFuel
  | fuel + 1, ctx, b, entered =>
    if b ∈ ctx.path then fault .cyclicBlock entered
    else
      let ctx := ctx.enter b
      let enter (f : FuncId) : Step := fun entered =>
        if f ∈ entered then .ok entered
        else visitBlock p fuel ctx.body (p.func f).body (f :: entered)
      let expr := visitExpr p enter (p.exprs.size + 1)
      each (visitStmt expr (visitBlock p fuel) enter ctx) (p.block b) entered

/-- The functions that the verifier enters from a root, the latest first, or the first fault
that it meets. -/
def entered (p : Program R H) (root : BlockId) : Except Stop (List FuncId) :=
  visitBlock p (p.blocks.size + 1) .root root []

end Verifier

/-- Verifies what can be reached from a block. -/
def Program.verify {R H : Type} (p : Program R H) (root : BlockId) : Except Stop Unit :=
  (Verifier.entered p root).map fun _ => ()

end StagedGraph
