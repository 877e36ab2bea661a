import StagedGraph.Interpreter

/-!
# Laws of whole runs

A law relates the state before a step of a run, how the step ended, and the state after it.
`Laws p E S` lists what has to be checked of two laws, one for expressions and one for
statements: that they hold of the few things a single step can do, and that they compose.
From that they hold of every expression, block and loop, of runs of any length
(`Laws.eval`, `Laws.exec`, `Laws.loop`). The induction is on the fuel and is done here once.
-/

namespace StagedGraph

variable {R H α β : Type}

/-- How a step ended, without its result: `none` if it has one, or else why it stopped. -/
def ending : Except Stop α → Option Stop
  | .ok _ => none
  | .error why => some why

@[simp] theorem ending_ok (a : α) : ending (.ok a) = none := rfl

@[simp] theorem ending_error (why : Stop) : ending (.error why : Except Stop α) = some why := rfl

theorem ending_eq_none {r : Except Stop α} : ending r = none ↔ ∃ a, r = .ok a := by
  cases r <;> simp

theorem ending_eq_some {r : Except Stop α} {why : Stop} : ending r = some why ↔ r = .error why := by
  cases r <;> simp

/-- The step came to an end, with a result or with an error. A step that aborts or runs out
of fuel did not. -/
def Ended : Option Stop → Prop
  | none => True
  | some (.error _) => True
  | some .aborted => False
  | some .outOfFuel => False

instance : DecidablePred Ended
  | none => .isTrue trivial
  | some (.error _) => .isTrue trivial
  | some .aborted => .isFalse id
  | some .outOfFuel => .isFalse id

/-- How a call of a native with this name ends for its outcome. -/
def NativeOutcome.result (name : String) : NativeOutcome R → Except Stop (Value R)
  | value v => .ok v
  | failed message => .error (.error (.ofFault (.native name message)))
  | aborted => .error .aborted

namespace RunState

/-- The state after a call of a native. -/
def called (s : RunState R H) (p : Program R H) (n : NativeId) (args : List (Value R)) :
    RunState R H :=
  let (outcome, host) := (p.native n).op args s.host
  { s with host := host, history := .called n args outcome :: s.history }

/-- The state after an assignment. -/
def assigned (s : RunState R H) (x : Name) (v : Value R) : RunState R H :=
  { s with env := s.env.assign x v, history := .assigned x v :: s.history }

@[simp] theorem fresh_env (host : H) : (fresh host : RunState R H).env = .empty := rfl

@[simp] theorem fresh_host (host : H) : (fresh host : RunState R H).host = host := rfl

@[simp] theorem fresh_history (host : H) : (fresh host : RunState R H).history = [] := rfl

@[simp] theorem assigned_env (s : RunState R H) (x : Name) (v : Value R) :
    (s.assigned x v).env = s.env.assign x v := rfl

@[simp] theorem assigned_calls (s : RunState R H) (x : Name) (v : Value R) :
    (s.assigned x v).calls = s.calls := rfl

@[simp] theorem assigned_host (s : RunState R H) (x : Name) (v : Value R) :
    (s.assigned x v).host = s.host := rfl

@[simp] theorem assigned_history (s : RunState R H) (x : Name) (v : Value R) :
    (s.assigned x v).history = .assigned x v :: s.history := rfl

/-- The state in which the body of a function starts. -/
def entered (s : RunState R H) (p : Program R H) (f : FuncId) (args : List (Value R)) :
    RunState R H :=
  { s with env := (s.env.push .frame).bind (p.func f).params args, calls := f :: s.calls }

/-- The state in which an iteration with a scope of its own starts. -/
def opened (s : RunState R H) : RunState R H := { s with env := s.env.push .block }

/-- The state with the current scope closed. -/
def closed (s : RunState R H) : RunState R H := { s with env := s.env.pop }

/-- The state after the end of a function: its scope is closed, and it is no longer being
executed. -/
def left (s : RunState R H) : RunState R H := { s with env := s.env.pop, calls := s.calls.tail }

/-- The names of the functions being executed, the outermost first. -/
def frames (s : RunState R H) (p : Program R H) : List String := s.calls.reverse.map p.funcName

end RunState

/-- A relation between the state before a step, how the step ended and the state after. -/
abbrev Law (R H : Type) := RunState R H → Option Stop → RunState R H → Prop

/-- Two laws, for expressions and for statements, that hold of what single steps of a run do
and that compose along a run. -/
structure Laws (p : Program R H) (E S : Law R H) : Prop where
  refl : ∀ s, E s none s
  /-- A native that refuses a call leaves a record of it, so this is about other faults only. -/
  fault : ∀ s f, f.nativeMessage? = none → E s (some (.error (.ofFault f))) s
  starved : ∀ s, E s (some .outOfFuel) s
  trans : ∀ {s t u o}, E s none t → E t o u → E s o u
  called : ∀ s n args,
    E s (ending (((p.native n).op args s.host).1.result (p.native n).name)) (s.called p n args)
  returned : ∀ {s f args t}, S (s.entered p f args) none t → E s none t.left
  /-- A break that leaves the body of a function is an error inside that function. -/
  escaped : ∀ {s f args t}, S (s.entered p f args) none t →
    E s (some (.error ((EvalError.ofFault .breakOutsideLoop).withTrace (t.frames p)))) t.left
  failed : ∀ {s f args t e}, S (s.entered p f args) (some (.error e)) t →
    E s (some (.error (e.withTrace (t.frames p)))) t.left
  halted : ∀ {s f args t why}, ¬ Ended (some why) → S (s.entered p f args) (some why) t →
    E s (some why) t.closed
  ofExpr : ∀ {s o t}, E s o t → S s o t
  transStmt : ∀ {s t u o}, S s none t → S t o u → S s o u
  assigned : ∀ s x v, S s none (s.assigned x v)
  nested : ∀ {s o t}, S s.opened o t → S s o t.closed

/-! ### Faults without a native -/

/-- If there is a fault, then it is not that of a native. -/
def WithoutNative (x : Except Fault α) : Prop := ∀ f, x = .error f → f.nativeMessage? = none

namespace WithoutNative

theorem truth [Scalar R] (v : Value R) : WithoutNative v.truth := by
  intro f h
  cases v <;> cases h <;> rfl

theorem negated [Scalar R] (v : Value R) : WithoutNative v.negated := by
  intro f h
  cases v with
  | int n =>
    rw [Value.negated] at h
    split at h <;> cases h
    rfl
  | void | bool | float | buffer => cases h <;> rfl

theorem checkArity (callee : String) (arity : Arity) (got : Nat) :
    WithoutNative (checkArity callee arity got) := by
  intro f h
  cases arity with
  | fixed n =>
    rw [StagedGraph.checkArity] at h
    split at h <;> cases h
    rfl
  | variadic => cases h

theorem checkArgCount (callee : String) (params : List Name) (got : Nat) :
    WithoutNative (checkArgCount callee params got) := by
  intro f h
  rw [StagedGraph.checkArgCount] at h
  split at h <;> cases h
  rfl

theorem checkSealed (func : Func) (name : String) :
    WithoutNative (if func.isSealed then .ok () else .error (.unsealedCallable name)) := by
  intro f h
  split at h <;> cases h
  rfl

end WithoutNative

/-! ### Steps -/

namespace Run

/-- Every way of taking a step obeys a law. -/
def Obeys (L : Law R H) (x : Run R H α) : Prop := ∀ s, L s (ending (x s).1) (x s).2

theorem Obeys.bind {L : Law R H} (trans : ∀ {s t u o}, L s none t → L t o u → L s o u)
    {x : Run R H α} {f : α → Run R H β} (hx : Obeys L x) (hf : ∀ a, Obeys L (f a)) :
    Obeys L (x >>= f) := by
  intro s
  have hs := hx s
  rw [bind_apply]
  rcases hr : x s with ⟨a | a, t⟩
  · rw [hr] at hs
    exact hs
  · rw [hr] at hs
    exact trans hs (hf a t)

end Run

theorem Run.inScope_block_apply (x : Run R H α) (s : RunState R H) :
    inScope .block x s = ((x s.opened).1, (x s.opened).2.closed) := rfl

namespace Interpreter

open Run

theorem checkArity_of_accepts {arity : Arity} {got : Nat} (callee : String)
    (h : arity.accepts got = true) : checkArity callee arity got = .ok () := by
  cases arity with
  | fixed n => exact if_pos (beq_iff_eq.1 h)
  | variadic => rfl

theorem callNative_apply {p : Program R H} {n : NativeId} {args : List (Value R)}
    (h : checkArity (p.native n).name (p.native n).arity args.length = .ok ()) (s : RunState R H) :
    callNative p n args s =
      (((p.native n).op args s.host).1.result (p.native n).name, s.called p n args) := by
  rw [callNative, h, RunState.called]
  refine (bind_apply_ok (show Run.ofExcept (.ok ()) s = (.ok (), s) from rfl)).trans ?_
  rcases (p.native n).op args s.host with ⟨outcome, host⟩
  cases outcome <;> rfl

/-- Expressions are evaluated up to the first that has no value. -/
theorem evalAll_append_error {eval : ExprId → Run R H (Value R)} {es : List ExprId} {e : ExprId}
    {vs : List (Value R)} {why : Stop} {s t u : RunState R H}
    (hes : evalAll eval es s = (.ok vs, t)) (he : eval e t = (.error why, u)) (rest : List ExprId) :
    evalAll eval (es ++ e :: rest) s = (.error why, u) := by
  induction es generalizing s vs with
  | nil =>
    cases hes
    exact bind_apply_error he
  | cons d es ih =>
    rw [List.cons_append, evalAll, bind_apply]
    rw [evalAll, bind_apply] at hes
    rcases hd : eval d s with ⟨_ | v, s'⟩
    · rw [hd] at hes
      cases hes
    · rw [hd] at hes
      dsimp only at hes ⊢
      rw [bind_apply] at hes
      rcases hvs : evalAll eval es s' with ⟨_ | ws, t'⟩
      · rw [hvs] at hes
        cases hes
      · rw [hvs] at hes
        cases hes
        exact bind_apply_error (ih hvs)

/-- Statements that all end normally hand over to the ones after them. -/
theorem execAll_append {execStmt : Stmt → Run R H (Flow R)} {ss : List Stmt} {s t : RunState R H}
    (h : execAll execStmt ss s = (.ok .normal, t)) (rest : List Stmt) :
    execAll execStmt (ss ++ rest) s = execAll execStmt rest t := by
  induction ss generalizing s with
  | nil => cases h; rfl
  | cons x ss ih =>
    rw [List.cons_append, execAll, bind_apply]
    rw [execAll, bind_apply] at h
    rcases hx : execStmt x s with ⟨why | flow, u⟩
    · rw [hx] at h
      cases h
    · rw [hx] at h
      cases flow with
      | normal => exact ih h
      | breakLoop => cases h
      | returned v => cases h

/-- How a call ends, and in which state, if its body ends so. -/
def afterBody (p : Program R H) :
    Except Stop (Flow R) → RunState R H → Except Stop (Value R) × RunState R H
  | .ok flow, t =>
    match resultOf flow with
    | .ok v => (.ok v, t.left)
    | .error f => (.error (.error ((EvalError.ofFault f).withTrace (t.frames p))), t.left)
  | .error (.error e), t => (.error (.error (e.withTrace (t.frames p))), t.left)
  | .error why, t => (.error why, t.closed)

theorem inCall_body_apply (p : Program R H) (f : FuncId) (args : List (Value R))
    (body : Run R H (Flow R)) (s : RunState R H) :
    inCall p f (do
      let flow ← inScope .frame (do
        bindParams (p.func f).params args
        body)
      Run.ofExcept (resultOf flow)) s =
      afterBody p (body (s.entered p f args)).1 (body (s.entered p f args)).2 := by
  have hscope : inScope .frame (do
        bindParams (p.func f).params args
        body) { s with calls := f :: s.calls } =
      ((body (s.entered p f args)).1, (body (s.entered p f args)).2.closed) := rfl
  unfold inCall
  rw [bind_apply, hscope]
  rcases body (s.entered p f args) with ⟨why | flow, t⟩
  · cases why <;> rfl
  · cases flow <;> rfl

/-- A call of a sealed function with as many arguments as it has parameters. -/
theorem callFunc_apply {p : Program R H} {f : FuncId} {args : List (Value R)}
    (hsealed : (p.func f).isSealed = true) (hcount : (p.func f).params.length = args.length)
    (exec : BlockId → Run R H (Flow R)) (s : RunState R H) :
    callFunc p exec f args s =
      afterBody p (exec (p.func f).body (s.entered p f args)).1
        (exec (p.func f).body (s.entered p f args)).2 := by
  rw [callFunc, if_pos hsealed, checkArgCount, if_pos hcount]
  exact inCall_body_apply p f args (exec (p.func f).body) s

end Interpreter

namespace Laws

open Interpreter Run

variable {p : Program R H} {E S : Law R H}

theorem pure (h : Laws p E S) (a : α) : Obeys E (Pure.pure a : Run R H α) := fun s => h.refl s

theorem bind (h : Laws p E S) {x : Run R H α} {f : α → Run R H β} (hx : Obeys E x)
    (hf : ∀ a, Obeys E (f a)) : Obeys E (x >>= f) :=
  Obeys.bind h.trans hx hf

theorem bindStmt (h : Laws p E S) {x : Run R H α} {f : α → Run R H β} (hx : Obeys S x)
    (hf : ∀ a, Obeys S (f a)) : Obeys S (x >>= f) :=
  Obeys.bind h.transStmt hx hf

theorem stmt_of_expr (h : Laws p E S) {x : Run R H α} (hx : Obeys E x) : Obeys S x :=
  fun s => h.ofExpr (hx s)

theorem ofExcept (h : Laws p E S) {x : Except Fault α} (hx : WithoutNative x) :
    Obeys E (Run.ofExcept x : Run R H α) := by
  cases x with
  | ok a => exact fun s => h.refl s
  | error f => exact fun s => h.fault s f (hx f rfl)

theorem lookup (h : Laws p E S) (x : Name) : Obeys E (Run.lookup p x) := by
  intro s
  unfold Run.lookup
  split
  · exact h.refl s
  · exact h.fault s _ rfl

theorem starve (h : Laws p E S) : Obeys E (Run.stop .outOfFuel : Run R H α) := fun s => h.starved s

theorem evalAll (h : Laws p E S) {eval : ExprId → Run R H (Value R)} (heval : ∀ e, Obeys E (eval e))
    (es : List ExprId) : Obeys E (Interpreter.evalAll eval es) := by
  induction es with
  | nil => exact h.pure []
  | cons e es ih => exact h.bind (heval e) fun v => h.bind ih fun vs => h.pure (v :: vs)

theorem execAll (h : Laws p E S) {execStmt : Stmt → Run R H (Flow R)}
    (hstmt : ∀ s, Obeys S (execStmt s)) (ss : List Stmt) :
    Obeys S (Interpreter.execAll execStmt ss) := by
  induction ss with
  | nil => exact h.stmt_of_expr (h.pure _)
  | cons s ss ih =>
    refine h.bindStmt (hstmt s) fun flow => ?_
    cases flow with
    | normal => exact ih
    | breakLoop => exact h.stmt_of_expr (h.pure _)
    | returned v => exact h.stmt_of_expr (h.pure _)

theorem iteration (h : Laws p E S) (mode : LoopScope) {x : Run R H (Flow R)} (hx : Obeys S x) :
    Obeys S (Interpreter.iteration mode x) := by
  cases mode with
  | shared => exact hx
  | perIteration => exact fun s => h.nested (hx s.opened)

theorem callNative (h : Laws p E S) (n : NativeId) (args : List (Value R)) :
    Obeys E (Interpreter.callNative p n args) := by
  intro s
  cases harity : checkArity (p.native n).name (p.native n).arity args.length with
  | ok _ =>
    rw [callNative_apply harity]
    exact h.called s n args
  | error f =>
    rw [Interpreter.callNative, harity]
    exact h.fault s f (WithoutNative.checkArity _ _ _ f harity)

/-- A call obeys the law of expressions if the body obeys the law of statements. -/
theorem callFunc (h : Laws p E S) {exec : BlockId → Run R H (Flow R)}
    (hexec : ∀ b, Obeys S (exec b)) (f : FuncId) (args : List (Value R)) :
    Obeys E (Interpreter.callFunc p exec f args) := by
  refine h.bind (h.ofExcept (.checkSealed _ _)) fun _ =>
    h.bind (h.ofExcept (.checkArgCount _ _ _)) fun _ s => ?_
  have hs := hexec (p.func f).body (s.entered p f args)
  rw [inCall_body_apply]
  -- what the call does is decided by how the body ends
  generalize exec (p.func f).body (s.entered p f args) = r at hs
  obtain ⟨why | flow, t⟩ := r
  · cases why with
    | error e => exact h.failed hs
    | aborted => exact h.halted id hs
    | outOfFuel => exact h.halted id hs
  · cases flow with
    | normal => exact h.returned hs
    | breakLoop => exact h.escaped hs
    | returned v => exact h.returned hs

variable [Scalar R]

theorem evalExpr (h : Laws p E S) {eval : ExprId → Run R H (Value R)}
    {exec : BlockId → Run R H (Flow R)} (heval : ∀ e, Obeys E (eval e))
    (hexec : ∀ b, Obeys S (exec b)) (e : Expr R) : Obeys E (Interpreter.evalExpr p eval exec e) := by
  cases e with
  | literal v => exact h.pure v
  | var x => exact h.lookup x
  | neg e => exact h.bind (heval e) fun v => h.ofExcept (.negated v)
  | invoke callee args =>
    refine h.bind (h.evalAll heval args) fun vs => ?_
    cases callee with
    | native n => exact h.callNative n vs
    | callable f => exact h.callFunc hexec f vs

theorem test (h : Laws p E S) {eval : ExprId → Run R H (Value R)} (heval : ∀ e, Obeys E (eval e))
    (cond : ExprId) : Obeys E (Interpreter.test eval cond) :=
  h.bind (heval cond) fun v => h.ofExcept (.truth v)

theorem execStmt (h : Laws p E S) {eval : ExprId → Run R H (Value R)}
    {exec : BlockId → Run R H (Flow R)} {loop : ExprId → BlockId → Run R H (Flow R)}
    (heval : ∀ e, Obeys E (eval e)) (hexec : ∀ b, Obeys S (exec b))
    (hloop : ∀ c b, Obeys S (loop c b)) (s : Stmt) :
    Obeys S (Interpreter.execStmt eval exec loop s) := by
  have done (flow : Flow R) : Obeys S (Pure.pure flow : Run R H (Flow R)) :=
    h.stmt_of_expr (h.pure flow)
  cases s with
  | expr e => exact h.bindStmt (h.stmt_of_expr (heval e)) fun _ => done .normal
  | assign x e =>
    exact h.bindStmt (h.stmt_of_expr (heval e)) fun v =>
      h.bindStmt (fun s => h.assigned s x v) fun _ => done .normal
  | ifThen cond thenBlock =>
    refine h.bindStmt (h.stmt_of_expr (h.test heval cond)) fun holds => ?_
    cases holds with
    | true => exact hexec thenBlock
    | false => exact done .normal
  | whileLoop cond body => exact hloop cond body
  | breakLoop => exact done .breakLoop
  | returnValue e =>
    cases e with
    | none => exact done (.returned .void)
    | some e => exact h.bindStmt (h.stmt_of_expr (heval e)) fun v => done (.returned v)
  | funcDef f => exact done .normal

/-- **Laws hold of whole runs**, for any amount of fuel. -/
theorem all (h : Laws p E S) (mode : LoopScope) (fuel : Nat) :
    (∀ e, Obeys E (eval p mode fuel e)) ∧ (∀ b, Obeys S (exec p mode fuel b)) ∧
      ∀ cond body, Obeys S (loop p mode fuel cond body) := by
  induction fuel with
  | zero =>
    exact ⟨fun _ => h.starve, fun _ => h.stmt_of_expr h.starve, fun _ _ => h.stmt_of_expr h.starve⟩
  | succ fuel ih =>
    obtain ⟨heval, hexec, hloop⟩ := ih
    refine ⟨fun e => ?_, fun b => ?_, fun cond body => ?_⟩
    · rw [Interpreter.eval]
      exact h.evalExpr heval hexec _
    · rw [Interpreter.exec]
      exact h.execAll (h.execStmt heval hexec hloop) _
    · rw [Interpreter.loop]
      refine h.bindStmt (h.stmt_of_expr (h.test heval cond)) fun holds => ?_
      cases holds with
      | false => exact h.stmt_of_expr (h.pure _)
      | true =>
        refine h.bindStmt (h.iteration mode (hexec body)) fun flow => ?_
        cases flow with
        | normal => exact hloop cond body
        | breakLoop => exact h.stmt_of_expr (h.pure _)
        | returned v => exact h.stmt_of_expr (h.pure _)

theorem eval (h : Laws p E S) (mode : LoopScope) (fuel : Nat) (e : ExprId) :
    Obeys E (Interpreter.eval p mode fuel e) := (h.all mode fuel).1 e

theorem exec (h : Laws p E S) (mode : LoopScope) (fuel : Nat) (b : BlockId) :
    Obeys S (Interpreter.exec p mode fuel b) := (h.all mode fuel).2.1 b

theorem loop (h : Laws p E S) (mode : LoopScope) (fuel : Nat) (cond : ExprId) (body : BlockId) :
    Obeys S (Interpreter.loop p mode fuel cond body) := (h.all mode fuel).2.2 cond body

theorem stmt (h : Laws p E S) (mode : LoopScope) (fuel : Nat) (s : Stmt) :
    Obeys S (Interpreter.stmt p mode fuel s) :=
  h.execStmt (h.eval mode fuel) (h.exec mode fuel) (h.loop mode fuel) s

theorem run (h : Laws p E S) (mode : LoopScope) (fuel : Nat) (root : BlockId) :
    Obeys S (Interpreter.run p mode fuel root) := by
  refine h.bindStmt (h.exec mode fuel root) fun flow => h.stmt_of_expr ?_
  cases flow with
  | normal => exact h.pure _
  | breakLoop => exact fun s => h.fault s _ rfl
  | returned v => exact fun s => h.fault s _ rfl

omit [Scalar R] in
/-- What every native keeps of the host, every run keeps. -/
theorem ofHost {L : H → H → Prop} (hrefl : ∀ host, L host host)
    (htrans : ∀ {a b c}, L a b → L b c → L a c)
    (hnative : ∀ n args host, L host ((p.native n).op args host).2) :
    Laws p (fun s _ t => L s.host t.host) fun s _ t => L s.host t.host where
  refl s := hrefl s.host
  fault s _ _ := hrefl s.host
  starved s := hrefl s.host
  trans := htrans
  called s n args := hnative n args s.host
  returned := id
  escaped := id
  failed := id
  halted _ := id
  ofExpr := id
  transStmt := htrans
  assigned s _ _ := hrefl s.host
  nested := id

end Laws

end StagedGraph
