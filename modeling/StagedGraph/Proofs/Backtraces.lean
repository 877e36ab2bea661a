import StagedGraph.Graph.Builder
import StagedGraph.Proofs.BigSteps
import StagedGraph.Proofs.Confinement
import StagedGraph.Proofs.Fuel
import StagedGraph.Proofs.Nesting

/-!
# Where an error arose

An error gets its trace on its way out: every call that it passes offers the names of the
functions being executed, and the first offer is taken. `Raises` says where an error arises
without following it outwards. A fault arises while some part of a program is executed, and
between the two are the functions whose bodies were entered and not left. There is one rule for
each way in which a fault can arise, and one for each place that it can arise in; only the rules
for the body of a call add a function.

A run fails with a fault if and only if the fault arises in it (`fails_of_raises`,
`run_explained`), and then the trace of the error has the names of these functions. The functions
that the run was in at the start come first; but they are added only if there is a call between
the start and the fault, as there is nobody else to make an offer (`Program.traceOf`).
-/

namespace StagedGraph

open Interpreter

variable {R H α : Type}

/-! ### Traces -/

/-- The trace of an error that passes these calls, the outermost first, in a run that was in
the calls of the first list, the innermost first. -/
def Program.traceOf (p : Program R H) (calls : List FuncId) : List FuncId → List String
  | [] => []
  | g :: path => (calls.reverse ++ g :: path).map p.funcName

/-- The first call that an error passes offers all names, and the calls after it change
nothing. -/
theorem Program.withTrace_traceOf (p : Program R H) (f : Fault) (calls : List FuncId) (g : FuncId)
    (path : List FuncId) :
    EvalError.withTrace ⟨f, p.traceOf (g :: calls) path⟩ ((g :: calls).reverse.map p.funcName) =
      ⟨f, p.traceOf calls (g :: path)⟩ := by
  cases path with
  | nil => simp [EvalError.withTrace, traceOf]
  | cons g' path => simp [EvalError.withTrace, traceOf]

theorem Program.traceOf_nil (p : Program R H) (path : List FuncId) :
    p.traceOf [] path = path.map p.funcName := by
  cases path <;> rfl

/-! ### The places where faults arise -/

/-- A fragment of a program that a run executes. -/
inductive Fragment where
  | expr (e : ExprId)
  | args (es : List ExprId)
  | stmt (st : Stmt)
  | stmts (sts : List Stmt)
  | block (b : BlockId)
  | program (root : BlockId)

/-- The state in which the body of a loop starts. -/
def RunState.iterating (mode : LoopScope) (s : RunState R H) : RunState R H :=
  match mode with
  | .shared => s
  | .perIteration => s.opened

/-- The condition of a statement. -/
def Stmt.cond? : Stmt → Option ExprId
  | ifThen cond _ => some cond
  | whileLoop cond _ => some cond
  | _ => none

/-- The function may be called with this many arguments. -/
def Program.Admits (p : Program R H) (g : FuncId) (count : Nat) : Prop :=
  (p.func g).isSealed = true ∧ (p.func g).params.length = count

variable [Scalar R]

/-- The expression invokes the callee, and its arguments have evaluated to these values. -/
def Invoking (p : Program R H) (mode : LoopScope) (e : ExprId) (s : RunState R H) (callee : Callee)
    (vs : List (Value R)) (t : RunState R H) : Prop :=
  ∃ es, p.expr e = .invoke callee es ∧
    Settles (fun fuel => evalAll (eval p mode fuel) es) s (.ok vs) t

/-- Executing the fragment from this state, the fault arises inside the bodies of these functions,
the outermost first. -/
inductive Raises (p : Program R H) (mode : LoopScope) :
    Fragment → RunState R H → Fault → List FuncId → Prop
  | unbound {e x s} : p.expr e = .var x → s.env.lookup x = none →
      Raises p mode (.expr e) s (.undefinedVariable (p.text x)) []
  | negation {e a s v t f} : p.expr e = .neg a →
      Settles (fun fuel => eval p mode fuel a) s (.ok v) t → v.negated = .error f →
      Raises p mode (.expr e) s f []
  | operand {e a s f path} : p.expr e = .neg a → Raises p mode (.expr a) s f path →
      Raises p mode (.expr e) s f path
  | argument {e callee es s f path} : p.expr e = .invoke callee es →
      Raises p mode (.args es) s f path → Raises p mode (.expr e) s f path
  | arity {e n s vs t f} : Invoking p mode e s (.native n) vs t →
      checkArity (p.native n).name (p.native n).arity vs.length = .error f →
      Raises p mode (.expr e) s f []
  | refusal {e n s vs t message} : Invoking p mode e s (.native n) vs t →
      checkArity (p.native n).name (p.native n).arity vs.length = .ok () →
      ((p.native n).op vs t.host).1 = .failed message →
      Raises p mode (.expr e) s (.native (p.native n).name message) []
  | notSealed {e g s vs t} : Invoking p mode e s (.callable g) vs t → (p.func g).isSealed = false →
      Raises p mode (.expr e) s (.unsealedCallable (p.funcName g)) []
  | argCount {e g s vs t f} : Invoking p mode e s (.callable g) vs t →
      (p.func g).isSealed = true →
      checkArgCount (p.funcName g) (p.func g).params vs.length = .error f →
      Raises p mode (.expr e) s f []
  | body {e g s vs t f path} : Invoking p mode e s (.callable g) vs t → p.Admits g vs.length →
      Raises p mode (.block (p.func g).body) (t.entered p g vs) f path →
      Raises p mode (.expr e) s f (g :: path)
  | escape {e g s vs t u} : Invoking p mode e s (.callable g) vs t → p.Admits g vs.length →
      Settles (fun fuel => exec p mode fuel (p.func g).body) (t.entered p g vs) (.ok .breakLoop) u →
      Raises p mode (.expr e) s .breakOutsideLoop [g]
  | first {e es s f path} : Raises p mode (.expr e) s f path →
      Raises p mode (.args (e :: es)) s f path
  | later {e es s v t f path} : Settles (fun fuel => eval p mode fuel e) s (.ok v) t →
      Raises p mode (.args es) t f path → Raises p mode (.args (e :: es)) s f path
  | condition {st cond s v t f} : st.cond? = some cond →
      Settles (fun fuel => eval p mode fuel cond) s (.ok v) t → v.truth = .error f →
      Raises p mode (.stmt st) s f []
  | operandOf {st e s f path} : e ∈ st.exprs → Raises p mode (.expr e) s f path →
      Raises p mode (.stmt st) s f path
  | thenBlock {cond b s t f path} : Settles (fun fuel => test (eval p mode fuel) cond) s (.ok true) t →
      Raises p mode (.block b) t f path → Raises p mode (.stmt (.ifThen cond b)) s f path
  | loopBody {cond b s t f path} : Settles (fun fuel => test (eval p mode fuel) cond) s (.ok true) t →
      Raises p mode (.block b) (t.iterating mode) f path →
      Raises p mode (.stmt (.whileLoop cond b)) s f path
  | loopAgain {cond b s t u f path} :
      Settles (fun fuel => test (eval p mode fuel) cond) s (.ok true) t →
      Settles (fun fuel => iteration mode (exec p mode fuel b)) t (.ok .normal) u →
      Raises p mode (.stmt (.whileLoop cond b)) u f path →
      Raises p mode (.stmt (.whileLoop cond b)) s f path
  | here {st sts s f path} : Raises p mode (.stmt st) s f path →
      Raises p mode (.stmts (st :: sts)) s f path
  | after {st sts s t f path} : Settles (fun fuel => stmt p mode fuel st) s (.ok .normal) t →
      Raises p mode (.stmts sts) t f path → Raises p mode (.stmts (st :: sts)) s f path
  | statements {b s f path} : Raises p mode (.stmts (p.block b)) s f path →
      Raises p mode (.block b) s f path
  | root {b s f path} : Raises p mode (.block b) s f path → Raises p mode (.program b) s f path
  | strayBreak {b s t} : Settles (fun fuel => exec p mode fuel b) s (.ok .breakLoop) t →
      Raises p mode (.program b) s .breakOutsideLoop []
  | strayReturn {b s v t} : Settles (fun fuel => exec p mode fuel b) s (.ok (.returned v)) t →
      Raises p mode (.program b) s .returnOutsideCallable []

/-- Executing the fragment from this state fails with this error. -/
def Fragment.Fails (p : Program R H) (mode : LoopScope) (s : RunState R H) (e : EvalError)
    (t : RunState R H) : Fragment → Prop
  | expr a => Settles (fun fuel => eval p mode fuel a) s (.error (.error e)) t
  | args es => Settles (fun fuel => evalAll (eval p mode fuel) es) s (.error (.error e)) t
  | stmt st => Settles (fun fuel => Interpreter.stmt p mode fuel st) s (.error (.error e)) t
  | stmts sts => Settles (fun fuel => execAll (Interpreter.stmt p mode fuel) sts) s
      (.error (.error e)) t
  | block b => Settles (fun fuel => exec p mode fuel b) s (.error (.error e)) t
  | program root => Settles (fun fuel => run p mode fuel root) s (.error (.error e)) t

variable {p : Program R H} {mode : LoopScope} {s t u : RunState R H} {e : ExprId} {g : FuncId}
  {vs : List (Value R)} {f : Fault}

/-! ### The functions being executed -/

namespace Settles

theorem eval_calls {r : Except Stop (Value R)}
    (h : Settles (fun fuel => Interpreter.eval p mode fuel e) s r t) (hr : Ended (ending r)) :
    t.calls = s.calls :=
  (h.obeys fun fuel => (frame_laws p).eval mode fuel e).2 hr

theorem evalAll_calls {es : List ExprId}
    (h : Settles (fun fuel => Interpreter.evalAll (Interpreter.eval p mode fuel) es) s (.ok vs) t) :
    t.calls = s.calls :=
  (h.obeys fun fuel => (frame_laws p).evalAll ((frame_laws p).eval mode fuel) es).2 trivial

theorem test_calls {cond : ExprId} {holds : Bool}
    (h : Settles (fun fuel => Interpreter.test (Interpreter.eval p mode fuel) cond) s (.ok holds) t) :
    t.calls = s.calls :=
  (h.obeys fun fuel => (frame_laws p).test ((frame_laws p).eval mode fuel) cond).2 trivial

theorem exec_calls {b : BlockId} {r : Except Stop (Flow R)}
    (h : Settles (fun fuel => Interpreter.exec p mode fuel b) s r t) (hr : Ended (ending r)) :
    t.calls = s.calls :=
  (h.obeys fun fuel => (frame_laws p).exec mode fuel b).2 hr

theorem stmt_calls {st : Stmt} {flow : Flow R}
    (h : Settles (fun fuel => Interpreter.stmt p mode fuel st) s (.ok flow) t) :
    t.calls = s.calls :=
  (h.obeys fun fuel => (frame_laws p).stmt mode fuel st).2 trivial

theorem iteration_calls {b : BlockId} {flow : Flow R}
    (h : Settles (fun fuel => iteration mode (Interpreter.exec p mode fuel b)) s (.ok flow) t) :
    t.calls = s.calls :=
  (h.obeys fun fuel => (frame_laws p).iteration mode ((frame_laws p).exec mode fuel b)).2 trivial

end Settles

omit [Scalar R] in
theorem RunState.iterating_calls (mode : LoopScope) (s : RunState R H) : (s.iterating mode).calls = s.calls := by
  cases mode <;> rfl

/-! ### From where a fault arises to the error of the run -/

theorem Settles.iteration_error {b : BlockId} {why : Stop}
    (h : Settles (fun fuel => Interpreter.exec p mode fuel b) (s.iterating mode) (.error why) t) :
    ∃ u, Settles (fun fuel => iteration mode (Interpreter.exec p mode fuel b)) s (.error why) u := by
  obtain ⟨n, h⟩ := h
  cases mode with
  | shared => exact ⟨t, n, h⟩
  | perIteration =>
    refine ⟨t.closed, n, fun fuel hfuel => ?_⟩
    have hexec : Interpreter.exec p .perIteration fuel b s.opened = (.error why, t) := h fuel hfuel
    exact (Run.inScope_block_apply _ s).trans (by rw [hexec])

/-- A call ends as `afterBody` says. -/
theorem Settles.callFunc {r : Except Stop (Flow R)} (hadmits : p.Admits g vs.length)
    (h : Settles (fun fuel => Interpreter.exec p mode fuel (p.func g).body) (s.entered p g vs) r t) :
    Settles (fun fuel => Interpreter.callFunc p (Interpreter.exec p mode fuel) g vs) s
      (afterBody p r t).1 (afterBody p r t).2 := by
  obtain ⟨n, h⟩ := h
  refine ⟨n, fun fuel hfuel => (callFunc_apply hadmits.1 hadmits.2 _ s).trans ?_⟩
  have hbody : Interpreter.exec p mode fuel (p.func g).body (s.entered p g vs) = (r, t) :=
    h fuel hfuel
  rw [hbody]

/-- The error of a body gets the trace that it has outside the call. -/
theorem Settles.callFunc_error {path : List FuncId} (hadmits : p.Admits g vs.length)
    (h : Settles (fun fuel => Interpreter.exec p mode fuel (p.func g).body) (s.entered p g vs)
      (.error (.error ⟨f, p.traceOf (g :: s.calls) path⟩)) t) :
    ∃ u, Settles (fun fuel => Interpreter.callFunc p (Interpreter.exec p mode fuel) g vs) s
      (.error (.error ⟨f, p.traceOf s.calls (g :: path)⟩)) u := by
  have hcalls : t.calls = g :: s.calls := h.exec_calls trivial
  have hcall := h.callFunc hadmits
  rw [afterBody, RunState.frames, hcalls, p.withTrace_traceOf] at hcall
  exact ⟨_, hcall⟩

/-- A break that leaves a body is an error inside of the body. -/
theorem Settles.callFunc_escape (hadmits : p.Admits g vs.length)
    (h : Settles (fun fuel => Interpreter.exec p mode fuel (p.func g).body) (s.entered p g vs)
      (.ok .breakLoop) t) :
    ∃ u, Settles (fun fuel => Interpreter.callFunc p (Interpreter.exec p mode fuel) g vs) s
      (.error (.error ⟨.breakOutsideLoop, p.traceOf s.calls [g]⟩)) u := by
  have hcalls : t.calls = g :: s.calls := h.exec_calls trivial
  have hcall := h.callFunc hadmits
  have htrace := p.withTrace_traceOf .breakOutsideLoop s.calls g []
  rw [Program.traceOf] at htrace
  simp only [afterBody, resultOf, RunState.frames, hcalls] at hcall
  rw [EvalError.ofFault, htrace] at hcall
  exact ⟨_, hcall⟩

namespace Invoking

/-- A call of a native is what its expression does last. -/
theorem native {n : NativeId} {r : Except Stop (Value R)} (h : Invoking p mode e s (.native n) vs t)
    (hcall : callNative p n vs t = (r, u)) :
    Settles (fun fuel => Interpreter.eval p mode fuel e) s r u := by
  obtain ⟨es, he, hes⟩ := h
  exact .eval he (hes.bind (.of_forall fun _ => hcall))

/-- A call of a function is what its expression does last. -/
theorem callable {r : Except Stop (Value R)} (h : Invoking p mode e s (.callable g) vs t)
    (hcall : Settles (fun fuel => callFunc p (exec p mode fuel) g vs) t r u) :
    Settles (fun fuel => Interpreter.eval p mode fuel e) s r u := by
  obtain ⟨es, he, hes⟩ := h
  exact .eval he (hes.bind hcall)

theorem calls {callee : Callee} (h : Invoking p mode e s callee vs t) :
    t.calls = s.calls := by
  obtain ⟨_, -, hes⟩ := h
  exact hes.evalAll_calls

end Invoking

/-- An operand that fails is the first thing that a statement does. -/
theorem Settles.stmt_operand {st : Stmt} {why : Stop} (he : e ∈ st.exprs)
    (h : Settles (fun fuel => Interpreter.eval p mode fuel e) s (.error why) t) :
    Settles (fun fuel => Interpreter.stmt p mode fuel st) s (.error why) t := by
  cases st with
  | expr a => cases List.mem_singleton.1 he; exact h.bind_error
  | assign x a => cases List.mem_singleton.1 he; exact h.bind_error
  | ifThen cond b => cases List.mem_singleton.1 he; exact h.bind_error.bind_error
  | whileLoop cond b =>
    cases List.mem_singleton.1 he
    exact .succ h.bind_error.bind_error
  | returnValue v =>
    cases v with
    | none => cases he
    | some a => cases List.mem_singleton.1 he; exact h.bind_error
  | breakLoop | funcDef => cases he

/-- A condition that is neither true nor false is a fault of the statement. -/
theorem Settles.stmt_condition {st : Stmt} {cond : ExprId} {v : Value R} (hst : st.cond? = some cond)
    (h : Settles (fun fuel => Interpreter.eval p mode fuel cond) s (.ok v) t)
    (hv : v.truth = .error f) :
    Settles (fun fuel => Interpreter.stmt p mode fuel st) s (.error (.error (.ofFault f))) t := by
  have htest : Settles (fun fuel => Interpreter.test (Interpreter.eval p mode fuel) cond) s
      (.error (.error (.ofFault f))) t :=
    h.bind (.of_forall fun _ => by rw [hv]; rfl)
  cases st with
  | ifThen => cases hst; exact htest.bind_error
  | whileLoop => cases hst; exact .succ htest.bind_error
  | expr | assign | breakLoop | returnValue | funcDef => cases hst

/-- **A fault that arises makes the run fail**, with the names of the functions in whose bodies
it arises, by induction on where it arises. What was executed before the fault has settled, so it
left the functions being executed as they were. -/
theorem fails_of_raises {x : Fragment} {path : List FuncId} (h : Raises p mode x s f path) :
    ∃ t, x.Fails p mode s ⟨f, p.traceOf s.calls path⟩ t := by
  induction h with
  | unbound he hx =>
    exact ⟨_, .eval he (.of_forall fun _ => by simp [evalExpr, Run.lookup, hx]; rfl)⟩
  | negation he ha hv => exact ⟨_, .eval he (ha.bind (.of_forall fun _ => by rw [hv]; rfl))⟩
  | operand he _ ih =>
    obtain ⟨t, ht⟩ := ih
    exact ⟨t, .eval he ht.bind_error⟩
  | argument he _ ih =>
    obtain ⟨t, ht⟩ := ih
    exact ⟨t, .eval he ht.bind_error⟩
  | arity hinv hcheck => exact ⟨_, hinv.native (by rw [callNative, hcheck]; rfl)⟩
  | refusal hinv hcheck hop => exact ⟨_, hinv.native (by rw [callNative_apply hcheck, hop]; rfl)⟩
  | notSealed hinv hsealed =>
    exact ⟨_, hinv.callable (.of_forall fun _ => by rw [callFunc, hsealed]; rfl)⟩
  | argCount hinv hsealed hcount =>
    rw [Program.funcName] at hcount
    exact ⟨_, hinv.callable (.of_forall fun _ => by rw [callFunc, hsealed, hcount]; rfl)⟩
  | body hinv hadmits _ ih =>
    obtain ⟨t, ht⟩ := ih
    obtain ⟨u, hu⟩ := ht.callFunc_error hadmits
    exact ⟨u, hinv.calls ▸ hinv.callable hu⟩
  | escape hinv hadmits hbody =>
    obtain ⟨u, hu⟩ := hbody.callFunc_escape hadmits
    exact ⟨u, hinv.calls ▸ hinv.callable hu⟩
  | first _ ih =>
    obtain ⟨t, ht⟩ := ih
    exact ⟨t, ht.bind_error⟩
  | later he _ ih =>
    obtain ⟨u, hu⟩ := ih
    exact ⟨u, he.bind (he.eval_calls trivial ▸ hu.bind_error)⟩
  | condition hst he hv => exact ⟨_, he.stmt_condition hst hv⟩
  | operandOf he _ ih =>
    obtain ⟨t, ht⟩ := ih
    exact ⟨t, ht.stmt_operand he⟩
  | thenBlock hcond _ ih =>
    obtain ⟨u, hu⟩ := ih
    exact ⟨u, hcond.bind (hcond.test_calls ▸ hu)⟩
  | loopBody hcond _ ih =>
    obtain ⟨u, hu⟩ := ih
    obtain ⟨u', hu'⟩ := hu.iteration_error
    rw [RunState.iterating_calls, hcond.test_calls] at hu'
    exact ⟨u', .succ (hcond.bind hu'.bind_error)⟩
  | loopAgain hcond hiter _ ih =>
    obtain ⟨u, hu⟩ := ih
    rw [hiter.iteration_calls, hcond.test_calls] at hu
    exact ⟨u, .succ (hcond.bind (hiter.bind hu))⟩
  | here _ ih =>
    obtain ⟨t, ht⟩ := ih
    exact ⟨t, ht.bind_error⟩
  | after hst _ ih =>
    obtain ⟨u, hu⟩ := ih
    exact ⟨u, hst.bind (hst.stmt_calls ▸ hu)⟩
  | statements _ ih =>
    obtain ⟨t, ht⟩ := ih
    exact ⟨t, .succ ht⟩
  | root _ ih =>
    obtain ⟨t, ht⟩ := ih
    exact ⟨t, ht.bind_error⟩
  | strayBreak hb => exact ⟨_, hb.bind (.of_forall fun _ => rfl)⟩
  | strayReturn hb => exact ⟨_, hb.bind (.of_forall fun _ => rfl)⟩

/-! ### From the error of the run to where its fault arises -/

/-- The fault of the error arises when the fragment is executed, and its trace has the names of
the functions in whose bodies it arises. -/
def Arises (p : Program R H) (mode : LoopScope) (x : Fragment) (s : RunState R H) (e : EvalError) :
    Prop :=
  ∃ path, Raises p mode x s e.fault path ∧ e.trace = p.traceOf s.calls path

/-- Whatever error the step fails with, it arises when the fragment is executed. -/
def Explains (p : Program R H) (mode : LoopScope) (x : Fragment) (step : Run R H α) : Prop :=
  ∀ s e t, step s = (.error (.error e), t) → Arises p mode x s e

namespace Arises

variable {x y : Fragment} {err : EvalError}

theorem here (h : Raises p mode x s f []) : Arises p mode x s (.ofFault f) := ⟨[], h, rfl⟩

/-- What arises in a fragment arises in what the fragment is a part of. -/
theorem inside (h : Arises p mode x t err) (hcalls : t.calls = s.calls)
    (hraises : ∀ {path}, Raises p mode x t err.fault path → Raises p mode y s err.fault path) :
    Arises p mode y s err := by
  obtain ⟨path, hpath, htrace⟩ := h
  exact ⟨path, hraises hpath, hcalls ▸ htrace⟩

theorem of_native {n : NativeId} (hinv : Invoking p mode e s (.native n) vs t)
    (h : callNative p n vs t = (.error (.error err), u)) : Arises p mode (.expr e) s err := by
  cases hcheck : checkArity (p.native n).name (p.native n).arity vs.length with
  | error f =>
    rw [callNative, hcheck] at h
    cases h
    exact .here (.arity hinv hcheck)
  | ok _ =>
    rw [callNative_apply hcheck] at h
    cases hop : ((p.native n).op vs t.host).1 with
    | failed message =>
      rw [hop] at h
      cases h
      exact .here (.refusal hinv hcheck hop)
    | value v => rw [hop] at h; cases h
    | aborted => rw [hop] at h; cases h

/-- The body of a call is where its error arises, if the call was admitted. -/
theorem of_body {fuel : Nat} (hinv : Invoking p mode e s (.callable g) vs t)
    (hadmits : p.Admits g vs.length)
    (hbody : Explains p mode (.block (p.func g).body) (exec p mode fuel (p.func g).body))
    (h : callFunc p (exec p mode fuel) g vs t = (.error (.error err), u)) :
    Arises p mode (.expr e) s err := by
  rw [callFunc_apply hadmits.1 hadmits.2] at h
  rcases hexec : exec p mode fuel (p.func g).body (t.entered p g vs) with ⟨r, w⟩
  have hcalls : Ended (ending r) → w.calls = g :: t.calls := by
    have hlaw := ((frame_laws p).exec mode fuel (p.func g).body (t.entered p g vs)).2
    rwa [hexec] at hlaw
  rw [hexec] at h
  rcases r with (⟨f, trace⟩ | _ | _) | flow
  · -- the trace has the names that the calls of `path` offered, or it is empty and waits for this call
    obtain ⟨path, hpath, rfl⟩ := hbody _ _ _ hexec
    have htrace := p.withTrace_traceOf f t.calls g path
    rw [afterBody, RunState.frames, hcalls trivial] at h
    cases h
    refine ⟨g :: path, ?_, ?_⟩
    · rw [EvalError.withTrace_fault]
      exact .body hinv hadmits hpath
    · exact hinv.calls ▸ congrArg EvalError.trace htrace
  · cases h
  · cases h
  · cases flow with
    | breakLoop =>
      -- the error arises at the end of the body, so no call inside of it has seen it
      have hescape := Settles.of_ok (exec_steady p mode _) hexec
      have htrace := p.withTrace_traceOf .breakOutsideLoop t.calls g []
      simp only [afterBody, resultOf, RunState.frames, hcalls trivial] at h
      cases h
      refine ⟨[g], ?_, ?_⟩
      · rw [EvalError.withTrace_fault]
        exact .escape hinv hadmits hescape
      · exact hinv.calls ▸ congrArg EvalError.trace htrace
    | normal => cases h
    | returned v => cases h

theorem of_callable {fuel : Nat} (hinv : Invoking p mode e s (.callable g) vs t)
    (hbody : Explains p mode (.block (p.func g).body) (exec p mode fuel (p.func g).body))
    (h : callFunc p (exec p mode fuel) g vs t = (.error (.error err), u)) :
    Arises p mode (.expr e) s err := by
  cases hsealed : (p.func g).isSealed with
  | false =>
    rw [callFunc, hsealed] at h
    cases h
    exact .here (.notSealed hinv hsealed)
  | true =>
    by_cases hcount : (p.func g).params.length = vs.length
    · exact of_body hinv ⟨hsealed, hcount⟩ hbody h
    · have hcheck : checkArgCount (p.funcName g) (p.func g).params vs.length =
          .error (.arityMismatch (p.funcName g) (p.func g).params.length vs.length) :=
        if_neg hcount
      rw [callFunc, hsealed, checkArgCount, if_neg hcount] at h
      cases h
      exact .here (.argCount hinv hsealed hcheck)

end Arises

section Explained

variable {fuel : Nat}

theorem evalAll_explained (heval : ∀ e, Explains p mode (.expr e) (eval p mode fuel e))
    (es : List ExprId) : Explains p mode (.args es) (evalAll (eval p mode fuel) es) := by
  induction es with
  | nil =>
    intro s err u h
    cases h
  | cons e es ih =>
    intro s err u h
    rcases Run.bind_eq_error h with h | ⟨v, t, hv, h⟩
    · exact (heval e s err u h).inside rfl .first
    · have hv := Settles.of_ok (eval_steady p mode e) hv
      rcases Run.bind_eq_error h with h | ⟨vs, t', -, h⟩
      · exact (ih t err u h).inside (hv.eval_calls trivial) (.later hv)
      · cases h

theorem evalExpr_explained (heval : ∀ e, Explains p mode (.expr e) (eval p mode fuel e))
    (hexec : ∀ b, Explains p mode (.block b) (exec p mode fuel b)) (e : ExprId) :
    Explains p mode (.expr e)
      (evalExpr p (eval p mode fuel) (exec p mode fuel) (p.expr e)) := by
  intro s err u h
  cases he : p.expr e with
  | literal v => rw [he] at h; cases h
  | var x =>
    rw [he, evalExpr, Run.lookup] at h
    cases hx : s.env.lookup x with
    | some v => rw [hx] at h; cases h
    | none =>
      rw [hx] at h
      cases h
      exact .here (.unbound he hx)
  | neg a =>
    rw [he] at h
    rcases Run.bind_eq_error h with h | ⟨v, t, hv, h⟩
    · exact (heval a s err u h).inside rfl (.operand he)
    · have hv := Settles.of_ok (eval_steady p mode a) hv
      cases hneg : v.negated with
      | ok w => rw [hneg] at h; cases h
      | error f =>
        rw [hneg] at h
        cases h
        exact .here (.negation he hv hneg)
  | invoke callee es =>
    rw [he] at h
    rcases Run.bind_eq_error h with h | ⟨vs, t, hvs, h⟩
    · exact (evalAll_explained heval es s err u h).inside rfl (.argument he)
    · have hinv : Invoking p mode e s callee vs t :=
        ⟨es, he, .of_ok (evalAll_steady p mode es) hvs⟩
      cases callee with
      | native n => exact .of_native hinv h
      | callable g => exact .of_callable hinv (hexec _) h

theorem test_explained (heval : ∀ e, Explains p mode (.expr e) (eval p mode fuel e)) {st : Stmt}
    {cond : ExprId} (hst : st.cond? = some cond) :
    Explains p mode (.stmt st) (test (eval p mode fuel) cond) := by
  intro s err u h
  rcases Run.bind_eq_error h with h | ⟨v, t, hv, h⟩
  · refine (heval cond s err u h).inside rfl (.operandOf ?_)
    cases st with
    | ifThen | whileLoop => cases hst; exact List.mem_singleton_self _
    | expr | assign | breakLoop | returnValue | funcDef => cases hst
  · have hv := Settles.of_ok (eval_steady p mode cond) hv
    cases htruth : v.truth with
    | ok holds => rw [htruth] at h; cases h
    | error f =>
      rw [htruth] at h
      cases h
      exact .here (.condition hst hv htruth)

theorem stmt_explained (heval : ∀ e, Explains p mode (.expr e) (eval p mode fuel e))
    (hexec : ∀ b, Explains p mode (.block b) (exec p mode fuel b))
    (hloop : ∀ cond b, Explains p mode (.stmt (.whileLoop cond b)) (loop p mode fuel cond b))
    (st : Stmt) : Explains p mode (.stmt st) (stmt p mode fuel st) := by
  intro s err u h
  cases st with
  | expr e =>
    rcases Run.bind_eq_error h with h | ⟨v, t, -, h⟩
    · exact (heval e s err u h).inside rfl (.operandOf (List.mem_singleton_self e))
    · cases h
  | assign x e =>
    rcases Run.bind_eq_error h with h | ⟨v, t, -, h⟩
    · exact (heval e s err u h).inside rfl (.operandOf (List.mem_singleton_self e))
    · cases h
  | ifThen cond b =>
    rcases Run.bind_eq_error h with h | ⟨holds, t, htest, h⟩
    · exact test_explained heval rfl s err u h
    · have htest := Settles.of_ok (test_steady p mode cond) htest
      cases holds with
      | false => cases h
      | true => exact (hexec b t err u h).inside htest.test_calls (.thenBlock htest)
  | whileLoop cond b => exact hloop cond b s err u h
  | returnValue v =>
    cases v with
    | none => cases h
    | some e =>
      rcases Run.bind_eq_error h with h | ⟨v, t, -, h⟩
      · exact (heval e s err u h).inside rfl (.operandOf (List.mem_singleton_self e))
      · cases h
  | breakLoop => cases h
  | funcDef g => cases h

theorem execAll_explained (hstmt : ∀ st, Explains p mode (.stmt st) (stmt p mode fuel st))
    (sts : List Stmt) : Explains p mode (.stmts sts) (execAll (stmt p mode fuel) sts) := by
  induction sts with
  | nil =>
    intro s err u h
    cases h
  | cons st sts ih =>
    intro s err u h
    rcases Run.bind_eq_error h with h | ⟨flow, t, hst, h⟩
    · exact (hstmt st s err u h).inside rfl .here
    · have hst := Settles.of_ok (stmt_steady p mode st) hst
      cases flow with
      | normal => exact (ih t err u h).inside hst.stmt_calls (.after hst)
      | breakLoop => cases h
      | returned v => cases h

/-- An iteration that fails is explained by the body of the loop, in the state in which the body
starts. -/
theorem iteration_explained {b : BlockId} {err : EvalError}
    (hexec : Explains p mode (.block b) (exec p mode fuel b))
    (h : iteration mode (exec p mode fuel b) s = (.error (.error err), u)) :
    Arises p mode (.block b) (s.iterating mode) err := by
  cases mode with
  | shared => exact hexec s err u h
  | perIteration =>
    rcases hbody : exec p .perIteration fuel b s.opened with ⟨r, w⟩
    rw [iteration, Run.inScope_block_apply, hbody] at h
    cases h
    exact hexec s.opened err w hbody

/-- **A run that fails, fails with a fault that arises in it**, by induction on the fuel. -/
theorem all_explained (p : Program R H) (mode : LoopScope) (fuel : Nat) :
    (∀ e, Explains p mode (.expr e) (eval p mode fuel e)) ∧
      (∀ b, Explains p mode (.block b) (exec p mode fuel b)) ∧
      ∀ cond b, Explains p mode (.stmt (.whileLoop cond b)) (loop p mode fuel cond b) := by
  induction fuel with
  | zero =>
    -- out of fuel, which is no error
    refine ⟨fun e s err u h => ?_, fun b s err u h => ?_, fun cond b s err u h => ?_⟩
    · cases h
    · cases h
    · cases h
  | succ fuel ih =>
    obtain ⟨heval, hexec, hloop⟩ := ih
    refine ⟨fun e => ?_, fun b s err u h => ?_, fun cond b s err u h => ?_⟩
    · exact evalExpr_explained heval hexec e
    · have hall := execAll_explained (stmt_explained heval hexec hloop) (p.block b)
      exact (hall s err u h).inside rfl .statements
    · rw [loop] at h
      rcases Run.bind_eq_error h with h | ⟨holds, t, htest, h⟩
      · exact test_explained heval rfl s err u h
      · have htest := Settles.of_ok (test_steady p mode cond) htest
        cases holds with
        | false => cases h
        | true =>
          rcases Run.bind_eq_error h with h | ⟨flow, w, hiter, h⟩
          · refine (iteration_explained (hexec b) h).inside ?_ (.loopBody htest)
            rw [RunState.iterating_calls, htest.test_calls]
          · have hiter := Settles.of_ok (iteration_steady p mode b) hiter
            cases flow with
            | normal =>
              refine (hloop cond b w err u h).inside ?_ (.loopAgain htest hiter)
              rw [hiter.iteration_calls, htest.test_calls]
            | breakLoop => cases h
            | returned v => cases h

theorem run_explained (p : Program R H) (mode : LoopScope) (fuel : Nat) (root : BlockId) :
    Explains p mode (.program root) (run p mode fuel root) := by
  intro s err u h
  rcases Run.bind_eq_error h with h | ⟨flow, t, hroot, h⟩
  · exact ((all_explained p mode fuel).2.1 root s err u h).inside rfl .root
  · have hroot := Settles.of_ok (exec_steady p mode root) hroot
    cases flow with
    | normal => cases h
    | breakLoop => cases h; exact .here (.strayBreak hroot)
    | returned v => cases h; exact .here (.strayReturn hroot)

end Explained

/-- **A trace has the names of the functions in whose bodies the error arose**, from the outermost
to the innermost, and no others. A run that starts outside of all functions fails with a fault
that arises in it; the trace of the error has the names of the functions whose bodies were entered
and not left at that point, and none if there are none. Nothing else arises in the run. -/
theorem trace_names_active_calls (p : Program R H) (mode : LoopScope) {fuel : Nat} {root : BlockId}
    {s t : RunState R H} {e : EvalError} (hs : s.calls = [])
    (hrun : run p mode fuel root s = (.error (.error e), t)) :
    ∃ path, Raises p mode (.program root) s e.fault path ∧ e.trace = path.map p.funcName ∧
      (e.trace = [] ↔ path = []) ∧
      ∀ f path', Raises p mode (.program root) s f path' →
        f = e.fault ∧ path'.map p.funcName = e.trace := by
  obtain ⟨path, hraises, htrace⟩ := run_explained p mode fuel root s e t hrun
  rw [hs, p.traceOf_nil] at htrace
  refine ⟨path, hraises, htrace, by rw [htrace, List.map_eq_nil_iff], fun f path' h => ?_⟩
  obtain ⟨u, hfails⟩ := fails_of_raises h
  have hsettles := Settles.of_error (run_steady p mode root) hrun
  obtain ⟨heq, -⟩ := Settles.unique hfails hsettles
  cases heq
  exact ⟨rfl, by rw [hs, p.traceOf_nil]⟩

/-- A function that calls itself as long as a native says so, and then breaks out of no loop. -/
def breakAfterCalls : BlockId × Program Float Nat :=
  let build : Build Float Nat BlockId := do
    let more ← Build.native
      ⟨"more", .fixed 0, fun _ count => (.value (.bool (count < 2)), count + 1)⟩
    let f ← Build.func "f" []
    let again ← Build.apply f []
    let inner ← Build.block
    Build.push inner (.expr again)
    let cond ← Build.call more []
    Build.pushBody f (.ifThen cond inner)
    Build.pushBody f .breakLoop
    let definition ← Build.sealFunc f
    let root ← Build.block
    Build.push root definition
    Build.push root (.expr again)
    return root
  build.run Program.empty

/-- The break leaves the innermost of three bodies of the same function. -/
theorem trace_names_active_calls_recursion :
    ∃ t, run breakAfterCalls.2 .shared 12 breakAfterCalls.1 (.fresh 0) =
        (.error (.error ⟨.breakOutsideLoop, ["f", "f", "f"]⟩), t) ∧
      ∃ path, Raises breakAfterCalls.2 .shared (.program breakAfterCalls.1) (.fresh 0)
          .breakOutsideLoop path ∧
        path.map breakAfterCalls.2.funcName = ["f", "f", "f"] := by
  have hending : ending (run breakAfterCalls.2 .shared 12 breakAfterCalls.1 (.fresh 0)).1 =
      some (.error ⟨.breakOutsideLoop, ["f", "f", "f"]⟩) := by
    decide +kernel
  rcases hrun : run breakAfterCalls.2 .shared 12 breakAfterCalls.1 (.fresh 0) with ⟨r, t⟩
  rw [hrun] at hending
  obtain rfl := ending_eq_some.1 hending
  obtain ⟨path, hraises, htrace, -, -⟩ := trace_names_active_calls _ _ rfl hrun
  exact ⟨t, rfl, path, hraises, htrace.symm⟩

end StagedGraph
