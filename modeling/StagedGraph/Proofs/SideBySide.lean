import StagedGraph.Proofs.RunLaws

/-!
# Two runs side by side

Two runs of one program may differ in how their loops are executed, or in how much fuel they
have, and still do the same. `Run.Tracks` says that a step does what another step does, from a
state that is related to the state of the other. `SideBySide p counts P inner` lists what has to
be checked of the relation `P`: that it is kept by the few things that a single step can do. From
that, expressions and statements track one another if their operands and blocks do.

The relation has an index, which says where the two runs are; a call takes it to `inner` of it.
Some endings do not count: where the first run ends like that, the second may do as it pleases.
-/

namespace StagedGraph

variable {R H α β ι : Type}

namespace Run

/-- From related states, the second step ends as the first does, and in a related state, if the
way in which the first ends counts. -/
def Tracks (counts : Option Stop → Prop) (P : RunState R H → RunState R H → Prop)
    (x y : Run R H α) : Prop :=
  ∀ s t, P s t → counts (ending (x s).1) → (y t).1 = (x s).1 ∧ P (x s).2 (y t).2

end Run

/-- A relation between the states of two runs that is kept by what single steps do. -/
structure SideBySide (p : Program R H) (counts : Option Stop → Prop)
    (P : ι → RunState R H → RunState R H → Prop) (inner : ι → ι) : Prop where
  counts_result : counts none
  /-- Whether an error counts has nothing to do with its trace. -/
  counts_fault : ∀ {e : EvalError} {trace}, counts (some (.error (e.withTrace trace))) →
    counts (some (.error e))
  lookup : ∀ {i s t} x, P i s t → counts (ending (Run.lookup p x s).1) →
    t.env.lookup x = s.env.lookup x
  host : ∀ {i s t}, P i s t → t.host = s.host
  calls : ∀ {i s t}, P i s t → t.calls = s.calls
  called : ∀ {i s t} n args, P i s t → P i (s.called p n args) (t.called p n args)
  assigned : ∀ {i s t} x v, P i s t → P i (s.assigned x v) (t.assigned x v)
  entered : ∀ {i s t} f args, P i s t → P (inner i) (s.entered p f args) (t.entered p f args)
  left : ∀ {i s t}, P (inner i) s t → P i s.left t.left
  closed : ∀ {i s t}, P (inner i) s t → P i s.closed t.closed

namespace SideBySide

open Interpreter Run

variable {p : Program R H} {counts : Option Stop → Prop}
  {P : ι → RunState R H → RunState R H → Prop} {inner : ι → ι} {i : ι}
  {eval eval' : ExprId → Run R H (Value R)} {exec exec' : BlockId → Run R H (Flow R)}
  {loop loop' : ExprId → BlockId → Run R H (Flow R)} {step step' : Stmt → Run R H (Flow R)}

/-! ### Steps -/

theorem pure (a : α) : Tracks counts (P i) (Pure.pure a : Run R H α) (Pure.pure a) :=
  fun _ _ hst _ => ⟨rfl, hst⟩

theorem stop (why : Stop) : Tracks counts (P i) (Run.stop why : Run R H α) (Run.stop why) :=
  fun _ _ hst _ => ⟨rfl, hst⟩

theorem ofExcept (x : Except Fault α) :
    Tracks counts (P i) (Run.ofExcept x : Run R H α) (Run.ofExcept x) := by
  cases x with
  | ok a => exact pure a
  | error f => exact stop _

theorem bind (h : SideBySide p counts P inner) {x y : Run R H α} {f g : α → Run R H β}
    (hxy : Tracks counts (P i) x y) (hfg : ∀ a, Tracks counts (P i) (f a) (g a)) :
    Tracks counts (P i) (x >>= f) (y >>= g) := by
  intro s t hst hcounts
  have hs := hxy s t hst
  rw [bind_apply] at hcounts ⊢
  rw [bind_apply]
  rcases hx : x s with ⟨why | a, s'⟩
  all_goals rw [hx] at hs hcounts
  · obtain ⟨hr, ht⟩ := hs hcounts
    rcases hy : y t with ⟨r, t'⟩
    rw [hy] at hr ht
    cases hr
    exact ⟨rfl, ht⟩
  · obtain ⟨hr, ht⟩ := hs h.counts_result
    rcases hy : y t with ⟨r, t'⟩
    rw [hy] at hr ht
    cases hr
    exact hfg a s' t' ht hcounts

theorem lookupStep (h : SideBySide p counts P inner) (x : Name) :
    Tracks counts (P i) (Run.lookup p x) (Run.lookup p x) := by
  intro s t hst hcounts
  have hlookup := h.lookup x hst hcounts
  unfold Run.lookup
  rw [hlookup]
  cases s.env.lookup x <;> exact ⟨rfl, hst⟩

/-! ### Expressions -/

theorem evalAll (h : SideBySide p counts P inner) (heval : ∀ e, Tracks counts (P i) (eval e) (eval' e))
    (es : List ExprId) :
    Tracks counts (P i) (Interpreter.evalAll eval es) (Interpreter.evalAll eval' es) := by
  induction es with
  | nil => exact pure []
  | cons e es ih => exact h.bind (heval e) fun v => h.bind ih fun vs => pure (v :: vs)

theorem callNative (h : SideBySide p counts P inner) (n : NativeId) (args : List (Value R)) :
    Tracks counts (P i) (Interpreter.callNative p n args) (Interpreter.callNative p n args) := by
  intro s t hst _
  cases harity : checkArity (p.native n).name (p.native n).arity args.length with
  | ok _ =>
    rw [callNative_apply harity, callNative_apply harity, h.host hst]
    exact ⟨rfl, h.called n args hst⟩
  | error f =>
    rw [Interpreter.callNative, harity]
    exact ⟨rfl, hst⟩

/-- A call does the same if the body does, one call further in. -/
theorem callFunc (h : SideBySide p counts P inner) (f : FuncId)
    (hbody : Tracks counts (P (inner i)) (exec (p.func f).body) (exec' (p.func f).body))
    (args : List (Value R)) :
    Tracks counts (P i) (Interpreter.callFunc p exec f args) (Interpreter.callFunc p exec' f args) := by
  refine h.bind (ofExcept _) fun _ => h.bind (ofExcept _) fun _ s t hst hcounts => ?_
  have hs := hbody _ _ (h.entered f args hst)
  rw [inCall_body_apply] at hcounts ⊢
  rw [inCall_body_apply]
  generalize exec (p.func f).body (s.entered p f args) = x at hs hcounts
  generalize exec' (p.func f).body (t.entered p f args) = y at hs
  obtain ⟨r, s'⟩ := x
  obtain ⟨r', t'⟩ := y
  -- an ending of the call that counts is one of the body that counts
  have hr : counts (ending r) := by
    rcases r with (e | _ | _) | flow
    · exact h.counts_fault hcounts
    · exact hcounts
    · exact hcounts
    · exact h.counts_result
  obtain ⟨rfl, hst'⟩ := hs hr
  have hframes : t'.frames p = s'.frames p := by rw [RunState.frames, RunState.frames, h.calls hst']
  rcases r' with (e | _ | _) | flow
  · exact ⟨by rw [afterBody, afterBody, hframes], h.left hst'⟩
  · exact ⟨rfl, h.closed hst'⟩
  · exact ⟨rfl, h.closed hst'⟩
  · cases flow with
    | normal => exact ⟨rfl, h.left hst'⟩
    | breakLoop => exact ⟨by simp only [afterBody, resultOf, hframes], h.left hst'⟩
    | returned v => exact ⟨rfl, h.left hst'⟩

variable [Scalar R]

theorem evalExpr (h : SideBySide p counts P inner)
    (heval : ∀ e, Tracks counts (P i) (eval e) (eval' e))
    (hbody : ∀ f, Tracks counts (P (inner i)) (exec (p.func f).body) (exec' (p.func f).body))
    (e : Expr R) :
    Tracks counts (P i) (Interpreter.evalExpr p eval exec e) (Interpreter.evalExpr p eval' exec' e) := by
  cases e with
  | literal v => exact pure v
  | var x => exact h.lookupStep x
  | neg e => exact h.bind (heval e) fun v => ofExcept _
  | invoke callee args =>
    refine h.bind (h.evalAll heval args) fun vs => ?_
    cases callee with
    | native n => exact h.callNative n vs
    | callable f => exact h.callFunc f (hbody f) vs

theorem test (h : SideBySide p counts P inner) (heval : ∀ e, Tracks counts (P i) (eval e) (eval' e))
    (cond : ExprId) :
    Tracks counts (P i) (Interpreter.test eval cond) (Interpreter.test eval' cond) :=
  h.bind (heval cond) fun _ => ofExcept _

/-! ### Statements -/

omit [Scalar R] in
theorem execAll (h : SideBySide p counts P inner) {ss : List Stmt}
    (hstep : ∀ st ∈ ss, Tracks counts (P i) (step st) (step' st)) :
    Tracks counts (P i) (Interpreter.execAll step ss) (Interpreter.execAll step' ss) := by
  induction ss with
  | nil => exact pure _
  | cons st ss ih =>
    obtain ⟨hst, hss⟩ := List.forall_mem_cons.1 hstep
    refine h.bind hst fun flow => ?_
    cases flow with
    | normal => exact ih hss
    | breakLoop => exact pure _
    | returned v => exact pure _

theorem execStmt (h : SideBySide p counts P inner)
    (heval : ∀ e, Tracks counts (P i) (eval e) (eval' e)) {st : Stmt}
    (hexec : ∀ cond b, st = .ifThen cond b → Tracks counts (P i) (exec b) (exec' b))
    (hloop : ∀ cond b, st = .whileLoop cond b → Tracks counts (P i) (loop cond b) (loop' cond b)) :
    Tracks counts (P i) (Interpreter.execStmt eval exec loop st)
      (Interpreter.execStmt eval' exec' loop' st) := by
  cases st with
  | expr e => exact h.bind (heval e) fun _ => pure _
  | assign x e =>
    exact h.bind (heval e) fun v => h.bind (fun s t hst _ => ⟨rfl, h.assigned x v hst⟩) fun _ => pure _
  | ifThen cond b =>
    refine h.bind (h.test heval cond) fun holds => ?_
    cases holds with
    | true => exact hexec cond b rfl
    | false => exact pure _
  | whileLoop cond b => exact hloop cond b rfl
  | breakLoop => exact pure _
  | returnValue e =>
    cases e with
    | none => exact pure _
    | some e => exact h.bind (heval e) fun v => pure _
  | funcDef f => exact pure _

end SideBySide

end StagedGraph
