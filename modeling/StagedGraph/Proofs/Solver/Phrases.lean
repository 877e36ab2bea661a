import StagedGraph.Proofs.Levels
import StagedGraph.Proofs.OperatorCalls
import StagedGraph.Proofs.Solver.Direct
import StagedGraph.Proofs.Solver.Operands
import StagedGraph.Proofs.Solver.StagedText

/-!
# The phrases of the staged program

What the calls in the text of the staged program evaluate to: the kernels, on buffers whose
lengths agree; the operators, on the numbers and counts that the program has; and the
function that applies the operator.
-/

namespace StagedGraph

variable {R : Type} [Scalar R]

/-! ### Kernels -/

namespace Kernel

omit [Scalar R] in
theorem native_op (name : String) (arity : Nat)
    (kernel : List (Value R) → Step R (Value R)) (args : List (Value R)) (h : Heap R) :
    (native name arity kernel).op args h = outcome (kernel args h) := rfl

theorem axpy_buffers {h : Heap R} {ans a b : BufferId} (k : R) (ha : h.length ans = h.length a)
    (hb : h.length ans = h.length b) :
    axpy [.buffer ans, .buffer a, .float k, .buffer b] h = .ok .void (h.axpy ans a k b) :=
  axpy_eq_ok_iff.2 ⟨ans, a, k, b, ⟨rfl, rfl, rfl, rfl, ha, hb⟩, rfl, rfl⟩

theorem dot_buffers {h : Heap R} {a b : BufferId} (hb : h.length a = h.length b) :
    dot [.buffer a, .buffer b] h = .ok (.float (h.dot a b)) h :=
  dot_eq_ok_iff.2 ⟨a, b, ⟨rfl, rfl, hb⟩, rfl, rfl⟩

omit [Scalar R] in
theorem copy_buffers {h : Heap R} {dst src : BufferId} (hs : h.length dst = h.length src) :
    copy [.buffer dst, .buffer src] h = .ok .void (h.copy dst src) :=
  copy_eq_ok_iff.2 ⟨dst, src, ⟨rfl, rfl, hs⟩, rfl, rfl⟩

omit [Scalar R] in
theorem matvec_buffers {op : LinearOperator R} (hdim : 0 < op.dim) {h : Heap R} {out x : BufferId}
    (hx : h.length x = op.dim) (hout : h.length out = op.dim) :
    matvec op [.buffer out, .buffer x] h = .ok .void (h.matvec op out x) := by
  obtain ⟨y, hy, -⟩ := op.apply_some (h.read x) hdim hx
  rw [Heap.matvec, hy]
  exact matvec_eq_ok_iff.2 ⟨out, x, y, ⟨rfl, rfl, hx.symm, hout.symm⟩, hy, rfl, rfl⟩

end Kernel

/-! ### Operators -/

namespace Operator

theorem eval_mul_numbers (x y : R) : mul.eval [.float x, .float y] = .ok (.float (x * y)) := rfl

theorem eval_le_numbers (x y : R) :
    le.eval [.float x, .float y] = .ok (.bool (Solver.atMost x y)) := rfl

theorem eval_gt_numbers (x y : R) :
    gt.eval [.float x, .float y] = .ok (.bool ((Scalar.compare? x y).any Ordering.isGT)) := rfl

theorem eval_div_numbers (x : R) {y : R} (h : Scalar.isZero y = false) :
    div.eval [.float x, .float y] = .ok (.float (x / y)) := by
  change (if Scalar.isZero y then _ else _) = _
  rw [h]
  rfl

theorem eval_div_zero (x : R) {y : R} (h : Scalar.isZero y = true) :
    div.eval [.float x, .float y] = .error "division by zero" := by
  change (if Scalar.isZero y then _ else _) = _
  rw [h]
  rfl

end Operator

/-! ### Calls -/

namespace Solver

/-- The event is a call of a native with this name. -/
def isCallOf {H : Type} (p : Program R H) (name : String) : Event R → Bool
  | .called n _ _ => (p.native n).name == name
  | .assigned _ _ => false

/-- Why a run stops that divides by zero. -/
def divisionByZero : Stop := .error (.ofFault (.native "div" "division by zero"))

/-- A program whose words have their meaning, an operator of positive dimension, and buffers
that include those of the workspace. -/
structure Setting (p : Program R (Heap R)) (op : LinearOperator R) (w : Workspace)
    (bs : List BufferId) : Prop where
  meant : Meant p op w
  dim_pos : 0 < op.dim
  uses : ∀ b ∈ w.all, b ∈ bs

namespace Setting

variable {p : Program R (Heap R)} {op : LinearOperator R} {w : Workspace} {bs : List BufferId}

theorem rhs_mem (hs : Setting p op w bs) : w.rhs ∈ bs := hs.uses _ (by simp [Workspace.all])

theorem solution_mem (hs : Setting p op w bs) : w.solution ∈ bs :=
  hs.uses _ (by simp [Workspace.all])

theorem residual_mem (hs : Setting p op w bs) : w.residual ∈ bs :=
  hs.uses _ (by simp [Workspace.all])

theorem direction_mem (hs : Setting p op w bs) : w.direction ∈ bs :=
  hs.uses _ (by simp [Workspace.all])

theorem product_mem (hs : Setting p op w bs) : w.product ∈ bs :=
  hs.uses _ (by simp [Workspace.all])

end Setting

section Calls

variable {p : Program R (Heap R)} {op : LinearOperator R} {w : Workspace} {bs : List BufferId}
  {mode : LoopScope} {s t : RunState R (Heap R)} {terms : List (Term R)} {vs : List (Value R)}
  {ans a b : BufferId}

omit [Scalar R] in
theorem isCallOf_assigned (x : Name) (v : Value R) (name : String) :
    isCallOf p name (.assigned x v) = false := rfl

omit [Scalar R] in
theorem isCallOf_kernel {n : NativeId} {name : String} {arity : Nat}
    {kernel : List (Value R) → Kernel.Step R (Value R)}
    (hn : p.native n = Kernel.native name arity kernel) (other : String) (outcome : NativeOutcome R) :
    isCallOf p other (.called n vs outcome) = (name == other) := by
  rw [isCallOf, hn, Kernel.native]

theorem isCallOf_operator (hp : Meant p op w) (o : Operator) (other : String)
    (outcome : NativeOutcome R) :
    isCallOf p other (.called (Text.native o) vs outcome) = (o.name == other) := by
  rw [isCallOf, hp.operators, Operator.native, Native.pure]

/-- A kernel that does not refuse its arguments. -/
theorem evaluates_kernel {n : NativeId} {name : String} {arity : Nat} {v : Value R} {h : Heap R}
    {kernel : List (Value R) → Kernel.Step R (Value R)}
    (hn : p.native n = Kernel.native name arity kernel) (hargs : EvaluatesAll p mode terms s vs t)
    (harity : vs.length = arity) (hk : kernel vs t.host = .ok v h) :
    Evaluates p mode (Text.call n terms) s (.ok v)
      { t with host := h, history := .called n vs (.value v) :: t.history } := by
  have haccepts : (p.native n).arity.accepts vs.length = true := by
    rw [hn]
    exact beq_iff_eq.2 harity.symm
  have hop : (p.native n).op vs t.host = (.value v, h) := by
    rw [hn, Kernel.native_op, hk]
    rfl
  exact Evaluates.native hargs haccepts hop

theorem evaluates_axpy (hs : Setting p op w bs) {k : R}
    (hargs : EvaluatesAll p mode terms s [.buffer ans, .buffer a, .float k, .buffer b] t)
    (hfits : t.host.Fits op.dim bs) (hans : ans ∈ bs) (ha : a ∈ bs) (hb : b ∈ bs) :
    Evaluates p mode (Text.call Text.axpy terms) s (.ok .void)
      { t with
        host := t.host.axpy ans a k b
        history := .called Text.axpy [.buffer ans, .buffer a, .float k, .buffer b] (.value .void) ::
          t.history } :=
  evaluates_kernel hs.meant.axpy hargs rfl
    (Kernel.axpy_buffers k (hfits.same hans ha) (hfits.same hans hb))

theorem evaluates_dot (hs : Setting p op w bs)
    (hargs : EvaluatesAll p mode terms s [.buffer a, .buffer b] t)
    (hfits : t.host.Fits op.dim bs) (ha : a ∈ bs) (hb : b ∈ bs) :
    Evaluates p mode (Text.call Text.dot terms) s (.ok (.float (t.host.dot a b)))
      { t with
        history := .called Text.dot [.buffer a, .buffer b] (.value (.float (t.host.dot a b))) ::
          t.history } :=
  evaluates_kernel hs.meant.dot hargs rfl (Kernel.dot_buffers (hfits.same ha hb))

theorem evaluates_copy (hs : Setting p op w bs)
    (hargs : EvaluatesAll p mode terms s [.buffer a, .buffer b] t)
    (hfits : t.host.Fits op.dim bs) (ha : a ∈ bs) (hb : b ∈ bs) :
    Evaluates p mode (Text.call Text.copy terms) s (.ok .void)
      { t with
        host := t.host.copy a b
        history := .called Text.copy [.buffer a, .buffer b] (.value .void) :: t.history } :=
  evaluates_kernel hs.meant.copy hargs rfl (Kernel.copy_buffers (hfits.same ha hb))

/-- The argument of the function that applies the operator is bound in its body. -/
theorem lookup_entered (hp : Meant p op w) (t : RunState R (Heap R)) (a : BufferId) :
    (t.entered p Text.mul [.buffer a]).env.lookup Text.x = some (.buffer a) := by
  rw [RunState.entered, hp.mul_params, Environment.lookup_eq, Environment.levels_bind]
  simp [Level.define, Level.insert, Level.lookup, NameMap.find?_insert]

/-- The function that applies the operator writes the product and returns its buffer. -/
theorem evaluates_product (hs : Setting p op w bs) {term : Term R}
    (hterm : Evaluates p mode term s (.ok (.buffer a)) t) (hfits : t.host.Fits op.dim bs)
    (ha : a ∈ bs) :
    Evaluates p mode (Text.product term) s (.ok (.buffer w.product))
      { t with
        host := t.host.matvec op w.product a
        history := .called Text.matvec [.buffer w.product, .buffer a] (.value .void) ::
          t.history } := by
  have hp := hs.meant
  have hmatvec : Evaluates p mode _ _ _ _ := evaluates_kernel hp.matvec
    (.cons (.literal (.buffer w.product)) (.cons (.var (lookup_entered hp t a)) .nil)) rfl
    (Kernel.matvec_buffers hs.dim_pos (hfits a ha) (hfits w.product hs.product_mem))
  have hbody : ExecutesAll p mode (Text.mulBody w) _ _ _ :=
    .cons (.expr hmatvec) (.last (.returnValue (.literal (.buffer w.product))) (by simp))
  have h := Evaluates.call (.cons hterm .nil) hp.mul_sealed (by rw [hp.mul_params]; rfl) hp.mul_body
    hbody
  simpa [Text.product, Interpreter.afterBody, Interpreter.resultOf, RunState.left,
    RunState.entered, Environment.pop_bind_push] using h

/-- An operator that has a result. -/
theorem evaluates_operator (hp : Meant p op w) {o : Operator} {v : Value R}
    (hargs : EvaluatesAll p mode terms s vs t) (harity : vs.length = 2) (ho : o.eval vs = .ok v) :
    Evaluates p mode (Text.call (Text.native o) terms) s (.ok v)
      { t with history := .called (Text.native o) vs (.value v) :: t.history } :=
  Evaluates.operator (hp.operators o) hargs harity ho

/-- A division by zero. -/
theorem evaluates_div_zero (hp : Meant p op w) {x y : R}
    (hargs : EvaluatesAll p mode terms s [.float x, .float y] t) (hy : Scalar.isZero y = true) :
    Evaluates p mode (Text.call (Text.native .div) terms) s (.error divisionByZero)
      { t with
        history := .called (Text.native .div) [.float x, .float y] (.failed "division by zero") ::
          t.history } :=
  Evaluates.operator_error (hp.operators .div) hargs rfl (Operator.eval_div_zero x hy)

end Calls

end Solver

end StagedGraph
