import StagedGraph.Solver.Kernels

/-!
# What the kernels ask for

A kernel checks its arguments one after another. It succeeds exactly if all checks do, and so it
can be said of each kernel which arguments it takes (`AxpyOperands`, `PairOperands`,
`MatvecOperands`) and what it yields for them (`axpy_eq_ok_iff` and those after it). That two
buffers are different is not asked for. What is written has the length of the buffer that it is
written to; for a product, that is a property of the operator (`LinearOperator.Fills`).

What a kernel refuses, it refuses before it writes (`RefusesFirst`): all its steps but the last
only look at the buffers (`Looks`). It refuses with a message; only the operator of a product may
abort (`matvec_eq_aborted_iff`).
-/

namespace StagedGraph

variable {R α β : Type}

namespace LinearOperator

/-- What the operator yields for a vector of its dimension has that dimension too: an operator is
given a place for so many entries, and it cannot make the place longer. -/
def Fills (op : LinearOperator R) : Prop :=
  ∀ x y, x.length = op.dim → op.apply x = some y → y.length = op.dim

theorem Fills.of_dim_pos {op : LinearOperator R} (hdim : 0 < op.dim) : op.Fills := by
  intro x y hx hy
  obtain ⟨z, hz, hlength⟩ := op.apply_some x hdim hx
  obtain rfl := Option.some.inj (hy.symm.trans hz)
  exact hlength

end LinearOperator

theorem DenseMatrix.toOperator_fills [Scalar R] (m : DenseMatrix R) : m.toOperator.Fills := by
  rcases Nat.eq_zero_or_pos m.dim with hdim | hdim
  · intro x y _ hy
    have hnone : m.toOperator.apply x = none := if_pos hdim
    rw [hnone] at hy
    cases hy
  · exact LinearOperator.Fills.of_dim_pos hdim

namespace Kernel

variable {kernel : String} {args : List (Value R)} {i m n : Nat} {b : BufferId} {h h' : Heap R}

/-! ### Steps -/

theorem bind_apply_ok {x : Step R α} {f : α → Step R β} {a : α} (hx : x h = .ok a h') :
    (x >>= f) h = f a h' := by
  simp only [bind, EStateM.bind, hx]

theorem bind_apply_error {x : Step R α} {f : α → Step R β} {refusal : Refusal}
    (hx : x h = .error refusal h') : (x >>= f) h = .error refusal h' := by
  simp only [bind, EStateM.bind, hx]

theorem bind_eq_ok_iff {x : Step R α} {f : α → Step R β} {v : β} :
    (x >>= f) h = .ok v h' ↔ ∃ a h₁, x h = .ok a h₁ ∧ f a h₁ = .ok v h' := by
  constructor
  · intro hv
    cases hx : x h with
    | error refusal h₁ =>
      rw [bind_apply_error hx] at hv
      cases hv
    | ok a h₁ =>
      rw [bind_apply_ok hx] at hv
      exact ⟨a, h₁, rfl, hv⟩
  · rintro ⟨a, h₁, hx, hf⟩
    exact (bind_apply_ok hx).trans hf

theorem bind_eq_error_iff {x : Step R α} {f : α → Step R β} {refusal : Refusal} :
    (x >>= f) h = .error refusal h' ↔
      x h = .error refusal h' ∨ ∃ a h₁, x h = .ok a h₁ ∧ f a h₁ = .error refusal h' := by
  constructor
  · intro hv
    cases hx : x h with
    | error refusal' h₁ =>
      rw [bind_apply_error hx] at hv
      cases hv
      exact .inl rfl
    | ok a h₁ =>
      rw [bind_apply_ok hx] at hv
      exact .inr ⟨a, h₁, rfl, hv⟩
  · rintro (hx | ⟨a, h₁, hx, hf⟩)
    · exact bind_apply_error hx
    · exact (bind_apply_ok hx).trans hf

theorem pure_eq_ok_iff {a v : α} : (pure a : Step R α) h = .ok v h' ↔ v = a ∧ h' = h := by
  constructor
  · rintro ⟨⟩
    exact ⟨rfl, rfl⟩
  · rintro ⟨rfl, rfl⟩
    rfl

theorem length_eq_ok_iff : length b h = .ok n h' ↔ n = h.length b ∧ h' = h :=
  pure_eq_ok_iff

theorem read_eq_ok_iff {xs : List R} : read b h = .ok xs h' ↔ xs = h.read b ∧ h' = h :=
  pure_eq_ok_iff

theorem write_eq_ok_iff {xs : List R} {u : Unit} : write b xs h = .ok u h' ↔ h' = h.write b xs := by
  constructor
  · rintro ⟨⟩
    rfl
  · rintro rfl
    rfl

theorem bufferArg_eq_ok_iff :
    bufferArg kernel args i h = .ok b h' ↔ args[i]? = some (.buffer b) ∧ h' = h := by
  have hbuffer : args[i]? = some (.buffer b) ↔ args[i]?.bind Value.toBuffer? = some b := by
    cases args[i]? with
    | none => simp
    | some v => cases v <;> simp [Value.toBuffer?]
  rw [bufferArg, hbuffer]
  cases args[i]?.bind Value.toBuffer? with
  | none => exact ⟨nofun, nofun⟩
  | some c => rw [pure_eq_ok_iff, Option.some.injEq, eq_comm]

theorem scalarArg_eq_ok_iff [Scalar R] {k : R} :
    scalarArg kernel args i h = .ok k h' ↔ args[i]?.bind Value.toScalar? = some k ∧ h' = h := by
  rw [scalarArg]
  cases args[i]?.bind Value.toScalar? with
  | none => exact ⟨nofun, nofun⟩
  | some x => rw [pure_eq_ok_iff, Option.some.injEq, eq_comm]

theorem sameLength_eq_ok_iff {u : Unit} : sameLength kernel m n h = .ok u h' ↔ m = n ∧ h' = h := by
  rw [sameLength]
  split
  · next hmn => rw [pure_eq_ok_iff, and_iff_right rfl, and_iff_right hmn]
  · next hmn => exact ⟨nofun, fun hok => absurd hok.1 hmn⟩

/-! ### Operands -/

/-- What `axpy` asks for: two buffers, a number and a third buffer, and equal lengths. -/
structure AxpyOperands [Scalar R] (args : List (Value R)) (h : Heap R) (ans a : BufferId) (k : R)
    (b : BufferId) : Prop where
  output : args[0]? = some (.buffer ans)
  left : args[1]? = some (.buffer a)
  factor : args[2]?.bind Value.toScalar? = some k
  right : args[3]? = some (.buffer b)
  length_left : h.length ans = h.length a
  length_right : h.length ans = h.length b

/-- There are as many sums as there is place for. -/
theorem AxpyOperands.length_sum [Scalar R] {ans a b : BufferId} {k : R}
    (ho : AxpyOperands args h ans a k b) :
    (List.zipWith (fun x y => x + k * y) (h.read a) (h.read b)).length = h.length ans := by
  have hla : (h.read a).length = h.length ans := ho.length_left.symm
  have hlb : (h.read b).length = h.length ans := ho.length_right.symm
  rw [List.length_zipWith, hla, hlb, Nat.min_self]

/-- What `dot` and `copy` ask for: two buffers of the same length. -/
structure PairOperands (args : List (Value R)) (h : Heap R) (a b : BufferId) : Prop where
  first : args[0]? = some (.buffer a)
  second : args[1]? = some (.buffer b)
  length : h.length a = h.length b

/-- What `matvec` asks for: two buffers of the operator's dimension. -/
structure MatvecOperands (op : LinearOperator R) (args : List (Value R)) (h : Heap R)
    (out x : BufferId) : Prop where
  output : args[0]? = some (.buffer out)
  input : args[1]? = some (.buffer x)
  length_input : op.dim = h.length x
  length_output : op.dim = h.length out

/-- There are as many entries in the product as there is place for. -/
theorem MatvecOperands.length_product {op : LinearOperator R} {out x : BufferId} {y : List R}
    (ho : MatvecOperands op args h out x) (hfills : op.Fills) (hy : op.apply (h.read x) = some y) :
    y.length = h.length out :=
  (hfills _ y ho.length_input.symm hy).trans ho.length_output

theorem axpy_eq_ok_iff [Scalar R] {v : Value R} :
    axpy args h = .ok v h' ↔ ∃ ans a k b, AxpyOperands args h ans a k b ∧ v = .void ∧
      h' = h.write ans (List.zipWith (fun x y => x + k * y) (h.read a) (h.read b)) := by
  simp only [axpy, bind_eq_ok_iff, bufferArg_eq_ok_iff, scalarArg_eq_ok_iff, length_eq_ok_iff,
    sameLength_eq_ok_iff, read_eq_ok_iff, write_eq_ok_iff, pure_eq_ok_iff, and_assoc,
    exists_and_left, exists_eq_left, exists_const]
  constructor
  · rintro ⟨ans, hans, a, ha, k, hk, b, hb, hla, hlb, hr⟩
    exact ⟨ans, a, k, b, ⟨hans, ha, hk, hb, hla, hlb⟩, hr⟩
  · rintro ⟨ans, a, k, b, ho, hr⟩
    exact ⟨ans, ho.output, a, ho.left, k, ho.factor, b, ho.right, ho.length_left,
      ho.length_right, hr⟩

theorem dot_eq_ok_iff [Scalar R] {v : Value R} :
    dot args h = .ok v h' ↔ ∃ a b, PairOperands args h a b ∧
      v = .float (Scalar.dot (h.read a) (h.read b)) ∧ h' = h := by
  simp only [dot, bind_eq_ok_iff, bufferArg_eq_ok_iff, length_eq_ok_iff, sameLength_eq_ok_iff,
    read_eq_ok_iff, pure_eq_ok_iff, and_assoc, exists_and_left, exists_eq_left, exists_const]
  constructor
  · rintro ⟨a, ha, b, hb, hlength, hr⟩
    exact ⟨a, b, ⟨ha, hb, hlength⟩, hr⟩
  · rintro ⟨a, b, ho, hr⟩
    exact ⟨a, ho.first, b, ho.second, ho.length, hr⟩

theorem copy_eq_ok_iff {v : Value R} :
    copy args h = .ok v h' ↔ ∃ dst src, PairOperands args h dst src ∧ v = .void ∧
      h' = h.write dst (h.read src) := by
  simp only [copy, bind_eq_ok_iff, bufferArg_eq_ok_iff, length_eq_ok_iff, sameLength_eq_ok_iff,
    read_eq_ok_iff, write_eq_ok_iff, pure_eq_ok_iff, and_assoc, exists_and_left, exists_eq_left,
    exists_const]
  constructor
  · rintro ⟨dst, hdst, src, hsrc, hlength, hr⟩
    exact ⟨dst, src, ⟨hdst, hsrc, hlength⟩, hr⟩
  · rintro ⟨dst, src, ho, hr⟩
    exact ⟨dst, ho.first, src, ho.second, ho.length, hr⟩

theorem matvec_eq_ok_iff {op : LinearOperator R} {v : Value R} :
    matvec op args h = .ok v h' ↔ ∃ out x y, MatvecOperands op args h out x ∧
      op.apply (h.read x) = some y ∧ v = .void ∧ h' = h.write out y := by
  simp only [matvec, bind_eq_ok_iff, bufferArg_eq_ok_iff, length_eq_ok_iff, sameLength_eq_ok_iff,
    read_eq_ok_iff, and_assoc, exists_and_left, exists_eq_left, exists_const]
  constructor
  · rintro ⟨out, hout, x, hx, hlx, hlout, hr⟩
    cases hy : op.apply (h.read x) with
    | none =>
      rw [hy] at hr
      cases hr
    | some y =>
      rw [hy] at hr
      cases hr
      exact ⟨out, x, ⟨hout, hx, hlx, hlout⟩, y, hy, rfl, rfl⟩
  · rintro ⟨out, x, ho, y, hy, hr⟩
    refine ⟨out, ho.output, x, ho.input, ho.length_input, ho.length_output, ?_⟩
    obtain ⟨rfl, rfl⟩ := hr
    rw [hy]
    rfl

/-! ### Refusals -/

/-- A step that leaves the buffers as they are. -/
structure Looks (x : Step R α) : Prop where
  ok : ∀ {h a h'}, x h = .ok a h' → h' = h
  error : ∀ {h refusal h'}, x h = .error refusal h' → h' = h

/-- A step that has written nothing where it refuses. -/
def RefusesFirst (x : Step R α) : Prop :=
  ∀ {h refusal h'}, x h = .error refusal h' → h' = h

theorem pure_looks (a : α) : Looks (pure a : Step R α) where
  ok := by
    rintro _ _ _ ⟨⟩
    rfl
  error := nofun

theorem throw_looks (refusal : Refusal) : Looks (throw refusal : Step R α) where
  ok := nofun
  error := by
    rintro _ _ _ ⟨⟩
    rfl

theorem length_looks (b : BufferId) : Looks (length b : Step R Nat) where
  ok hok := (length_eq_ok_iff.1 hok).2
  error := nofun

theorem read_looks (b : BufferId) : Looks (read b : Step R (List R)) where
  ok hok := (read_eq_ok_iff.1 hok).2
  error := nofun

theorem bufferArg_looks (kernel : String) (args : List (Value R)) (i : Nat) :
    Looks (bufferArg kernel args i) := by
  rw [bufferArg]
  cases args[i]?.bind Value.toBuffer? with
  | none => exact throw_looks _
  | some b => exact pure_looks b

theorem scalarArg_looks [Scalar R] (kernel : String) (args : List (Value R)) (i : Nat) :
    Looks (scalarArg kernel args i) := by
  rw [scalarArg]
  cases args[i]?.bind Value.toScalar? with
  | none => exact throw_looks _
  | some x => exact pure_looks x

theorem sameLength_looks (kernel : String) (m n : Nat) :
    Looks (sameLength kernel m n : Step R Unit) := by
  rw [sameLength]
  split
  · exact pure_looks ()
  · exact throw_looks _

theorem Looks.refusesFirst {x : Step R α} (hx : Looks x) : RefusesFirst x := hx.error

/-- Looking at the buffers may come before a step that has written nothing where it refuses. -/
theorem Looks.bind {x : Step R α} {f : α → Step R β} (hx : Looks x)
    (hf : ∀ a, RefusesFirst (f a)) : RefusesFirst (x >>= f) := by
  intro h refusal h' hbind
  rcases bind_eq_error_iff.1 hbind with herror | ⟨a, h₁, hok, herror⟩
  · exact hx.error herror
  · rw [hf a herror, hx.ok hok]

theorem write_refusesFirst (b : BufferId) (xs : List R) (a : α) :
    RefusesFirst (write b xs >>= fun _ => (pure a : Step R α)) := nofun

theorem axpy_refusesFirst [Scalar R] (args : List (Value R)) : RefusesFirst (axpy args) :=
  (bufferArg_looks ..).bind fun ans => (bufferArg_looks ..).bind fun a =>
    (scalarArg_looks ..).bind fun _ => (bufferArg_looks ..).bind fun b =>
    (length_looks ans).bind fun _ => (length_looks a).bind fun _ =>
    (sameLength_looks ..).bind fun _ => (length_looks ans).bind fun _ =>
    (length_looks b).bind fun _ => (sameLength_looks ..).bind fun _ =>
    (read_looks a).bind fun _ => (read_looks b).bind fun _ => write_refusesFirst ans _ _

theorem dot_refusesFirst [Scalar R] (args : List (Value R)) : RefusesFirst (dot args) :=
  (bufferArg_looks ..).bind fun a => (bufferArg_looks ..).bind fun b =>
    (length_looks a).bind fun _ => (length_looks b).bind fun _ => (sameLength_looks ..).bind fun _ =>
    (read_looks a).bind fun _ => (read_looks b).bind fun _ => (pure_looks _).refusesFirst

theorem copy_refusesFirst (args : List (Value R)) : RefusesFirst (copy args) :=
  (bufferArg_looks ..).bind fun dst => (bufferArg_looks ..).bind fun src =>
    (length_looks dst).bind fun _ => (length_looks src).bind fun _ =>
    (sameLength_looks ..).bind fun _ => (read_looks src).bind fun _ => write_refusesFirst dst _ _

theorem matvec_refusesFirst (op : LinearOperator R) (args : List (Value R)) :
    RefusesFirst (matvec op args) := by
  refine (bufferArg_looks ..).bind fun out => (bufferArg_looks ..).bind fun x =>
    (length_looks x).bind fun _ => (sameLength_looks ..).bind fun _ =>
    (length_looks out).bind fun _ => (sameLength_looks ..).bind fun _ =>
    (read_looks x).bind fun xs => ?_
  cases op.apply xs with
  | none => exact (throw_looks _).refusesFirst
  | some y => exact write_refusesFirst out y _

/-! ### Aborts -/

@[simp] theorem pure_ne_error {a : α} {refusal : Refusal} :
    (pure a : Step R α) h ≠ .error refusal h' := nofun

@[simp] theorem length_ne_error {refusal : Refusal} : length b h ≠ .error refusal h' := nofun

@[simp] theorem read_ne_error {refusal : Refusal} : read b h ≠ .error refusal h' := nofun

@[simp] theorem write_ne_error {xs : List R} {refusal : Refusal} :
    write b xs h ≠ .error refusal h' := nofun

@[simp] theorem bufferArg_ne_aborted : bufferArg kernel args i h ≠ .error .aborted h' := by
  rw [bufferArg]
  cases args[i]?.bind Value.toBuffer? <;> nofun

@[simp] theorem scalarArg_ne_aborted [Scalar R] :
    scalarArg kernel args i h ≠ .error .aborted h' := by
  rw [scalarArg]
  cases args[i]?.bind Value.toScalar? <;> nofun

@[simp] theorem sameLength_ne_aborted : sameLength kernel m n h ≠ .error .aborted h' := by
  rw [sameLength]
  split <;> nofun

theorem axpy_ne_aborted [Scalar R] (args : List (Value R)) (h h' : Heap R) :
    axpy args h ≠ .error .aborted h' := by
  simp [axpy, bind_eq_error_iff, -bind_pure_comp]

theorem dot_ne_aborted [Scalar R] (args : List (Value R)) (h h' : Heap R) :
    dot args h ≠ .error .aborted h' := by
  simp [dot, bind_eq_error_iff, -bind_pure_comp]

theorem copy_ne_aborted (args : List (Value R)) (h h' : Heap R) :
    copy args h ≠ .error .aborted h' := by
  simp [copy, bind_eq_error_iff, -bind_pure_comp]

/-- A product aborts exactly if its operands are as they should be and the operator aborts. -/
theorem matvec_eq_aborted_iff {op : LinearOperator R} :
    matvec op args h = .error .aborted h' ↔
      (∃ out x, MatvecOperands op args h out x ∧ op.apply (h.read x) = none) ∧ h' = h := by
  simp only [matvec, bind_eq_error_iff, bufferArg_ne_aborted, length_ne_error, read_ne_error,
    sameLength_ne_aborted, false_or, bufferArg_eq_ok_iff, length_eq_ok_iff, sameLength_eq_ok_iff,
    read_eq_ok_iff, and_assoc, exists_and_left, exists_eq_left, exists_const]
  constructor
  · rintro ⟨out, hout, x, hx, hlx, hlout, hr⟩
    cases hy : op.apply (h.read x) with
    | none =>
      rw [hy] at hr
      cases hr
      exact ⟨⟨out, x, ⟨hout, hx, hlx, hlout⟩, hy⟩, rfl⟩
    | some y =>
      rw [hy] at hr
      cases hr
  · rintro ⟨⟨out, x, ho, hy⟩, rfl⟩
    refine ⟨out, ho.output, x, ho.input, ho.length_input, ho.length_output, ?_⟩
    rw [hy]
    rfl

end Kernel

/-- A matrix without rows is the only one that cannot be applied. -/
theorem DenseMatrix.apply_eq_none_iff [Scalar R] (m : DenseMatrix R) (x : List R) :
    m.toOperator.apply x = none ↔ m.dim = 0 := by
  change m.applyTo x _ = none ↔ m.dim = 0
  rw [applyTo]
  split
  · next hdim => exact ⟨fun _ => hdim, fun _ => rfl⟩
  · next hdim => exact ⟨nofun, fun h => absurd h hdim⟩

end StagedGraph
