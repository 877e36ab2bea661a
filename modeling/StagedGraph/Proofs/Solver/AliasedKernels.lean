import StagedGraph.Proofs.Solver.Reuse

/-!
# Kernels on buffers that may be the same

A kernel may be given one buffer in several places, the buffer that it writes among them: the
solver adds to a vector by `axpy` on that vector. And it may be given anything else, in any number.

The work of a kernel is told in terms of what the buffers hold before the call (`AxpyDone` and
those after it): one buffer has new contents and its old length, and the others are as they were
(`Heap.Overwrites`). A kernel that is `Atomic` does its work whenever it is given what it asks for;
else it leaves all buffers as they are.
-/

namespace StagedGraph

variable {R : Type}

namespace Heap

/-- The second heap is the first with new contents for one buffer, of the length that the buffer
had. -/
structure Overwrites (h : Heap R) (b : BufferId) (xs : List R) (h' : Heap R) : Prop where
  written : h'.read b = xs
  length : h'.length b = h.length b
  others : ∀ c, c ≠ b → h'.read c = h.read c

theorem overwrites_write {h : Heap R} {b : BufferId} {xs : List R} (hxs : xs.length = h.length b) :
    h.Overwrites b xs (h.write b xs) where
  written := by
    rcases h.read_write b b xs with hread | hread
    · exact hread
    · -- a buffer that was never allocated has no contents, and none are written
      by_cases hb : h.Allocated b
      · exact h.read_write_self b xs hb
      · have hnone : ¬ 0 < h.length b := fun hpos => hb (allocated_of_length_pos hpos)
        have hempty : xs = [] := List.length_eq_zero_iff.1 (by omega)
        have hread' : h.read b = [] := List.length_eq_zero_iff.1 (Nat.eq_zero_of_not_pos hnone)
        rw [hread, hread', hempty]
  length := sameLengths_write hxs b
  others c hc := h.read_write_of_ne xs hc.symm

end Heap

namespace Kernel

variable {args : List (Value R)} {h : Heap R}

/-- `ans := a + k * b`, entry by entry, of what `a` and `b` held. -/
def AxpyDone [Scalar R] (args : List (Value R)) (h : Heap R) (v : Value R) (h' : Heap R) : Prop :=
  v = .void ∧ ∃ ans a k b, AxpyOperands args h ans a k b ∧
    h.Overwrites ans (List.zipWith (fun x y => x + k * y) (h.read a) (h.read b)) h'

/-- The products of the entries are summed from the left, and no buffer is changed. -/
def DotDone [Scalar R] (args : List (Value R)) (h : Heap R) (v : Value R) (h' : Heap R) : Prop :=
  h' = h ∧ ∃ a b, PairOperands args h a b ∧
    v = .float ((List.zipWith (fun x y => x * y) (h.read a) (h.read b)).foldl (fun s x => s + x)
      Scalar.sumStart)

/-- `dst := src`, what `src` held. -/
def CopyDone (args : List (Value R)) (h : Heap R) (v : Value R) (h' : Heap R) : Prop :=
  v = .void ∧ ∃ dst src, PairOperands args h dst src ∧ h.Overwrites dst (h.read src) h'

/-- `out := op x`, of what `x` held. -/
def MatvecDone (op : LinearOperator R) (args : List (Value R)) (h : Heap R) (v : Value R)
    (h' : Heap R) : Prop :=
  v = .void ∧ ∃ out x y, MatvecOperands op args h out x ∧ op.apply (h.read x) = some y ∧
    h.Overwrites out y h'

/-- A native yields a value if, and only if, there is work to do, which is then done. Otherwise it
has changed no buffer. -/
structure Atomic (native : Native R (Heap R)) (args : List (Value R)) (h : Heap R)
    (Done : Value R → Heap R → Prop) : Prop where
  done_of_value : ∀ v h', native.op args h = (.value v, h') → Done v h'
  value_of_done : ∀ v h', Done v h' → ∃ v' h'', native.op args h = (.value v', h'')
  failed : ∀ message h', native.op args h = (.failed message, h') → h' = h
  aborted : ∀ h', native.op args h = (.aborted, h') → h' = h

theorem eq_ok_of_outcome {x : EStateM.Result Refusal (Heap R) (Value R)} {v : Value R}
    (hx : outcome x = (.value v, h)) : x = .ok v h := by
  rcases x with ⟨v', h'⟩ | ⟨message | _, h'⟩
  · cases hx
    rfl
  · cases hx
  · cases hx

/-- A native that yields no value is a kernel that refused. -/
theorem exists_refusal_of_outcome {x : EStateM.Result Refusal (Heap R) (Value R)}
    {o : NativeOutcome R} (hx : outcome x = (o, h)) (ho : ∀ v, o ≠ .value v) :
    ∃ refusal, x = .error refusal h := by
  rcases x with ⟨v, h'⟩ | ⟨message | _, h'⟩
  · cases hx
    exact absurd rfl (ho v)
  · cases hx
    exact ⟨_, rfl⟩
  · cases hx
    exact ⟨_, rfl⟩

theorem atomic_native {kernel : List (Value R) → Step R (Value R)}
    {Done : Value R → Heap R → Prop} (name : String) (arity : Nat)
    (hdone : ∀ v h', kernel args h = .ok v h' → Done v h')
    (hruns : ∀ v h', Done v h' → ∃ v' h'', kernel args h = .ok v' h'')
    (hrefuses : RefusesFirst (kernel args)) : Atomic (native name arity kernel) args h Done where
  done_of_value v h' hvalue := hdone v h' (eq_ok_of_outcome hvalue)
  value_of_done v h' hwork := by
    obtain ⟨v', h'', hr⟩ := hruns v h' hwork
    exact ⟨v', h'', by rw [native_op, hr, outcome]⟩
  failed message h' hfailed := by
    obtain ⟨refusal, hr⟩ := exists_refusal_of_outcome hfailed nofun
    exact hrefuses hr
  aborted h' haborted := by
    obtain ⟨refusal, hr⟩ := exists_refusal_of_outcome haborted nofun
    exact hrefuses hr

theorem axpy_atomic [Scalar R] (args : List (Value R)) (h : Heap R) :
    Atomic (native "axpy" 4 axpy) args h (AxpyDone args h) := by
  refine atomic_native "axpy" 4 ?_ ?_ (axpy_refusesFirst args)
  · intro v h' hr
    obtain ⟨ans, a, k, b, ho, rfl, rfl⟩ := axpy_eq_ok_iff.1 hr
    exact ⟨rfl, ans, a, k, b, ho, Heap.overwrites_write ho.length_sum⟩
  · rintro v h' ⟨-, ans, a, k, b, ho, -⟩
    exact ⟨_, _, axpy_eq_ok_iff.2 ⟨ans, a, k, b, ho, rfl, rfl⟩⟩

theorem dot_atomic [Scalar R] (args : List (Value R)) (h : Heap R) :
    Atomic (native "dot" 2 dot) args h (DotDone args h) := by
  refine atomic_native "dot" 2 ?_ ?_ (dot_refusesFirst args)
  · intro v h' hr
    obtain ⟨a, b, ho, rfl, rfl⟩ := dot_eq_ok_iff.1 hr
    exact ⟨rfl, a, b, ho, rfl⟩
  · rintro v h' ⟨-, a, b, ho, -⟩
    exact ⟨_, _, dot_eq_ok_iff.2 ⟨a, b, ho, rfl, rfl⟩⟩

theorem copy_atomic (args : List (Value R)) (h : Heap R) :
    Atomic (native "copy" 2 copy) args h (CopyDone args h) := by
  refine atomic_native "copy" 2 ?_ ?_ (copy_refusesFirst args)
  · intro v h' hr
    obtain ⟨dst, src, ho, rfl, rfl⟩ := copy_eq_ok_iff.1 hr
    exact ⟨rfl, dst, src, ho, Heap.overwrites_write ho.length.symm⟩
  · rintro v h' ⟨-, dst, src, ho, -⟩
    exact ⟨_, _, copy_eq_ok_iff.2 ⟨dst, src, ho, rfl, rfl⟩⟩

theorem matvec_atomic {op : LinearOperator R} (hfills : op.Fills) (args : List (Value R))
    (h : Heap R) : Atomic (native "matvec" 2 (matvec op)) args h (MatvecDone op args h) := by
  refine atomic_native "matvec" 2 ?_ ?_ (matvec_refusesFirst op args)
  · intro v h' hr
    obtain ⟨out, x, y, ho, hy, rfl, rfl⟩ := matvec_eq_ok_iff.1 hr
    exact ⟨rfl, out, x, y, ho, hy, Heap.overwrites_write (ho.length_product hfills hy)⟩
  · rintro v h' ⟨-, out, x, y, ho, hy, -⟩
    exact ⟨_, _, matvec_eq_ok_iff.2 ⟨out, x, y, ho, hy, rfl, rfl⟩⟩

/-- **The kernels may be given the same buffer in several places, and anything else.** On all
arguments and buffers a kernel does its work with what the buffers hold before the call, on one
buffer or on none, or else it changes nothing. Of the operator it is only asked that it yields no
more and no fewer entries than there is place for, as all do whose dimension is positive
(`LinearOperator.Fills.of_dim_pos`), and all matrices (`DenseMatrix.toOperator_fills`). -/
theorem kernels_alias_safe [Scalar R] {op : LinearOperator R} (hfills : op.Fills)
    (args : List (Value R)) (h : Heap R) :
    Atomic (native "axpy" 4 axpy) args h (AxpyDone args h) ∧
      Atomic (native "dot" 2 dot) args h (DotDone args h) ∧
      Atomic (native "copy" 2 copy) args h (CopyDone args h) ∧
      Atomic (native "matvec" 2 (matvec op)) args h (MatvecDone op args h) :=
  ⟨axpy_atomic args h, dot_atomic args h, copy_atomic args h, matvec_atomic hfills args h⟩

/-- Arguments of every kernel, with one buffer in all places for one. -/
def oneBuffer : List (Value Float) := [.buffer ⟨0⟩, .buffer ⟨0⟩, .float 0.5, .buffer ⟨0⟩]

/-- The right side of the chain, in all places. -/
theorem kernels_alias_safe_oneBuffer :
    Solver.chain.operator.Fills ∧ AxpyOperands oneBuffer Solver.chainHeap ⟨0⟩ ⟨0⟩ 0.5 ⟨0⟩ ∧
      PairOperands oneBuffer Solver.chainHeap ⟨0⟩ ⟨0⟩ ∧
      MatvecOperands Solver.chain.operator oneBuffer Solver.chainHeap ⟨0⟩ ⟨0⟩ ∧
      Atomic (native "axpy" 4 axpy) oneBuffer Solver.chainHeap
        (AxpyDone oneBuffer Solver.chainHeap) ∧
      Atomic (native "dot" 2 dot) oneBuffer Solver.chainHeap
        (DotDone oneBuffer Solver.chainHeap) ∧
      Atomic (native "copy" 2 copy) oneBuffer Solver.chainHeap
        (CopyDone oneBuffer Solver.chainHeap) ∧
      Atomic (native "matvec" 2 (matvec Solver.chain.operator)) oneBuffer Solver.chainHeap
        (MatvecDone Solver.chain.operator oneBuffer Solver.chainHeap) := by
  have hfills : Solver.chain.operator.Fills := DenseMatrix.toOperator_fills _
  exact ⟨hfills, ⟨rfl, rfl, rfl, rfl, rfl, rfl⟩, ⟨rfl, rfl, rfl⟩, ⟨rfl, rfl, rfl, rfl⟩,
    kernels_alias_safe hfills oneBuffer Solver.chainHeap⟩

end Kernel

end StagedGraph
