import Mathlib.Data.List.GetD
import Mathlib.LinearAlgebra.Matrix.ToLin
import StagedGraph.Proofs.Solver.DenseLayout
import StagedGraph.Proofs.Solver.Reruns

/-!
# The direct solver in exact arithmetic

Over the rationals a buffer holds a vector, a kernel is the operation on vectors that it is named
for, and the steps of the direct solver are those of the method of conjugate gradients. The heap is
seen as a function from buffers to vectors. A kernel changes it at the buffer that it writes, and
the buffers of a workspace are taken to be different ones, so that nothing is overwritten that is
still needed (`Iterate.Holds`).
-/

namespace StagedGraph

open Matrix

/-! ### Rational numbers -/

/-- Rational numbers: a sum starts at zero, and any two of them have an order. -/
instance : Scalar ℚ where
  ofInt64 n := n.toInt
  sumStart := 0
  compare? x y := some (cmp x y)

namespace Scalar

theorem zero_rat : (zero : ℚ) = 0 := Int.cast_zero

theorem ofInt64_neg_one : (ofInt64 (-1) : ℚ) = -1 := by
  change (((-1 : Int64).toInt : ℤ) : ℚ) = -1
  rw [show (-1 : Int64).toInt = -1 from rfl, Int.cast_neg, Int.cast_one]

theorem isZero_rat (x : ℚ) : isZero x = decide (x = 0) := by
  rw [isZero, equal, zero_rat, Bool.eq_iff_iff, beq_iff_eq, decide_eq_true_iff]
  change some (cmp x 0) = some .eq ↔ x = 0
  rw [Option.some_inj, cmp_eq_eq_iff]

end Scalar

theorem Solver.atMost_rat (x y : ℚ) : atMost x y = decide (x ≤ y) := by
  rw [Bool.eq_iff_iff, decide_eq_true_iff, atMost]
  change (cmp x y).isLE = true ↔ x ≤ y
  rw [Ordering.isLE_iff_ne_gt, cmp_eq_gt_iff, not_lt]

/-! ### Vectors -/

/-- The vector with these entries; those that are missing are zero. -/
def vectorOf (n : ℕ) (xs : List ℚ) : Fin n → ℚ := fun i => xs.getD i 0

section Vectors

variable {n : ℕ} {xs ys : List ℚ}

theorem vectorOf_zipWith (f : ℚ → ℚ → ℚ) (hx : xs.length = n) (hy : ys.length = n) (i : Fin n) :
    vectorOf n (List.zipWith f xs ys) i = f (vectorOf n xs i) (vectorOf n ys i) := by
  have hi := i.isLt
  simp [vectorOf, List.getD_eq_getElem?_getD, hx, hy, hi]

theorem sum_vectorOf (hx : xs.length = n) : ∑ i, vectorOf n xs i = xs.sum := by
  subst hx
  rw [← Fin.sum_univ_getElem]
  exact Finset.sum_congr rfl fun i _ => List.getD_eq_getElem _ _ i.isLt

/-- The sum of the products is the product of the vectors. -/
theorem Scalar.dot_rat (hx : xs.length = n) (hy : ys.length = n) :
    Scalar.dot xs ys = vectorOf n xs ⬝ᵥ vectorOf n ys := by
  have hsum : Scalar.dot xs ys = (List.zipWith (· * ·) xs ys).sum := List.sum_eq_foldl.symm
  rw [hsum, ← sum_vectorOf (n := n) (by simp [hx, hy]), dotProduct]
  exact Finset.sum_congr rfl fun i _ => vectorOf_zipWith _ hx hy i

end Vectors

/-! ### Buffers -/

namespace Heap

/-- The vector in a buffer. -/
def vector (h : Heap ℚ) (n : ℕ) (b : BufferId) : Fin n → ℚ := vectorOf n (h.read b)

variable {h : Heap ℚ} {n : ℕ} {bs : List BufferId} {a b : BufferId}

/-- What `axpy` writes. -/
theorem exists_axpy (hf : h.Fits n bs) (ha : a ∈ bs) (k : ℚ) (hb : b ∈ bs) :
    ∃ xs, xs.length = n ∧ vectorOf n xs = h.vector n a + k • h.vector n b ∧
      ∀ ans, h.axpy ans a k b = h.write ans xs := by
  have hlength : (h.read a).length = n ∧ (h.read b).length = n := ⟨hf a ha, hf b hb⟩
  refine ⟨List.zipWith (fun x y => x + k * y) (h.read a) (h.read b), ?_, ?_, fun _ => rfl⟩
  · rw [List.length_zipWith, hlength.1, hlength.2, Nat.min_self]
  · funext i
    exact vectorOf_zipWith _ hlength.1 hlength.2 i

theorem dot_vector (hf : h.Fits n bs) (ha : a ∈ bs) (hb : b ∈ bs) :
    h.dot a b = h.vector n a ⬝ᵥ h.vector n b :=
  Scalar.dot_rat (hf a ha) (hf b hb)

/-- A write to one of several buffers, no two of which are the same, changes one vector. -/
theorem vectors_write (hn : 0 < n) (hf : h.Fits n bs) (hbs : bs.Nodup) {i : ℕ} (hi : i < bs.length)
    (xs : List ℚ) : bs.map ((h.write bs[i] xs).vector n) =
      (bs.map (h.vector n)).set i (vectorOf n xs) := by
  have hallocated : h.Allocated bs[i] :=
    allocated_of_length_pos (by rw [hf _ (List.getElem_mem hi)]; exact hn)
  refine List.ext_getElem (by simp) fun j hj hj' => ?_
  have hlt : j < bs.length := by simpa using hj
  rw [List.getElem_map, List.getElem_set]
  split
  · next hij =>
    subst hij
    rw [vector, h.read_write_self _ xs hallocated]
  · next hij =>
    have hne : bs[i] ≠ bs[j] := fun he => hij ((hbs.getElem_inj_iff).1 he)
    rw [vector, h.read_write_of_ne xs hne, List.getElem_map]
    rfl

end Heap

/-- The operator computes this linear map. -/
def LinearOperator.ActsAs (op : LinearOperator ℚ)
    (A : (Fin op.dim → ℚ) →ₗ[ℚ] (Fin op.dim → ℚ)) : Prop :=
  ∀ x y, x.length = op.dim → op.apply x = some y → vectorOf op.dim y = A (vectorOf op.dim x)

/-! ### Dense matrices -/

namespace DenseMatrix

/-- The matrix with these entries, row by row. -/
def toMatrix (m : DenseMatrix ℚ) : Matrix (Fin m.dim) (Fin m.dim) ℚ :=
  Matrix.of fun i j => m.entries.getD (i * m.dim + j) 0

/-- Row `i` of a matrix, as a list, holds row `i` of the matrix. -/
theorem vectorOf_row (m : DenseMatrix ℚ) (i : Fin m.dim) :
    ((m.entries.drop (i * m.dim)).take m.dim).length = m.dim ∧
      vectorOf m.dim ((m.entries.drop (i * m.dim)).take m.dim) = m.toMatrix i := by
  have hrow : (i + 1) * m.dim ≤ m.dim * m.dim := Nat.mul_le_mul_right _ i.isLt
  have hlength := m.length_entries
  rw [Nat.succ_mul] at hrow
  refine ⟨by simp; omega, ?_⟩
  funext j
  have hj := j.isLt
  simp [vectorOf, toMatrix, List.getD_eq_getElem?_getD, hj]

/-- **A dense matrix acts as the matrix that it is.** -/
theorem toOperator_actsAs (m : DenseMatrix ℚ) : m.toOperator.ActsAs m.toMatrix.mulVecLin := by
  intro x y hx hy
  funext i
  have hpos : m.dim ≠ 0 := Nat.ne_of_gt (Nat.lt_of_le_of_lt (Nat.zero_le i) i.isLt)
  have happly : m.applyTo x (List.replicate m.dim Scalar.zero) = some y := hy
  have hlength : (m.rows.map fun row => Scalar.dot row x).length =
      (List.replicate m.dim (Scalar.zero : ℚ)).length := by
    rw [List.length_map, rows, length_cutRows, List.length_replicate]
  rw [applyTo, if_neg hpos, overwrite_of_length hlength] at happly
  obtain ⟨hrow, hvector⟩ := m.vectorOf_row i
  have hrows : m.rows[(i : ℕ)]? = some ((m.entries.drop (i * m.dim)).take m.dim) :=
    getElem?_cutRows i.isLt m.entries
  have hentry : vectorOf m.dim y i = Scalar.dot ((m.entries.drop (i * m.dim)).take m.dim) x := by
    change y.getD i 0 = _
    rw [← Option.some.inj happly, List.getD_eq_getElem?_getD, List.getElem?_map, hrows]
    rfl
  exact hentry.trans ((Scalar.dot_rat hrow hx).trans (by rw [hvector]; rfl))

end DenseMatrix

/-! ### Workspaces -/

namespace Solver

/-- Different buffers that hold a right side, a solution, a residual, a direction and a product. -/
structure Workspace.Holds (w : Workspace) (h : Heap ℚ) {n : ℕ} (b v r d q : Fin n → ℚ) : Prop where
  pos : 0 < n
  apart : w.all.Nodup
  fits : h.Fits n w.all
  vectors : w.all.map (h.vector n) = [b, v, r, d, q]

namespace Workspace.Holds

variable {w : Workspace} {n : ℕ} {h : Heap ℚ} {b v r d q : Fin n → ℚ}

theorem of_fits (hn : 0 < n) (hw : w.all.Nodup) (hf : h.Fits n w.all) :
    w.Holds h (h.vector n w.rhs) (h.vector n w.solution) (h.vector n w.residual)
      (h.vector n w.direction) (h.vector n w.product) :=
  ⟨hn, hw, hf, rfl⟩

theorem rhs (hh : w.Holds h b v r d q) : h.vector n w.rhs = b := (List.cons.inj hh.vectors).1

theorem solution (hh : w.Holds h b v r d q) : h.vector n w.solution = v :=
  Option.some.inj (congrArg (·[1]?) hh.vectors)

theorem residual (hh : w.Holds h b v r d q) : h.vector n w.residual = r :=
  Option.some.inj (congrArg (·[2]?) hh.vectors)

theorem direction (hh : w.Holds h b v r d q) : h.vector n w.direction = d :=
  Option.some.inj (congrArg (·[3]?) hh.vectors)

theorem product (hh : w.Holds h b v r d q) : h.vector n w.product = q :=
  Option.some.inj (congrArg (·[4]?) hh.vectors)

variable {b' v' r' d' q' : Fin n → ℚ} {i : ℕ} {xs : List ℚ} {x y : BufferId} {k : ℚ}

/-- A write to the buffer at one place changes the vector at that place. -/
theorem write_at (hh : w.Holds h b v r d q) (hi : i < w.all.length) (hxs : xs.length = n)
    (hset : [b, v, r, d, q].set i (vectorOf n xs) = [b', v', r', d', q']) :
    w.Holds (h.write w.all[i] xs) b' v' r' d' q' := by
  refine ⟨hh.pos, hh.apart, hh.fits.write _ hxs, ?_⟩
  rw [Heap.vectors_write hh.pos hh.fits hh.apart hi, hh.vectors, hset]

theorem axpy_at (hh : w.Holds h b v r d q) (hi : i < w.all.length) (hx : x ∈ w.all)
    (hy : y ∈ w.all)
    (hset : [b, v, r, d, q].set i (h.vector n x + k • h.vector n y) = [b', v', r', d', q']) :
    w.Holds (h.axpy w.all[i] x k y) b' v' r' d' q' := by
  obtain ⟨xs, hlength, hvector, hwrite⟩ := Heap.exists_axpy hh.fits hx k hy
  rw [hwrite]
  exact hh.write_at hi hlength (hvector ▸ hset)

theorem axpy_solution (hh : w.Holds h b v r d q) (hx : x ∈ w.all) (hy : y ∈ w.all) :
    w.Holds (h.axpy w.solution x k y) b (h.vector n x + k • h.vector n y) r d q :=
  hh.axpy_at (i := 1) (by simp [all]) hx hy rfl

theorem axpy_residual (hh : w.Holds h b v r d q) (hx : x ∈ w.all) (hy : y ∈ w.all) :
    w.Holds (h.axpy w.residual x k y) b v (h.vector n x + k • h.vector n y) d q :=
  hh.axpy_at (i := 2) (by simp [all]) hx hy rfl

theorem axpy_direction (hh : w.Holds h b v r d q) (hx : x ∈ w.all) (hy : y ∈ w.all) :
    w.Holds (h.axpy w.direction x k y) b v r (h.vector n x + k • h.vector n y) q :=
  hh.axpy_at (i := 3) (by simp [all]) hx hy rfl

theorem copy_direction (hh : w.Holds h b v r d q) (hx : x ∈ w.all) :
    w.Holds (h.copy w.direction x) b v r (h.vector n x) q :=
  hh.write_at (i := 3) (by simp [all]) (hh.fits x hx) rfl

/-- An operator that acts as a linear map writes the image of a vector. -/
theorem matvec_product {op : LinearOperator ℚ} {b v r d q : Fin op.dim → ℚ}
    {A : (Fin op.dim → ℚ) →ₗ[ℚ] (Fin op.dim → ℚ)} (hA : op.ActsAs A)
    (hh : w.Holds h b v r d q) (hx : x ∈ w.all) :
    w.Holds (h.matvec op w.product x) b v r d (A (h.vector op.dim x)) := by
  obtain ⟨y, hy, hlength⟩ := op.apply_some (h.read x) hh.pos (hh.fits x hx)
  have hvector : vectorOf op.dim y = A (h.vector op.dim x) := hA _ y (hh.fits x hx) hy
  rw [Heap.matvec, hy, ← hvector]
  exact hh.write_at (i := 4) (by simp [all]) hlength rfl

end Workspace.Holds

/-! ### The direct solver -/

namespace Direct

variable {op : LinearOperator ℚ} {config : Config ℚ} {w : Workspace} {s s' : Iterate ℚ}
  {A : (Fin op.dim → ℚ) →ₗ[ℚ] (Fin op.dim → ℚ)} {b v r d q : Fin op.dim → ℚ} {h : Heap ℚ}

theorem mem_all (w : Workspace) : w.rhs ∈ w.all ∧ w.solution ∈ w.all ∧ w.residual ∈ w.all ∧
    w.direction ∈ w.all ∧ w.product ∈ w.all :=
  Workspace.all_subset.1 (List.Subset.refl _)

/-- An iterate whose buffers hold these vectors, and whose squared residual is that of its
residual. -/
def Iterate.Holds (s : Iterate ℚ) (w : Workspace) {n : ℕ} (b v r d q : Fin n → ℚ) : Prop :=
  w.Holds s.heap b v r d q ∧ s.r2New = r ⬝ᵥ r

theorem dot_residual {n : ℕ} {b v r d q : Fin n → ℚ} (hh : w.Holds h b v r d q) :
    h.dot w.residual w.residual = r ⬝ᵥ r := by
  obtain ⟨-, -, hr, -, -⟩ := mem_all w
  rw [Heap.dot_vector hh.fits hr hr, hh.residual]

/-- A solve starts with the residual of the first guess, which is also the first direction. -/
theorem start_holds (hA : op.ActsAs A) (hh : w.Holds h b v r d q) :
    (start op w h).Holds w b v (b - A v) (b - A v) (A v) := by
  obtain ⟨hb, hv, hr, -, hq⟩ := mem_all w
  have hminus : b + (Scalar.ofInt64 (-1) : ℚ) • A v = b - A v := by
    rw [Scalar.ofInt64_neg_one, neg_one_smul, sub_eq_add_neg]
  have hh₁ := hh.matvec_product hA hv
  rw [hh.solution] at hh₁
  have hh₂ := hh₁.axpy_residual (k := Scalar.ofInt64 (-1)) hb hq
  rw [hh₁.rhs, hh₁.product, hminus] at hh₂
  have hh₃ := hh₂.copy_direction hr
  rw [hh₂.residual] at hh₃
  exact ⟨hh₃, dot_residual hh₃⟩

/-- The curvature along the direction. -/
theorem curvature_eq (hA : op.ActsAs A) (hs : s.Holds w b v r d q) :
    (s.apply op w).heap.dot w.direction w.product = d ⬝ᵥ A d := by
  obtain ⟨-, -, -, hd, hq⟩ := mem_all w
  have hh := hs.1.matvec_product hA hd
  rw [hs.1.direction] at hh
  exact (Heap.dot_vector hh.fits hd hq).trans (by rw [hh.direction, hh.product])

/-- A step along the direction. -/
theorem move_holds (hA : op.ActsAs A) (hs : s.Holds w b v r d q) (k : ℚ) :
    ((s.apply op w).move w k).Holds w b (v + k • d) (r - k • A d) d (A d) := by
  obtain ⟨-, hv, hr, hd, hq⟩ := mem_all w
  have hh₁ := hs.1.matvec_product hA hd
  rw [hs.1.direction] at hh₁
  have hh₂ := hh₁.axpy_solution (k := k) hv hd
  rw [hh₁.solution, hh₁.direction] at hh₂
  have hh₃ := hh₂.axpy_residual (k := -k) hr hq
  rw [hh₂.residual, hh₂.product, neg_smul, ← sub_eq_add_neg] at hh₃
  exact ⟨hh₃, dot_residual hh₃⟩

/-- A new direction. -/
theorem turn_holds {n : ℕ} {b v r d q : Fin n → ℚ} (hs : s.Holds w b v r d q) (k : ℚ) :
    (s.turn w k).Holds w b v r (r + k • d) q := by
  obtain ⟨-, -, hr, hd, -⟩ := mem_all w
  have hh := hs.1.axpy_direction (k := k) hr hd
  rw [hs.1.residual, hs.1.direction] at hh
  exact ⟨hh, hs.2⟩

theorem quotient_rat (s : Iterate ℚ) (x y : ℚ) :
    quotient s x y = if y = 0 then .error ⟨s, x, y⟩ else .ok (x / y) := by
  rw [quotient, Scalar.isZero_rat]
  by_cases hy : y = 0 <;> simp [hy]

/-! ### Iterations -/

/-- The length of the step along a direction. -/
def stride {n : ℕ} (A : (Fin n → ℚ) →ₗ[ℚ] (Fin n → ℚ)) (r d : Fin n → ℚ) : ℚ :=
  r ⬝ᵥ r / d ⬝ᵥ A d

/-- The residual after the step. -/
def nextResidual {n : ℕ} (A : (Fin n → ℚ) →ₗ[ℚ] (Fin n → ℚ)) (r d : Fin n → ℚ) : Fin n → ℚ :=
  r - stride A r d • A d

/-- The direction after the step. -/
def nextDirection {n : ℕ} (A : (Fin n → ℚ) →ₗ[ℚ] (Fin n → ℚ)) (r d : Fin n → ℚ) : Fin n → ℚ :=
  nextResidual A r d + (nextResidual A r d ⬝ᵥ nextResidual A r d / r ⬝ᵥ r) • d

theorem finish_eq (s : Iterate ℚ) (r2 : ℚ) : s.finish config w r2 =
    if s.converged config then .ok (s, true)
    else if r2 = 0 then .error ⟨s, s.r2New, r2⟩ else .ok (s.turn w (s.r2New / r2), false) := by
  rw [Iterate.finish, quotient_rat]
  split
  · rfl
  · split <;> rfl

theorem step_eq (hA : op.ActsAs A) (hs : s.Holds w b v r d q) : step op config w s =
    if d ⬝ᵥ A d = 0 then .error ⟨s.apply op w, r ⬝ᵥ r, d ⬝ᵥ A d⟩
    else ((s.apply op w).move w (stride A r d)).finish config w (r ⬝ᵥ r) := by
  have hnorm : (s.apply op w).r2New = r ⬝ᵥ r := hs.2
  rw [step, curvature_eq hA hs, hnorm, quotient_rat]
  split <;> rfl

/-- **An iteration that succeeds** makes a step along the direction. Unless it is the last, it also
finds a new direction. -/
theorem step_holds {last : Bool} (hA : op.ActsAs A) (hs : s.Holds w b v r d q)
    (hstep : step op config w s = .ok (s', last)) : s'.r2Init = s.r2Init ∧
      ∃ d', s'.Holds w b (v + stride A r d • d) (nextResidual A r d) d' (A d) ∧
        (last = false → d' = nextDirection A r d) := by
  have hmove := move_holds hA hs (stride A r d)
  rw [step_eq hA hs] at hstep
  split at hstep
  · cases hstep
  · rw [finish_eq] at hstep
    split at hstep
    · cases hstep
      exact ⟨rfl, d, hmove, nofun⟩
    · split at hstep
      · cases hstep
      · cases hstep
        have hturn := turn_holds hmove
          (((s.apply op w).move w (stride A r d)).r2New / r ⬝ᵥ r)
        exact ⟨rfl, _, hturn, fun _ => by rw [hmove.2]; rfl⟩

/-- An iteration succeeds if neither the curvature nor the residual is zero. -/
theorem exists_step (config : Config ℚ) (hA : op.ActsAs A) (hs : s.Holds w b v r d q)
    (hd : d ⬝ᵥ A d ≠ 0) (hr : r ⬝ᵥ r ≠ 0) :
    ∃ s' last, step op config w s = .ok (s', last) := by
  rw [step_eq hA hs, if_neg hd, finish_eq, if_neg hr]
  split
  all_goals exact ⟨_, _, rfl⟩

end Direct

end Solver

end StagedGraph
