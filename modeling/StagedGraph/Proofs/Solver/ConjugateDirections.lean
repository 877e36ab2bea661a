import Mathlib.LinearAlgebra.FiniteDimensional.Lemmas
import Mathlib.LinearAlgebra.Matrix.DotProduct
import Mathlib.LinearAlgebra.Matrix.Symmetric
import StagedGraph.Proofs.Solver.Residuals

/-!
# Conjugate directions

In exact arithmetic, and for a symmetric positive definite matrix, the residual after some
iterations is orthogonal to all directions so far, and the next direction is conjugate to them. It
is enough to know the space that the directions span: `Conjugate` says what holds of it, the
residual and the direction, and an iteration keeps that and adds a dimension
(`Conjugate.next`).

As long as there is a residual, the direction is not zero, so nothing is divided by zero, and
there is a dimension left. Hence the loop ends after at most as many iterations as there are
unknowns, and if it may make that many then it is left by its break (`loop_ends_exact`,
`solves_in_dim_iterations`).
-/

namespace StagedGraph.Solver

open Direct Matrix Module

/-! ### Spaces of directions -/

section Directions

variable {n : ℕ} {A : (Fin n → ℚ) →ₗ[ℚ] (Fin n → ℚ)} {K : Submodule ℚ (Fin n → ℚ)}
  {r d x : Fin n → ℚ}

/-- The linear map is symmetric and positive definite. -/
structure IsPositive (A : (Fin n → ℚ) →ₗ[ℚ] (Fin n → ℚ)) : Prop where
  symm : ∀ x y, A x ⬝ᵥ y = x ⬝ᵥ A y
  pos : ∀ x, x ≠ 0 → 0 < x ⬝ᵥ A x

/-- A residual and a direction after steps along directions that span this space. -/
structure Conjugate (A : (Fin n → ℚ) →ₗ[ℚ] (Fin n → ℚ)) (K : Submodule ℚ (Fin n → ℚ))
    (r d : Fin n → ℚ) : Prop where
  orthogonal : ∀ x ∈ K, r ⬝ᵥ x = 0
  conjugate : ∀ x ∈ K, d ⬝ᵥ A x = 0
  /-- The direction is the residual, but for what is known of it. -/
  residual : r - d ∈ K
  /-- The images of the directions come from the residuals. -/
  image : ∀ x ∈ K, A x ∈ K ⊔ Submodule.span ℚ {r}

theorem dotProduct_self_nonneg (r : Fin n → ℚ) : 0 ≤ r ⬝ᵥ r :=
  Finset.sum_nonneg fun i _ => mul_self_nonneg (r i)

theorem dotProduct_self_pos (hr : r ≠ 0) : 0 < r ⬝ᵥ r :=
  lt_of_le_of_ne (dotProduct_self_nonneg r) (Ne.symm (mt dotProduct_self_eq_zero.1 hr))

/-- A residual is its own first direction. -/
theorem Conjugate.start (A : (Fin n → ℚ) →ₗ[ℚ] (Fin n → ℚ)) (r : Fin n → ℚ) :
    Conjugate A ⊥ r r where
  orthogonal x hx := by rw [(Submodule.mem_bot ℚ).1 hx, dotProduct_zero]
  conjugate x hx := by rw [(Submodule.mem_bot ℚ).1 hx, map_zero, dotProduct_zero]
  residual := by rw [sub_self]; exact Submodule.zero_mem _
  image x hx := by rw [(Submodule.mem_bot ℚ).1 hx, map_zero]; exact Submodule.zero_mem _

namespace Conjugate

/-- The direction makes progress against the residual as the residual itself would. -/
theorem dot_direction (h : Conjugate A K r d) : r ⬝ᵥ d = r ⬝ᵥ r := by
  have hzero := h.orthogonal _ h.residual
  rw [dotProduct_sub, sub_eq_zero] at hzero
  exact hzero.symm

theorem direction_ne_zero (h : Conjugate A K r d) (hr : r ≠ 0) : d ≠ 0 := by
  rintro rfl
  have hzero := h.dot_direction
  rw [dotProduct_zero] at hzero
  exact hr (dotProduct_self_eq_zero.1 hzero.symm)

theorem curvature_pos (hA : IsPositive A) (h : Conjugate A K r d) (hr : r ≠ 0) :
    0 < d ⬝ᵥ A d :=
  hA.pos d (h.direction_ne_zero hr)

/-- The direction is a new one. -/
theorem direction_notMem (hA : IsPositive A) (h : Conjugate A K r d) (hr : r ≠ 0) : d ∉ K :=
  fun hd => (h.curvature_pos hA hr).ne' (h.conjugate d hd)

/-- There is a residual only if the directions do not span everything. -/
theorem finrank_lt (h : Conjugate A K r d) (hr : r ≠ 0) : finrank ℚ K < n := by
  have hne : K ≠ ⊤ := by
    rintro rfl
    exact hr (dotProduct_self_eq_zero.1 (h.orthogonal r Submodule.mem_top))
  exact (Submodule.finrank_lt hne).trans_eq (finrank_fin_fun ℚ)

/-- The residual is among the directions that there are after the step. -/
theorem residual_mem (h : Conjugate A K r d) : r ∈ K ⊔ Submodule.span ℚ {d} := by
  rw [← sub_add_cancel r d]
  exact Submodule.add_mem_sup h.residual (Submodule.mem_span_singleton_self d)

theorem image_mem (h : Conjugate A K r d) (hx : x ∈ K) : A x ∈ K ⊔ Submodule.span ℚ {d} := by
  have hle : K ⊔ Submodule.span ℚ {r} ≤ K ⊔ Submodule.span ℚ {d} :=
    sup_le le_sup_left ((Submodule.span_singleton_le_iff_mem _ _).2 h.residual_mem)
  exact hle (h.image x hx)

/-- The step is as long as it takes to use up the residual along the direction. -/
theorem stride_curvature (hA : IsPositive A) (h : Conjugate A K r d) (hr : r ≠ 0) :
    stride A r d * (d ⬝ᵥ A d) = r ⬝ᵥ r :=
  div_mul_cancel₀ _ (h.curvature_pos hA hr).ne'

/-- **The residual after the step is orthogonal to the direction, too.** -/
theorem next_orthogonal (hA : IsPositive A) (h : Conjugate A K r d) (hr : r ≠ 0) :
    ∀ x ∈ K ⊔ Submodule.span ℚ {d}, nextResidual A r d ⬝ᵥ x = 0 := by
  intro x hx
  obtain ⟨y, hy, z, hz, rfl⟩ := Submodule.mem_sup.1 hx
  obtain ⟨c, rfl⟩ := Submodule.mem_span_singleton.1 hz
  have hold : nextResidual A r d ⬝ᵥ y = 0 := by
    rw [nextResidual, sub_dotProduct, smul_dotProduct, hA.symm, h.conjugate y hy,
      h.orthogonal y hy, smul_zero, sub_zero]
  have hnew : nextResidual A r d ⬝ᵥ d = 0 := by
    rw [nextResidual, sub_dotProduct, smul_dotProduct, hA.symm, h.dot_direction, smul_eq_mul,
      h.stride_curvature hA hr, sub_self]
  rw [dotProduct_add, dotProduct_smul, hold, hnew, smul_zero, add_zero]

/-- The image of the direction is what the residual loses. -/
theorem stride_image (A : (Fin n → ℚ) →ₗ[ℚ] (Fin n → ℚ)) (r d : Fin n → ℚ) :
    stride A r d • A d = r - nextResidual A r d :=
  (sub_sub_cancel r _).symm

theorem stride_ne_zero (hA : IsPositive A) (h : Conjugate A K r d) (hr : r ≠ 0) :
    stride A r d ≠ 0 :=
  div_ne_zero (dotProduct_self_pos hr).ne' (h.curvature_pos hA hr).ne'

/-- **The direction after the step is conjugate to the one before it, too.** -/
theorem next_conjugate (hA : IsPositive A) (h : Conjugate A K r d) (hr : r ≠ 0) :
    ∀ x ∈ K ⊔ Submodule.span ℚ {d}, nextDirection A r d ⬝ᵥ A x = 0 := by
  intro x hx
  obtain ⟨y, hy, z, hz, rfl⟩ := Submodule.mem_sup.1 hx
  obtain ⟨c, rfl⟩ := Submodule.mem_span_singleton.1 hz
  have horthogonal := h.next_orthogonal hA hr
  have hold : nextDirection A r d ⬝ᵥ A y = 0 := by
    rw [nextDirection, add_dotProduct, smul_dotProduct, horthogonal _ (h.image_mem hy),
      h.conjugate y hy, smul_zero, add_zero]
  have hnew : nextDirection A r d ⬝ᵥ A d = 0 := by
    -- along the direction, the image is the residual before less the one after
    have himage : stride A r d * (nextResidual A r d ⬝ᵥ A d) =
        -(nextResidual A r d ⬝ᵥ nextResidual A r d) := by
      rw [← smul_eq_mul, ← dotProduct_smul, stride_image, dotProduct_sub,
        horthogonal r h.residual_mem, zero_sub]
    refine (mul_eq_zero.1 ?_).resolve_left (h.stride_ne_zero hA hr)
    rw [nextDirection, add_dotProduct, smul_dotProduct, mul_add, himage, smul_eq_mul,
      mul_left_comm, h.stride_curvature hA hr, div_mul_cancel₀ _ (dotProduct_self_pos hr).ne',
      neg_add_cancel]
  rw [map_add, map_smul, dotProduct_add, dotProduct_smul, hold, hnew, smul_zero, add_zero]

/-- The image of a direction is in the space of the next residual. -/
theorem next_image (hA : IsPositive A) (h : Conjugate A K r d) (hr : r ≠ 0) :
    ∀ x ∈ K ⊔ Submodule.span ℚ {d},
      A x ∈ K ⊔ Submodule.span ℚ {d} ⊔ Submodule.span ℚ {nextResidual A r d} := by
  intro x hx
  obtain ⟨y, hy, z, hz, rfl⟩ := Submodule.mem_sup.1 hx
  obtain ⟨c, rfl⟩ := Submodule.mem_span_singleton.1 hz
  have hd : A d ∈ K ⊔ Submodule.span ℚ {d} ⊔ Submodule.span ℚ {nextResidual A r d} := by
    rw [← Submodule.smul_mem_iff _ (h.stride_ne_zero hA hr), stride_image]
    exact Submodule.sub_mem _ (Submodule.mem_sup_left h.residual_mem)
      (Submodule.mem_sup_right (Submodule.mem_span_singleton_self _))
  rw [map_add, map_smul]
  exact Submodule.add_mem _ (Submodule.mem_sup_left (h.image_mem hy)) (Submodule.smul_mem _ c hd)

/-- **An iteration keeps the directions conjugate**, and there is one more of them. -/
theorem next (hA : IsPositive A) (h : Conjugate A K r d) (hr : r ≠ 0) :
    Conjugate A (K ⊔ Submodule.span ℚ {d}) (nextResidual A r d) (nextDirection A r d) where
  orthogonal := h.next_orthogonal hA hr
  conjugate := h.next_conjugate hA hr
  residual := by
    rw [nextDirection, sub_add_cancel_left]
    exact Submodule.neg_mem _ (Submodule.mem_sup_right
      (Submodule.smul_mem _ _ (Submodule.mem_span_singleton_self d)))
  image := h.next_image hA hr

end Conjugate

end Directions

/-! ### The loop -/

namespace Direct

variable {op : LinearOperator ℚ} {config : Config ℚ} {w : Workspace} {s s' : Iterate ℚ}
  {A : (Fin op.dim → ℚ) →ₗ[ℚ] (Fin op.dim → ℚ)} {b v r d q : Fin op.dim → ℚ} {h : Heap ℚ}

theorem converged_iff : s.converged config = true ↔
    s.r2New ≤ s.r2Init * (config.epsilon * config.epsilon) := by
  rw [Iterate.converged, atMost_rat, decide_eq_true_iff]

theorem positive_iff : s.positive = true ↔ 0 < s.r2Init := by
  rw [Iterate.positive, Scalar.zero_rat]
  change (cmp s.r2Init 0).isGT = true ↔ _
  rw [Ordering.isGT_iff_eq_gt, cmp_eq_gt_iff]

/-- An iterate at which the loop goes on: there is a residual, the direction is conjugate to those
before it, and there is one of these for each iteration. -/
def Iterate.GoesOn (s : Iterate ℚ) (w : Workspace)
    (A : (Fin op.dim → ℚ) →ₗ[ℚ] (Fin op.dim → ℚ)) : Prop :=
  0 ≤ s.r2Init ∧ ∃ (b v r d q : Fin op.dim → ℚ) (K : Submodule ℚ (Fin op.dim → ℚ)),
    s.Holds w b v r d q ∧ Conjugate A K r d ∧ r ≠ 0 ∧ s.iter ≤ finrank ℚ K

/-- There are not as many iterations as dimensions before the last one. -/
theorem Iterate.GoesOn.iter_lt (hs : s.GoesOn w A) : s.iter < op.dim := by
  obtain ⟨-, b, v, r, d, q, K, -, hconjugate, hr, hiter⟩ := hs
  exact hiter.trans_lt (hconjugate.finrank_lt hr)

theorem start_r2Init (hA : op.ActsAs A) (hh : w.Holds h b v r d q) :
    (start op w h).r2Init = (b - A v) ⬝ᵥ (b - A v) := by
  rw [← (start_holds hA hh).2]
  rfl

theorem start_goesOn (hA : op.ActsAs A) (hh : w.Holds h b v r d q)
    (hpositive : (start op w h).positive = true) : (start op w h).GoesOn w A := by
  rw [positive_iff] at hpositive
  refine ⟨hpositive.le, b, v, _, _, _, ⊥, start_holds hA hh, .start A _, ?_, Nat.zero_le _⟩
  intro hzero
  rw [start_r2Init hA hh, hzero, dotProduct_zero] at hpositive
  exact hpositive.false

/-- **An iteration succeeds**, and the loop goes on after it unless it is the last. -/
theorem step_goesOn (config : Config ℚ) (hA : op.ActsAs A) (hpos : IsPositive A)
    (hs : s.GoesOn w A) : ∃ s' last, step op config w s = .ok (s', last) ∧
      s'.r2Init = s.r2Init ∧ (last = false → s'.GoesOn w A) := by
  obtain ⟨hinit, b, v, r, d, q, K, hholds, hconjugate, hr, hiter⟩ := hs
  obtain ⟨s', last, hstep⟩ := exists_step config hA hholds
    (hconjugate.curvature_pos hpos hr).ne' (dotProduct_self_pos hr).ne'
  obtain ⟨hsame, d', hholds', hnext⟩ := step_holds hA hholds hstep
  refine ⟨s', last, hstep, hsame, fun hlast => ?_⟩
  rw [hnext hlast] at hholds'
  have hconverged : ¬ s'.converged config = true := by
    rw [step_converged hstep, hlast]
    exact Bool.false_ne_true
  have hr' : nextResidual A r d ≠ 0 := by
    -- a residual of zero is within every tolerance
    intro hzero
    refine hconverged (converged_iff.2 ?_)
    rw [hholds'.2, hzero, dotProduct_zero, hsame]
    exact mul_nonneg hinit (mul_self_nonneg _)
  refine ⟨hsame ▸ hinit, b, _, _, _, _, _, hholds', hconjugate.next hpos hr, hr', ?_⟩
  rw [(step_counts hstep).1,
    Submodule.finrank_sup_span_singleton (hconjugate.direction_notMem hpos hr)]
  exact Nat.succ_le_succ hiter

/-- **The loop ends after at most as many iterations as there are dimensions**, by induction on the
iterations that it may make. If it may make that many then it has converged. -/
theorem loop_ends_exact (config : Config ℚ) (hA : op.ActsAs A) (hpos : IsPositive A)
    (hs : s.GoesOn w A) (left : ℕ) : ∃ s', loop op config w left s = .ok s' ∧
      s'.r2Init = s.r2Init ∧ s'.iter ≤ op.dim ∧
      (op.dim ≤ s.iter + left → s'.converged config = true) := by
  induction left generalizing s with
  | zero =>
    have hlt := hs.iter_lt
    exact ⟨s, rfl, rfl, hlt.le, fun hle => by omega⟩
  | succ left ih =>
    obtain ⟨s₁, last, hstep, hsame, hnext⟩ := step_goesOn config hA hpos hs
    have hlt := hs.iter_lt
    have hcount := (step_counts hstep).1
    rw [loop, hstep]
    cases last with
    | true => exact ⟨s₁, rfl, hsame, by omega, fun _ => step_converged hstep⟩
    | false =>
      obtain ⟨s₂, hloop, hsame₂, hle, hconverged⟩ := ih (hnext rfl)
      exact ⟨s₂, hloop, hsame₂.trans hsame, hle, fun hdim => hconverged (by omega)⟩

/-- **A solve ends after at most as many iterations as there are dimensions.** -/
theorem solve_ends_exact (config : Config ℚ) (hA : op.ActsAs A) (hpos : IsPositive A)
    (hh : w.Holds h b v r d q) : ∃ s, solve op config w none h = .ok s ∧
      s.r2Init = (b - A v) ⬝ᵥ (b - A v) ∧ s.iter ≤ op.dim ∧
      (op.dim ≤ config.maxIters.toNat → s.converged config = true) := by
  rw [solve, guarded]
  cases hpositive : (start op w h).positive with
  | true =>
    obtain ⟨s, hloop, hsame, hle, hconverged⟩ := loop_ends_exact config hA hpos
      (start_goesOn hA hh hpositive) config.maxIters.toNat
    have hzero : (start op w h).iter = 0 := rfl
    rw [hzero, Nat.zero_add] at hconverged
    rw [if_pos rfl, hloop]
    exact ⟨s, rfl, hsame.trans (start_r2Init hA hh), hle, hconverged⟩
  | false =>
    refine ⟨_, rfl, start_r2Init hA hh, Nat.zero_le _, fun _ => ?_⟩
    have hle : (start op w h).r2Init ≤ 0 :=
      not_lt.1 (mt positive_iff.2 (by rw [hpositive]; exact Bool.false_ne_true))
    have hnonneg : 0 ≤ (start op w h).r2Init := by
      rw [start_r2Init hA hh]
      exact dotProduct_self_nonneg _
    exact converged_iff.2 (hle.trans (mul_nonneg hnonneg (mul_self_nonneg _)))

end Direct

/-! ### Staged solvers -/

/-- The report calls converged what the loop does: in exact arithmetic both have the same
tolerance. -/
theorem Direct.Iterate.report_converged (s : Iterate ℚ) (config : Config ℚ) :
    (s.report config).converged = s.converged config := by
  rw [Iterate.report, Iterate.converged, mul_assoc]

theorem isPositive_mulVecLin {n : ℕ} {M : Matrix (Fin n) (Fin n) ℚ} (hsymm : M.IsSymm)
    (hpos : ∀ x, x ≠ 0 → 0 < x ⬝ᵥ M *ᵥ x) : IsPositive M.mulVecLin where
  symm x y := by
    rw [mulVecLin_apply, mulVecLin_apply, dotProduct_mulVec, ← mulVec_transpose, hsymm.eq]
  pos := hpos

/-- **Conjugate gradients solve a system in as many iterations as it has unknowns.** In exact
arithmetic, let a solver be staged for an operator that acts as a symmetric positive definite
matrix, for a right side and a solution in different buffers, and without a position to step. With
enough fuel a run of it, on any buffers of the right lengths, has a report. It never divides by
zero, and makes no more iterations than there are unknowns. If it may make that many then it has
converged: the squared norm of the residual is down to the tolerance, and without a tolerance the
system is solved. -/
theorem solves_in_dim_iterations (system : System ℚ) (config : Config ℚ) (h₀ : Heap ℚ)
    (M : Matrix (Fin system.operator.dim) (Fin system.operator.dim) ℚ)
    (hM : system.operator.ActsAs M.mulVecLin) (hsymm : M.IsSymm)
    (hpos : ∀ x, x ≠ 0 → 0 < x ⬝ᵥ M *ᵥ x) (hdim : 0 < system.operator.dim)
    (hne : system.rhs ≠ system.solution) (hdt : config.dt = none)
    (h₀fits : h₀.Fits system.operator.dim (system.callers config)) :
    ∃ solver h₁, stage system config h₀ = .ok (solver, h₁) ∧
      h₁.Fits system.operator.dim (system.buffers config h₀) ∧
      ∀ (h : Heap ℚ) (b v : Fin system.operator.dim → ℚ),
        h.Fits system.operator.dim (system.buffers config h₀) →
        h.vector system.operator.dim system.rhs = b →
        h.vector system.operator.dim system.solution = v →
        ∃ r h' v' enough, (∀ fuel, enough ≤ fuel → solver.run fuel h = (.ok r, h')) ∧
          h'.vector system.operator.dim system.solution = v' ∧
          r.iterations.toNat ≤ system.operator.dim ∧
          (system.operator.dim ≤ config.maxIters.toNat → r.converged = true ∧
            (b - M *ᵥ v') ⬝ᵥ (b - M *ᵥ v') ≤
              config.epsilon ^ 2 * ((b - M *ᵥ v) ⬝ᵥ (b - M *ᵥ v)) ∧
            (config.epsilon = 0 → M *ᵥ v' = b)) := by
  have hposition : config.dt.isSome → system.position.isSome := by
    rw [hdt]
    exact nofun
  have hadvance : system.advance config = none := by
    rw [System.advance, hdt]
    rfl
  obtain ⟨h₁, hstage, h₁fits⟩ := stage_succeeds hdim hposition h₀fits
  refine ⟨_, h₁, hstage, h₁fits, ?_⟩
  rintro h _ _ hfits rfl rfl
  have hh := System.holds hdim h₀fits hne hfits
  obtain ⟨s, hsolve, hinit, hle, hconverges⟩ := solve_ends_exact config hM
    (isPositive_mulVecLin hsymm hpos) hh
  obtain ⟨v', d, q, hholds, hnorm⟩ := solve_tracks hM hh hsolve
  obtain ⟨enough, hends⟩ : ∃ enough, ∀ fuel, enough ≤ fuel →
      (system.solver config h₀).EndsAs fuel h config
        (solve system.operator config (system.workspace h₀) (system.advance config) h) :=
    System.solver_endsAs hdim hfits
  rw [hadvance, hsolve] at hends
  refine ⟨s.report config, s.heap, v', enough, fun fuel hfuel => (hends fuel hfuel).1,
    hholds.solution, ?_, fun hmax => ?_⟩
  · have hlimit : s.iter < 2 ^ 32 := (solve_counts hsolve).1.trans_lt config.maxIters.toNat_lt
    exact (UInt32.toNat_ofNat_of_lt hlimit).trans_le hle
  · have hconverged := hconverges hmax
    have htolerance := converged_iff.1 hconverged
    rw [hnorm, hinit, ← sq, mul_comm] at htolerance
    refine ⟨(s.report_converged config).trans hconverged, htolerance, fun hepsilon => ?_⟩
    rw [hepsilon, zero_pow two_ne_zero, zero_mul] at htolerance
    have hzero := dotProduct_self_eq_zero.1 (htolerance.antisymm (dotProduct_self_nonneg _))
    exact (sub_eq_zero.1 hzero).symm

/-- A chain of two unknowns. -/
def springs : DenseMatrix ℚ := ⟨2, [2, -1, -1, 2], rfl⟩

/-- Its system. -/
def springsSystem : System ℚ := ⟨springs.toOperator, ⟨0⟩, ⟨1⟩, none⟩

/-- Its matrix. -/
def springsMatrix : Matrix (Fin springsSystem.operator.dim) (Fin springsSystem.operator.dim) ℚ :=
  springs.toMatrix

/-- Two iterations, and no tolerance. -/
def springsConfig : Config ℚ := ⟨2, 0, none⟩

/-- The right side and the first guess, before a solver is staged. -/
def springsHeap : Heap ℚ := .ofList [[1, 0], [0, 0]]

/-- The buffers at the time of a run, with another right side and another first guess. -/
def springsUsed : Heap ℚ := .ofList [[4, 1], [1, 0], [7, 0], [1, 3], [2, 2]]

theorem springs_pos (x : Fin 2 → ℚ) (hx : x ≠ 0) : 0 < x ⬝ᵥ springs.toMatrix *ᵥ x := by
  have hmatrix : springs.toMatrix = !![2, -1; -1, 2] := by
    ext i j
    fin_cases i <;> fin_cases j <;> rfl
  have hform : x ⬝ᵥ (!![2, -1; -1, 2] : Matrix (Fin 2) (Fin 2) ℚ) *ᵥ x =
      x ⬝ᵥ x + (x 0 - x 1) ^ 2 := by
    simp [dotProduct, mulVec, Fin.sum_univ_two]
    ring
  calc 0 < x ⬝ᵥ x + (x 0 - x 1) ^ 2 :=
        add_pos_of_pos_of_nonneg (dotProduct_self_pos hx) (sq_nonneg _)
    _ = x ⬝ᵥ springs.toMatrix *ᵥ x := by rw [hmatrix]; exact hform.symm

/-- A chain of two unknowns is solved in two iterations. -/
theorem solves_in_dim_iterations_springs :
    springsSystem.operator.ActsAs springsMatrix.mulVecLin ∧ springsMatrix.IsSymm ∧
      (∀ x, x ≠ 0 → 0 < x ⬝ᵥ springsMatrix *ᵥ x) ∧ 0 < springsSystem.operator.dim ∧
      springsSystem.rhs ≠ springsSystem.solution ∧ springsConfig.dt = none ∧
      springsHeap.Fits springsSystem.operator.dim (springsSystem.callers springsConfig) ∧
      springsUsed.Fits springsSystem.operator.dim
        (springsSystem.buffers springsConfig springsHeap) ∧
      springsSystem.operator.dim ≤ springsConfig.maxIters.toNat ∧
      ∃ solver h₁ r h' enough, stage springsSystem springsConfig springsHeap = .ok (solver, h₁) ∧
        (∀ fuel, enough ≤ fuel → solver.run fuel springsUsed = (.ok r, h')) ∧
        r.iterations.toNat ≤ 2 ∧ r.converged = true ∧
        springsMatrix *ᵥ h'.vector springsSystem.operator.dim springsSystem.solution =
          springsUsed.vector springsSystem.operator.dim springsSystem.rhs := by
  have hM : springsSystem.operator.ActsAs springsMatrix.mulVecLin := springs.toOperator_actsAs
  have hsymm : springsMatrix.IsSymm := by
    ext i j
    fin_cases i <;> fin_cases j <;> rfl
  have hfits₀ : springsHeap.Fits springsSystem.operator.dim
      (springsSystem.callers springsConfig) := by decide
  have hfits : springsUsed.Fits springsSystem.operator.dim
      (springsSystem.buffers springsConfig springsHeap) := by decide
  obtain ⟨solver, h₁, hstage, -, hruns⟩ := solves_in_dim_iterations springsSystem springsConfig
    springsHeap springsMatrix hM hsymm springs_pos (by decide) (by decide) rfl hfits₀
  obtain ⟨r, h', v', enough, hrun, rfl, hiterations, hconverges⟩ :=
    hruns springsUsed _ _ hfits rfl rfl
  obtain ⟨hconverged, -, hsolved⟩ := hconverges (by decide)
  exact ⟨hM, hsymm, springs_pos, by decide, by decide, rfl, hfits₀, hfits, by decide, solver, h₁, r,
    h', enough, hstage, hrun, hiterations, hconverged, hsolved rfl⟩

end StagedGraph.Solver
