import StagedGraph.Proofs.Solver.Refusals

/-!
# What may abort

The kernels check their arguments and report what is wrong with them. What they do not check is
the operator: a matrix without rows cannot be applied, not even to the empty vector, and a product
with it aborts once its operands are as they should be. Such a matrix can be made, and a solver can
be staged for it; a run then aborts at its first product (`noRows_aborts`).

That is the only way to an abort. No other kernel and no other matrix aborts, and a run of a
solver that was staged for a matrix ends with a report or an error unless the matrix has no rows
and the solution has no entries (`aborts_iff_no_rows`).
-/

namespace StagedGraph

variable {R : Type} [Scalar R]

/-- A product with a matrix aborts exactly if the matrix has no rows and the operands, which are
empty then, are as they should be. -/
theorem DenseMatrix.matvec_eq_aborted_iff (m : DenseMatrix R) (args : List (Value R))
    (h h' : Heap R) :
    Kernel.matvec m.toOperator args h = .error .aborted h' ↔
      (m.dim = 0 ∧ ∃ out x, Kernel.MatvecOperands m.toOperator args h out x) ∧ h' = h := by
  simp only [Kernel.matvec_eq_aborted_iff, m.apply_eq_none_iff]
  constructor
  · rintro ⟨⟨out, x, ho, hdim⟩, rfl⟩
    exact ⟨⟨hdim, out, x, ho⟩, rfl⟩
  · rintro ⟨⟨hdim, out, x, ho⟩, rfl⟩
    exact ⟨⟨out, x, ho, hdim⟩, rfl⟩

namespace Solver

open Direct

variable {m : DenseMatrix R} {system : System R} {h₀ h : Heap R}

/-- A run of a solver ends with a report, with an error or with an abort. -/
inductive Ended : Except SolverError (Report R) → Prop
  | report (r : Report R) : Ended (.ok r)
  | error (e : EvalError) : Ended (.error (.stopped (.error e)))
  | aborted : Ended (.error (.stopped .aborted))

/-- Where an operator has a positive dimension, a run does not abort, whatever the lengths of the
caller's buffers are. -/
theorem System.run_ends (hdim : 0 < system.operator.dim)
    (hown : h.Fits system.operator.dim (system.workspace h₀).own) (config : Config R) :
    ∃ result, Ended result ∧ result ≠ .error (.stopped .aborted) ∧ ∃ enough, ∀ fuel,
      enough ≤ fuel → ((system.solver config h₀).run fuel h).1 = result := by
  by_cases hfits : h.Fits system.operator.dim (system.callers config)
  · obtain ⟨enough, hends⟩ := System.solver_endsAs hdim (System.fits_buffers hfits hown)
    rcases hsolve : solve system.operator config (system.workspace h₀) (system.advance config) h
      with b | s
    all_goals rw [hsolve] at hends
    · exact ⟨_, .error _, nofun, enough, fun fuel hfuel => congrArg Prod.fst (hends fuel hfuel).1⟩
    · exact ⟨_, .report _, nofun, enough, fun fuel hfuel => congrArg Prod.fst (hends fuel hfuel).1⟩
  · obtain ⟨e, enough, hfails⟩ := System.run_fails hdim hown hfits
    exact ⟨_, .error e, by simp, enough, hfails⟩

/-- Where a matrix has no rows, the first product decides: it aborts if the solution is empty, and
it fails otherwise. -/
theorem System.run_noRows (hop : system.operator = m.toOperator) (hdim : m.dim = 0)
    (hproduct : h.length (system.workspace h₀).product = 0) (config : Config R) :
    ∃ result, Ended result ∧
      (result = .error (.stopped .aborted) ↔ h.length system.solution = 0) ∧
      ∃ enough, ∀ fuel, enough ≤ fuel → ((system.solver config h₀).run fuel h).1 = result := by
  have hop_dim : system.operator.dim = 0 := by rw [hop]; exact hdim
  by_cases hsolution : h.length system.solution = 0
  · have hk : Kernel.matvec system.operator
        [.buffer (system.workspace h₀).product, .buffer system.solution] h = .error .aborted h := by
      rw [hop, m.matvec_eq_aborted_iff, ← hop]
      exact ⟨⟨hdim, _, _, rfl, rfl, hop_dim.trans hsolution.symm, hop_dim.trans hproduct.symm⟩, rfl⟩
    obtain ⟨_, ⟨⟩, hruns⟩ := System.run_refused config hk
    exact ⟨_, .aborted, iff_of_true rfl hsolution, hruns⟩
  · have hlength : h.length system.solution ≠ system.operator.dim := by rwa [hop_dim]
    obtain ⟨message, hk⟩ := Kernel.matvec_refuses hlength (system.workspace h₀).product
    obtain ⟨_, ⟨⟩, hruns⟩ := System.run_refused config hk
    exact ⟨_, .error _, iff_of_false (by simp) hsolution, hruns⟩

/-- A matrix without rows. -/
def noRows : DenseMatrix Float := ⟨0, [], rfl⟩

/-- A system over it. -/
def emptySystem : System Float := ⟨noRows.toOperator, ⟨0⟩, ⟨1⟩, none⟩

/-- The buffers of its caller. -/
def emptyHeap : Heap Float := .ofList [[], []]

/-- The same buffers, and those of a solver. -/
def emptyStaged : Heap Float := .ofList [[], [], [], [], []]

/-- A matrix without rows can be made in both ways. A product with it aborts, and a solver that was
staged for it aborts when it runs. -/
theorem noRows_aborts :
    DenseMatrix.ofRows? [] = some noRows ∧ DenseMatrix.tridiagonal? 0 2.0 (-1.0) = some noRows ∧
      Kernel.matvec noRows.toOperator [.buffer ⟨0⟩, .buffer ⟨1⟩] emptyHeap =
        .error .aborted emptyHeap ∧
      stage emptySystem .default emptyHeap =
        .ok (emptySystem.solver .default emptyHeap, emptyStaged) ∧
      ∃ enough, ∀ fuel, enough ≤ fuel →
        ((emptySystem.solver .default emptyHeap).run fuel emptyStaged).1 =
          .error (.stopped .aborted) := by
  obtain ⟨result, -, haborted, hruns⟩ :=
    System.run_noRows (rfl : emptySystem.operator = noRows.toOperator) rfl
      (rfl : emptyStaged.length (emptySystem.workspace emptyHeap).product = 0) .default
  obtain rfl := haborted.2 rfl
  exact ⟨rfl, rfl, rfl, rfl, hruns⟩

/-- **Only a matrix without rows aborts.** For every matrix and all arguments, the kernels that do
not apply the matrix have a result or an error, and the product has one unless the matrix has no
rows. A solver that was staged for the matrix may have run before, and its caller may have changed
what is in the buffers or how long they are: with enough fuel a run ends, and it ends with a
report or an error unless the matrix has no rows and the solution is empty. -/
theorem aborts_iff_no_rows (m : DenseMatrix R) :
    (∀ (args : List (Value R)) (h h' : Heap R), Kernel.axpy args h ≠ .error .aborted h' ∧
      Kernel.dot args h ≠ .error .aborted h' ∧ Kernel.copy args h ≠ .error .aborted h' ∧
      (Kernel.matvec m.toOperator args h = .error .aborted h' ↔
        (m.dim = 0 ∧ ∃ out x, Kernel.MatvecOperands m.toOperator args h out x) ∧ h' = h)) ∧
    ∀ (system : System R) (config : Config R) (h₀ : Heap R) (solver : Staged R) (h₁ h : Heap R),
      system.operator = m.toOperator → stage system config h₀ = .ok (solver, h₁) →
      solver.Later (system.workspace h₀).own h₁ h →
      ∃ result, Ended result ∧
        (result = .error (.stopped .aborted) ↔ m.dim = 0 ∧ h.length system.solution = 0) ∧
        ∃ enough, ∀ fuel, enough ≤ fuel → (solver.run fuel h).1 = result := by
  refine ⟨fun args h h' => ⟨Kernel.axpy_ne_aborted args h h', Kernel.dot_ne_aborted args h h',
    Kernel.copy_ne_aborted args h h', m.matvec_eq_aborted_iff args h h'⟩, ?_⟩
  intro system config h₀ solver h₁ h hop hstage hlater
  have hdim : system.operator.dim = m.dim := by rw [hop]; rfl
  have hfills : system.operator.Fills := hop ▸ m.toOperator_fills
  have h₁own := holds_own hstage
  obtain ⟨-, -, -, rfl, -⟩ := stage_checks hstage
  have hown := hlater.keeps_own hfills h₁own
  rcases Nat.eq_zero_or_pos m.dim with hzero | hpos
  · have hproduct := (hown (system.workspace h₀).product (by simp [Workspace.own])).length
    obtain ⟨result, hended, haborted, hruns⟩ :=
      System.run_noRows hop hzero (hproduct.trans (hdim.trans hzero)) config
    exact ⟨result, hended, haborted.trans (and_iff_right hzero).symm, hruns⟩
  · obtain ⟨result, hended, hne, hruns⟩ :=
      System.run_ends (hdim ▸ hpos) (fun b hb => (hown b hb).length) config
    exact ⟨result, hended, iff_of_false hne fun h => absurd h.1 (Nat.ne_of_gt hpos), hruns⟩

/-- A solver for a matrix without rows aborts on the buffers that it was staged on. Once its caller
has put an entry into the solution, it does not. -/
theorem aborts_iff_no_rows_emptySystem :
    emptySystem.operator = noRows.toOperator ∧
      stage emptySystem .default emptyHeap =
        .ok (emptySystem.solver .default emptyHeap, emptyStaged) ∧
      (∃ enough, ∀ fuel, enough ≤ fuel →
        ((emptySystem.solver .default emptyHeap).run fuel emptyStaged).1 =
          .error (.stopped .aborted)) ∧
      (emptySystem.solver .default emptyHeap).Later (emptySystem.workspace emptyHeap).own
        emptyStaged (emptyStaged.write ⟨1⟩ [1.0]) ∧
      ∃ result, Ended result ∧ result ≠ .error (.stopped .aborted) ∧ ∃ enough, ∀ fuel,
        enough ≤ fuel → ((emptySystem.solver .default emptyHeap).run fuel
          (emptyStaged.write ⟨1⟩ [1.0])).1 = result := by
  have hstage : stage emptySystem .default emptyHeap =
      .ok (emptySystem.solver .default emptyHeap, emptyStaged) := rfl
  have hforeign : (⟨1⟩ : BufferId) ∉ (emptySystem.workspace emptyHeap).own := by decide
  have hlater : (emptySystem.solver .default emptyHeap).Later
      (emptySystem.workspace emptyHeap).own emptyStaged (emptyStaged.write ⟨1⟩ [1.0]) :=
    .write (fun hmem => absurd hmem hforeign) .staged
  obtain ⟨_, -, haborted, hruns⟩ :=
    (aborts_iff_no_rows noRows).2 emptySystem .default emptyHeap _ _ _ rfl hstage .staged
  obtain rfl := haborted.2 ⟨rfl, rfl⟩
  obtain ⟨result, hended, hiff, hothers⟩ :=
    (aborts_iff_no_rows noRows).2 emptySystem .default emptyHeap _ _ _ rfl hstage hlater
  have hne : result ≠ .error (.stopped .aborted) := fun h => absurd (hiff.1 h).2 (by decide)
  exact ⟨rfl, hstage, hruns, hlater, result, hended, hne, hothers⟩

end Solver

end StagedGraph
