import StagedGraph.Proofs.LoopTests
import StagedGraph.Proofs.Solver.Convergence
import StagedGraph.Proofs.Solver.Exact

/-!
# The residual that is carried along

The solver computes a residual from its definition only once. After that every iteration subtracts
from it what the step takes away, and keeps the square of its norm in `r_2_new`. Rounding makes
the residual that is carried along differ from the true one. In exact arithmetic it does not, for
whatever linear map: this is so wherever the loop is tested, and in every report
(`residual_is_true`).

A run tests its loop where the direct solver tests whether to go on (`heads_of_testsLoop`,
`exists_testsLoop`), whatever its scalars are. What is left is to follow the residual along the
steps of the direct solver.
-/

namespace StagedGraph.Solver

open Direct Interpreter Matrix Relation

/-! ### Where the loop is tested -/

section Tests

variable {R : Type} [Scalar R] {p : Program R (Heap R)} {op : LinearOperator R}
  {config : Config R} {w : Workspace} {bs : List BufferId} {h : Heap R} {s s' : Iterate R}
  {t u : RunState R (Heap R)} {cond : ExprId} {body : BlockId}

/-- Where the direct solver finds out whether there is another iteration to make. -/
inductive Direct.Heads (op : LinearOperator R) (config : Config R) (w : Workspace) (h : Heap R) :
    Iterate R → Prop
  | start : (start op w h).positive = true → Heads op config w h (start op w h)
  | next {s s' : Iterate R} : Heads op config w h s → s.iter < config.maxIters.toNat →
      step op config w s = .ok (s', false) → Heads op config w h s'

theorem Direct.Heads.iter_le (hs : Heads op config w h s) : s.iter ≤ config.maxIters.toNat := by
  cases hs with
  | start _ => exact Nat.zero_le _
  | next _ hlt hstep =>
    have hcount := (step_counts hstep).1
    omega

/-- The loop of the staged program, with its condition and its body. -/
structure IsLoop (p : Program R (Heap R)) (config : Config R) (w : Workspace) (cond : ExprId)
    (body : BlockId) : Prop where
  cond : (Text.call (Text.native .lt)
    [.var Text.iter, .literal (.int (Int64.ofNat config.maxIters.toNat))]).At p cond
  body : Code.AtBlock p (Text.body config w) body

/-- Where the loop is tested again, the direct solver goes on. -/
theorem stands_of_repeats (hs : Setting p op w bs) (hloop : IsLoop p config w cond body)
    (h : Stands p op w bs s t) (hlimit : s.iter ≤ config.maxIters.toNat)
    (hagain : Repeats p .shared cond body t u) :
    ∃ s', s.iter < config.maxIters.toNat ∧ step op config w s = .ok (s', false) ∧
      Stands p op w bs s' u := by
  have hmax : config.maxIters.toNat < 2 ^ 32 := config.maxIters.toNat_lt
  obtain ⟨t₁, htest, hbodyAgain⟩ := hagain
  obtain ⟨t₂, htest', h₁⟩ := count_tests config.maxIters hs h (by omega)
  obtain ⟨hholds, rfl⟩ := htest.unique (htest'.settles hloop.cond)
  have hiter : s.iter < config.maxIters.toNat :=
    of_decide_eq_true (Except.ok.inj hholds).symm
  obtain ⟨r, t₂, hrun, hmirrors⟩ := body_simulates config hs h₁ (by omega)
  have hiterates : Iterates p .shared (Text.body config w) t₁ r t₂ := hrun
  obtain ⟨rfl, rfl⟩ := hbodyAgain.unique (hiterates.settles hloop.body)
  rcases hstep : step op config w s with b | ⟨s', last⟩
  all_goals rw [hstep] at hmirrors
  · cases hmirrors.1
  · obtain ⟨hlast, hstands⟩ := hmirrors
    cases last with
    | true => cases hlast
    | false => exact ⟨s', hiter, rfl, hstands⟩

/-- Where the direct solver goes on, the loop is tested again. -/
theorem exists_repeats (hs : Setting p op w bs) (hloop : IsLoop p config w cond body)
    (h : Stands p op w bs s t) (hiter : s.iter < config.maxIters.toNat)
    (hstep : step op config w s = .ok (s', false)) :
    ∃ u, Repeats p .shared cond body t u ∧ Stands p op w bs s' u := by
  have hmax : config.maxIters.toNat < 2 ^ 32 := config.maxIters.toNat_lt
  obtain ⟨t₁, htest, h₁⟩ := count_tests config.maxIters hs h (by omega)
  rw [decide_eq_true hiter] at htest
  obtain ⟨r, t₂, hrun, hmirrors⟩ := body_simulates config hs h₁ (by omega)
  rw [hstep] at hmirrors
  obtain ⟨rfl, h₂⟩ := hmirrors
  have hiterates : Iterates p .shared (Text.body config w) t₁ (.ok .normal) t₂ := hrun
  exact ⟨t₂, ⟨t₁, htest.settles hloop.cond, hiterates.settles hloop.body⟩, h₂⟩

theorem body_isShallow (config : Config R) (w : Workspace) :
    ∀ code ∈ Text.body config w, code.isShallow = true := by
  simp [Text.body, Text.apply, Text.measure, Text.move, Text.finish, Text.stop, Text.weigh,
    Text.turn, Code.isShallow, Code.isPlain]

/-- The loop of a staged program stands under the condition that follows the setup, and nothing
else is a loop. -/
theorem exists_loop (hs : Setting p op w bs) (hp : p.LoopsOutside) (hfits : h.Fits op.dim bs)
    {position : Option (R × BufferId)} {root : BlockId}
    (hroot : Code.AtBlock p (stagedText config w position) root) :
    ∃ cond body t₀, IsLoop p config w cond body ∧ Stands p op w bs (start op w h) t₀ ∧
      ∀ t, TestsLoop p .shared (.program root) (.fresh h) t ↔
        (start op w h).positive = true ∧ ReflTransGen (Repeats p .shared cond body) t₀ t := by
  obtain ⟨st, after, hst, hafter, hdrop⟩ := List.forall₂_cons_left_iff.1
    (List.forall₂_drop_append _ _ _ hroot.flip).flip
  have hbefore := (List.forall₂_take_append _ _ _ hroot.flip).flip
  obtain ⟨t₁, hsetup, h₁⟩ := setup_simulates hs hfits
  obtain ⟨t₂, hpositive, h₂⟩ := positive_tests hs h₁
  cases hst with
  | @ifThen _ guard _ b hguard hb =>
    obtain ⟨st, rest, hst, hrest, hblock⟩ := List.forall₂_cons_left_iff.1 hb
    cases hrest
    cases hst with
    | @whileLoop _ cond _ body hcond hbody =>
      have hplain := Code.guarded_eq_nil hbefore (setup_isPlain (R := R) w)
      have hplainAfter := Code.guarded_eq_nil hafter (advance_isPlain w position)
      have hfree : p.LoopFree body :=
        Program.loopFree_iff.2 (Code.all_loopFree hbody (body_isShallow config w))
      refine ⟨cond, body, t₂, ⟨hcond, hbody⟩, h₂, fun t => ?_⟩
      rw [testsLoop_program_iff,
        ← List.take_append_drop (Text.setup (R := R) w).length (p.block root), hdrop,
        testsLoop_append_iff hp (fun st hst => .of_unguarded (hplain st hst)) (hsetup _ hbefore),
        testsLoop_ifThen_iff hp (fun st hst => .of_unguarded (hplainAfter st hst))
          (hpositive.settles hguard), hblock, testsLoop_while_iff hp hfree]

/-- **The loop of a staged program is tested where the direct solver tests.** -/
theorem heads_of_testsLoop (hs : Setting p op w bs) (hp : p.LoopsOutside)
    (hfits : h.Fits op.dim bs) {position : Option (R × BufferId)} {root : BlockId}
    (hroot : Code.AtBlock p (stagedText config w position) root)
    (htests : TestsLoop p .shared (.program root) (.fresh h) t) :
    ∃ s, Heads op config w h s ∧ Stands p op w bs s t := by
  obtain ⟨cond, body, t₀, hloop, hstart, hiff⟩ := exists_loop hs hp hfits hroot
  obtain ⟨hpositive, hchain⟩ := (hiff t).1 htests
  induction hchain with
  | refl => exact ⟨_, .start hpositive, hstart⟩
  | tail _ hagain ih =>
    obtain ⟨s, hheads, hstands⟩ := ih ((hiff _).2 ⟨hpositive, ‹_›⟩)
    obtain ⟨s', hlt, hstep, hstands'⟩ := stands_of_repeats hs hloop hstands hheads.iter_le hagain
    exact ⟨s', .next hheads hlt hstep, hstands'⟩

/-- **Where the direct solver tests, the loop of a staged program is tested.** -/
theorem exists_testsLoop (hs : Setting p op w bs) (hp : p.LoopsOutside)
    (hfits : h.Fits op.dim bs) {position : Option (R × BufferId)} {root : BlockId}
    (hroot : Code.AtBlock p (stagedText config w position) root) (hheads : Heads op config w h s) :
    ∃ t, TestsLoop p .shared (.program root) (.fresh h) t ∧ Stands p op w bs s t := by
  obtain ⟨cond, body, t₀, hloop, hstart, hiff⟩ := exists_loop hs hp hfits hroot
  suffices hchain : (start op w h).positive = true ∧
      ∃ t, ReflTransGen (Repeats p .shared cond body) t₀ t ∧ Stands p op w bs s t by
    obtain ⟨hpositive, t, hchain, hstands⟩ := hchain
    exact ⟨t, (hiff t).2 ⟨hpositive, hchain⟩, hstands⟩
  induction hheads with
  | start hpositive => exact ⟨hpositive, t₀, .refl, hstart⟩
  | next _ hlt hstep ih =>
    obtain ⟨hpositive, t, hchain, hstands⟩ := ih
    obtain ⟨u, hagain, hstands'⟩ := exists_repeats hs hloop hstands hlt hstep
    exact ⟨hpositive, u, hchain.tail hagain, hstands'⟩

/-- The one function of a staged program has no loop in its body. -/
theorem staged_loopsOutside (op : LinearOperator R) (config : Config R) (w : Workspace)
    (position : Option (R × BufferId)) :
    (stagedProgram op config w position).2.LoopsOutside := by
  refine fun f => .of_unguarded ?_
  obtain ⟨_ | n⟩ := f
  · exact Code.guarded_eq_nil (staged_meant op config w position).mul_body
      (by simp [Text.mulBody, Code.isPlain])
  · rw [Program.body_of_size_le (by rw [staged_funcs]; exact Nat.le_add_left 1 n)]
    exact List.forall_mem_nil _

theorem System.setting (system : System R) (hdim : 0 < system.operator.dim) (config : Config R)
    (h₀ : Heap R) : Setting (system.solver config h₀).program system.operator
      (system.workspace h₀) (system.buffers config h₀) :=
  ⟨system.solver_meant config h₀, hdim, fun _ hb => List.mem_append_left _ hb⟩

theorem System.loopsOutside (system : System R) (config : Config R) (h₀ : Heap R) :
    (system.solver config h₀).program.LoopsOutside :=
  system.solver_program config h₀ ▸ staged_loopsOutside _ _ _ _

/-- A run of the solver on these buffers tests its loop in this state. -/
def Staged.TestsLoop (solver : Staged R) (h : Heap R) (t : RunState R (Heap R)) : Prop :=
  Interpreter.TestsLoop solver.program ExecutionConfig.default.loopScope (.program solver.root)
    (.fresh h) t

variable {system : System R} {h₀ : Heap R}

/-- What a run has when it tests its loop is what the direct solver has. -/
theorem System.heads_of_testsLoop (hdim : 0 < system.operator.dim)
    (hfits : h.Fits system.operator.dim (system.buffers config h₀))
    (htests : (system.solver config h₀).TestsLoop h t) :
    ∃ s, Heads system.operator config (system.workspace h₀) h s ∧ t.host = s.heap ∧
      Shows s (shown (system.solver config h₀).program t) := by
  have hs := system.setting hdim config h₀
  obtain ⟨s, hheads, hstands⟩ := Solver.heads_of_testsLoop hs (system.loopsOutside config h₀) hfits
    (system.solver_text config h₀) htests
  exact ⟨s, hheads, hstands.host, hstands.shows hs⟩

/-- Where the direct solver tests, a run tests its loop. -/
theorem System.exists_testsLoop (hdim : 0 < system.operator.dim)
    (hfits : h.Fits system.operator.dim (system.buffers config h₀))
    (hheads : Heads system.operator config (system.workspace h₀) h s) :
    ∃ t, (system.solver config h₀).TestsLoop h t ∧ t.host = s.heap ∧
      Shows s (shown (system.solver config h₀).program t) := by
  have hs := system.setting hdim config h₀
  obtain ⟨t, htests, hstands⟩ := Solver.exists_testsLoop hs (system.loopsOutside config h₀) hfits
    (system.solver_text config h₀) hheads
  exact ⟨t, htests, hstands.host, hstands.shows hs⟩

end Tests

/-! ### The residual -/

namespace Direct

variable {op : LinearOperator ℚ} {config : Config ℚ} {w : Workspace} {s s' : Iterate ℚ}
  {A : (Fin op.dim → ℚ) →ₗ[ℚ] (Fin op.dim → ℚ)} {b v r d q : Fin op.dim → ℚ} {h : Heap ℚ}

/-- The residual of an iterate is that of its solution. -/
def Iterate.Tracks (s : Iterate ℚ) (w : Workspace) (A : (Fin op.dim → ℚ) →ₗ[ℚ] (Fin op.dim → ℚ))
    (b : Fin op.dim → ℚ) : Prop :=
  ∃ v d q, s.Holds w b v (b - A v) d q

theorem start_tracks (hA : op.ActsAs A) (hh : w.Holds h b v r d q) :
    (start op w h).Tracks w A b :=
  ⟨v, _, _, start_holds hA hh⟩

/-- The step that the residual takes is the image of the step of the solution. -/
theorem nextResidual_eq (A : (Fin op.dim → ℚ) →ₗ[ℚ] (Fin op.dim → ℚ)) (b v d : Fin op.dim → ℚ) :
    nextResidual A (b - A v) d = b - A (v + stride A (b - A v) d • d) := by
  rw [nextResidual, map_add, map_smul, sub_sub]

theorem step_tracks {last : Bool} (hA : op.ActsAs A) (hs : s.Tracks w A b)
    (hstep : step op config w s = .ok (s', last)) : s'.Tracks w A b := by
  obtain ⟨v, d, q, hs⟩ := hs
  obtain ⟨-, d', hs', -⟩ := step_holds hA hs hstep
  rw [nextResidual_eq] at hs'
  exact ⟨_, d', _, hs'⟩

/-- **At every test of the loop the residual is that of the solution.** -/
theorem Heads.tracks (hA : op.ActsAs A) (hh : w.Holds h b v r d q)
    (hs : Heads op config w h s) : s.Tracks w A b := by
  induction hs with
  | start _ => exact start_tracks hA hh
  | next _ _ hstep ih => exact step_tracks hA ih hstep

theorem loop_tracks {left : ℕ} (hA : op.ActsAs A) (hs : s.Tracks w A b)
    (hloop : loop op config w left s = .ok s') : s'.Tracks w A b := by
  induction left generalizing s with
  | zero =>
    cases hloop
    exact hs
  | succ left ih =>
    rw [loop] at hloop
    rcases hstep : step op config w s with why | ⟨s₁, last⟩
    · rw [hstep] at hloop
      cases hloop
    · rw [hstep] at hloop
      have hs₁ := step_tracks hA hs hstep
      cases last with
      | true =>
        cases hloop
        exact hs₁
      | false => exact ih hs₁ hloop

/-- **At the end of a solve the residual is that of the solution**, whether there was a loop or
not. -/
theorem solve_tracks (hA : op.ActsAs A) (hh : w.Holds h b v r d q)
    (hsolve : solve op config w none h = .ok s) : s.Tracks w A b := by
  rw [solve, guarded] at hsolve
  split at hsolve
  · rcases hloop : loop op config w config.maxIters.toNat (start op w h) with why | s₁
    · rw [hloop] at hsolve
      cases hsolve
    · rw [hloop] at hsolve
      cases hsolve
      exact loop_tracks hA (start_tracks hA hh) hloop
  · cases hsolve
    exact start_tracks hA hh

end Direct

/-! ### Staged solvers -/

section Runs

variable {system : System ℚ} {config : Config ℚ} {h₀ h h' : Heap ℚ}

/-- A workspace has different buffers if the right side and the solution do not share one. -/
theorem System.workspace_nodup (hdim : 0 < system.operator.dim)
    (hfits : h₀.Fits system.operator.dim (system.callers config))
    (hne : system.rhs ≠ system.solution) : (system.workspace h₀).all.Nodup := by
  have hold (b : BufferId) (hb : b ∈ system.callers config) (i : ℕ) :
      b ≠ ⟨h₀.contents.size + i⟩ := by
    have hallocated : b.index < h₀.contents.size :=
      Heap.allocated_of_length_pos (by rw [hfits b hb]; exact hdim)
    rintro rfl
    exact absurd hallocated (Nat.not_lt.2 (Nat.le_add_right _ i))
  have hrhs := hold system.rhs (by simp [System.callers])
  have hsolution := hold system.solution (by simp [System.callers])
  rw [System.workspace_eq]
  simp only [Workspace.all, List.nodup_cons, List.mem_cons, List.not_mem_nil, or_false, not_or,
    List.nodup_nil, and_true, not_false_eq_true, BufferId.mk.injEq]
  exact ⟨⟨hne, hrhs 0, hrhs 1, hrhs 2⟩, ⟨hsolution 0, hsolution 1, hsolution 2⟩, by omega,
    by omega⟩

/-- A run with a report leaves the buffers that the direct solver leaves. -/
theorem System.solve_of_run {fuel : ℕ} {r : Report ℚ} (hdim : 0 < system.operator.dim)
    (hfits : h.Fits system.operator.dim (system.buffers config h₀))
    (hrun : (system.solver config h₀).run fuel h = (.ok r, h')) :
    ∃ s, solve system.operator config (system.workspace h₀) (system.advance config) h = .ok s ∧
      r = s.report config ∧ h' = s.heap := by
  obtain ⟨enough, hends⟩ := System.solver_endsAs hdim hfits
  have hmore := hends (max enough fuel) (Nat.le_max_left ..)
  have heq := Staged.run_eq_of_le (Nat.le_max_right enough fuel) (by rw [hrun]; nofun)
  rcases hsolve : solve system.operator config (system.workspace h₀) (system.advance config) h
    with why | s
  all_goals
    rw [hsolve] at hmore
    have hout := hmore.1
    rw [heq, hrun] at hout
  · cases hout
  · obtain ⟨hreport, hheap⟩ := Prod.mk.inj hout
    exact ⟨s, rfl, Except.ok.inj hreport, hheap⟩

theorem System.holds (hdim : 0 < system.operator.dim)
    (h₀fits : h₀.Fits system.operator.dim (system.callers config))
    (hne : system.rhs ≠ system.solution)
    (hfits : h.Fits system.operator.dim (system.buffers config h₀)) :
    (system.workspace h₀).Holds h (h.vector system.operator.dim system.rhs)
      (h.vector system.operator.dim system.solution)
      (h.vector system.operator.dim (system.workspace h₀).residual)
      (h.vector system.operator.dim (system.workspace h₀).direction)
      (h.vector system.operator.dim (system.workspace h₀).product) :=
  .of_fits hdim (System.workspace_nodup hdim h₀fits hne)
    fun b hb => hfits b (List.mem_append_left _ hb)

/-- **The residual that is carried along is the true one.** In exact arithmetic, let a solver be
staged for an operator that acts as a linear map, and for a right side and a solution in different
buffers. Whenever a run of it, on any buffers of the right lengths, comes to test whether to go on
with its loop, the residual is the right side less the image of the solution, and `r_2_new` is its
squared norm. If there is no position to step then every report has the squared norm of the
residual of the solution that the run leaves. -/
theorem residual_is_true (system : System ℚ) (config : Config ℚ) (h₀ : Heap ℚ)
    (A : (Fin system.operator.dim → ℚ) →ₗ[ℚ] (Fin system.operator.dim → ℚ))
    (hA : system.operator.ActsAs A) (hdim : 0 < system.operator.dim)
    (hne : system.rhs ≠ system.solution) (hposition : config.dt.isSome → system.position.isSome)
    (h₀fits : h₀.Fits system.operator.dim (system.callers config)) :
    ∃ solver h₁, stage system config h₀ = .ok (solver, h₁) ∧
      h₁.Fits system.operator.dim (system.buffers config h₀) ∧
      ∀ (h : Heap ℚ) (b : Fin system.operator.dim → ℚ),
        h.Fits system.operator.dim (system.buffers config h₀) →
        h.vector system.operator.dim system.rhs = b →
        (∀ t v r, solver.TestsLoop h t →
          t.host.vector system.operator.dim system.solution = v →
          t.host.vector system.operator.dim (system.workspace h₀).residual = r →
          r = b - A v ∧
            (shown solver.program t).find? "r_2_new" = some (.float (r ⬝ᵥ r))) ∧
        (config.dt = none → ∀ fuel report h' v, solver.run fuel h = (.ok report, h') →
          h'.vector system.operator.dim system.solution = v →
          report.residualSq = (b - A v) ⬝ᵥ (b - A v)) := by
  obtain ⟨h₁, hstage, h₁fits⟩ := stage_succeeds hdim hposition h₀fits
  refine ⟨_, h₁, hstage, h₁fits, ?_⟩
  rintro h _ hfits rfl
  have hh := System.holds hdim h₀fits hne hfits
  constructor
  · rintro t _ _ htests rfl rfl
    obtain ⟨s, hheads, hhost, hshows⟩ := System.heads_of_testsLoop hdim hfits htests
    obtain ⟨v, d, q, hholds, hnorm⟩ := hheads.tracks hA hh
    have hsolution : s.heap.vector system.operator.dim system.solution = v := hholds.solution
    rw [hhost, hholds.residual, hsolution]
    exact ⟨rfl, hnorm ▸ hshows.r2New⟩
  · rintro hdt fuel report h' _ hrun rfl
    obtain ⟨s, hsolve, rfl, rfl⟩ := System.solve_of_run hdim hfits hrun
    have hadvance : system.advance config = none := by
      rw [System.advance, hdt]
      rfl
    rw [hadvance] at hsolve
    obtain ⟨v, d, q, hholds, hnorm⟩ := solve_tracks hA hh hsolve
    have hsolution : s.heap.vector system.operator.dim system.solution = v := hholds.solution
    rw [hsolution]
    exact hnorm

end Runs

/-- A matrix that is not symmetric. -/
def skewMatrix : DenseMatrix ℚ := ⟨2, [2, 1, 0, 2], rfl⟩

/-- A system of two unknowns with this matrix. -/
def skew : System ℚ := ⟨skewMatrix.toOperator, ⟨0⟩, ⟨1⟩, none⟩

/-- Two iterations, and no tolerance. -/
def skewConfig : Config ℚ := ⟨2, 0, none⟩

/-- The right side and the first guess. -/
def skewHeap : Heap ℚ := .ofList [[1, 1], [0, 0]]

/-- The buffers at the time of a run, the solver's own not cleared. -/
def skewUsed : Heap ℚ := .ofList [[1, 1], [0, 0], [7, 0], [1, 3], [2, 2]]

/-- The linear map of this matrix. -/
def skewMap : (Fin skew.operator.dim → ℚ) →ₗ[ℚ] (Fin skew.operator.dim → ℚ) :=
  skewMatrix.toMatrix.mulVecLin

/-- A run that tests its loop after one iteration, and that has a report. -/
theorem residual_is_true_skew :
    skew.operator.ActsAs skewMap ∧ 0 < skew.operator.dim ∧
      skew.rhs ≠ skew.solution ∧ (skewConfig.dt.isSome → skew.position.isSome) ∧
      skewHeap.Fits skew.operator.dim (skew.callers skewConfig) ∧
      skewUsed.Fits skew.operator.dim (skew.buffers skewConfig skewHeap) ∧
      ∃ solver h₁, stage skew skewConfig skewHeap = .ok (solver, h₁) ∧
        (∃ t, solver.TestsLoop skewUsed t ∧
          (shown solver.program t).find? "iter" = some (.int 1) ∧
          t.host.vector skew.operator.dim (skew.workspace skewHeap).residual =
            skewUsed.vector skew.operator.dim skew.rhs -
              skewMap (t.host.vector skew.operator.dim skew.solution)) ∧
        ∃ fuel r h', solver.run fuel skewUsed = (.ok r, h') ∧ r.residualSq =
          (skewUsed.vector skew.operator.dim skew.rhs -
              skewMap (h'.vector skew.operator.dim skew.solution)) ⬝ᵥ
            (skewUsed.vector skew.operator.dim skew.rhs -
              skewMap (h'.vector skew.operator.dim skew.solution)) := by
  have hA : skew.operator.ActsAs skewMap := skewMatrix.toOperator_actsAs
  have hfits₀ : skewHeap.Fits skew.operator.dim (skew.callers skewConfig) := by decide
  have hfits : skewUsed.Fits skew.operator.dim (skew.buffers skewConfig skewHeap) := by decide
  obtain ⟨solver, h₁, hstage, -, htrue⟩ := residual_is_true skew skewConfig skewHeap skewMap hA
    (by decide) (by decide) nofun hfits₀
  obtain ⟨htests, hreports⟩ := htrue skewUsed _ hfits rfl
  obtain ⟨rfl, -, -⟩ := stage_eq_ok (by decide) hstage
  refine ⟨hA, by decide, by decide, nofun, hfits₀, hfits, _, h₁, hstage, ?_, ?_⟩
  · have hstep : (step skew.operator skewConfig (skew.workspace skewHeap)
        (start skew.operator (skew.workspace skewHeap) skewUsed)).toOption.map Prod.snd =
          some false := by decide +kernel
    rcases hs : step skew.operator skewConfig (skew.workspace skewHeap)
      (start skew.operator (skew.workspace skewHeap) skewUsed) with why | ⟨s, last⟩
    all_goals rw [hs] at hstep
    · cases hstep
    · obtain rfl : last = false := Option.some.inj hstep
      obtain ⟨t, ht, -, hshows⟩ := System.exists_testsLoop (by decide) hfits
        (.next (.start (by decide +kernel)) (by decide) hs)
      have hiter := hshows.iter
      rw [(step_counts hs).1] at hiter
      exact ⟨t, ht, hiter, (htests t _ _ ht rfl rfl).1⟩
  · have hcomes : (solve skew.operator skewConfig (skew.workspace skewHeap)
        (skew.advance skewConfig) skewUsed).toOption.map Iterate.iter = some 2 := by decide +kernel
    obtain ⟨s, fuel, -, -, hruns⟩ := System.run_of_solve (by decide) hfits hcomes
    have hrun := hruns fuel (Nat.le_refl fuel)
    exact ⟨fuel, _, _, hrun, hreports rfl fuel _ _ _ hrun rfl⟩

end StagedGraph.Solver
