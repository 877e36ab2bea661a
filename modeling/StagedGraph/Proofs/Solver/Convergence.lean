import StagedGraph.Proofs.LoopExits
import StagedGraph.Proofs.Solver.Refusals

/-!
# What a report says of convergence

The loop of a staged program is left by its break exactly if the squared residual is at most
`r_2_init * (epsilon * epsilon)` at the end. The report compares with
`r_2_init * epsilon * epsilon` instead. Multiplication of doubles is not associative, so that
the two may differ: the report is right about the loop exactly if the two comparisons agree
(`report_converged_iff`), and there is a system for which they do not
(`capped_reported_converged`).
-/

namespace StagedGraph.Solver

open Direct Interpreter

variable {R : Type} [Scalar R] {p : Program R (Heap R)} {op : LinearOperator R}
  {config : Config R} {w : Workspace} {bs : List BufferId} {h h' h₀ h₁ : Heap R}

/-! ### The direct solver -/

namespace Direct

variable {s s' : Iterate R} {last : Bool}

/-- An iteration is the last exactly if the squared residual is small enough after it. -/
theorem Iterate.finish_converged {r2 : R} (h : s.finish config w r2 = .ok (s', last)) :
    s'.converged config = last := by
  rw [finish] at h
  split at h
  · next hc =>
    cases h
    exact hc
  · next hc =>
    rcases hb : quotient s s.r2New r2 with b | beta
    · rw [hb] at h
      cases h
    · rw [hb] at h
      cases h
      exact eq_false_of_ne_true hc

/-- A report counts the iterations, as long as there are not too many for its number. -/
theorem Iterate.report_iterations_pos (config : Config R) (hs : s.iter < 2 ^ 32) :
    0 < (s.report config).iterations ↔ 0 < s.iter := by
  have hcount : (s.report config).iterations.toNat = s.iter := UInt32.toNat_ofNat_of_lt hs
  rw [UInt32.lt_iff_toNat_lt, hcount]
  exact Iff.rfl

theorem step_converged (h : step op config w s = .ok (s', last)) : s'.converged config = last := by
  rw [step] at h
  rcases ha : quotient (s.apply op w) (s.apply op w).r2New
    ((s.apply op w).heap.dot w.direction w.product) with b | alpha
  · rw [ha] at h
    cases h
  · rw [ha] at h
    exact Iterate.finish_converged h

end Direct

/-! ### The loop -/

variable {s s' : Iterate R} {t : RunState R (Heap R)}

/-- **The loop is left by its break exactly if the residual is small enough at the end**, by
induction on the iterations left. At the start there is an iteration to come, or there is no
convergence yet. -/
theorem breaksOff_loop_iff (left : Nat) (hs : Setting p op w bs) (h : Stands p op w bs s t)
    (hleft : s.iter + left = config.maxIters.toNat)
    (hstart : s.converged config = false ∨ 0 < left)
    (hloop : Direct.loop op config w left s = .ok s')
    {cond : ExprId} {body : BlockId} (hcond : (Text.call (Text.native .lt)
      [.var Text.iter, .literal (.int (Int64.ofNat config.maxIters.toNat))]).At p cond)
    (hbody : Code.AtBlock p (Text.body config w) body) :
    BreaksOff p .shared cond body t ↔ s'.converged config = true := by
  have hlimit : config.maxIters.toNat < 2 ^ 32 := config.maxIters.toNat_lt
  induction left generalizing s t with
  | zero =>
    cases hloop
    obtain ⟨t₁, htest, -⟩ := count_tests config.maxIters hs h (by omega)
    rw [decide_eq_false (by omega)] at htest
    rw [hstart.resolve_right (Nat.lt_irrefl 0)]
    exact iff_of_false (not_breaksOff (htest.settles hcond)) Bool.false_ne_true
  | succ left ih =>
    obtain ⟨t₁, htest, h₁⟩ := count_tests config.maxIters hs h (by omega)
    rw [decide_eq_true (by omega)] at htest
    have htest := htest.settles hcond
    obtain ⟨r, t₂, hrun, hmirrors⟩ := body_simulates config hs h₁ (by omega)
    have hiterates : Iterates p .shared (Text.body config w) t₁ r t₂ := hrun
    have hiteration := hiterates.settles hbody
    rw [Direct.loop] at hloop
    rcases hstep : step op config w s with b | ⟨s₁, last⟩
    · rw [hstep] at hloop
      cases hloop
    · rw [hstep] at hloop hmirrors
      obtain ⟨rfl, h₂⟩ := hmirrors
      have hconverged := step_converged hstep
      cases last with
      | true =>
        cases hloop
        exact iff_of_true (.now htest hiteration) hconverged
      | false =>
        have hiter := (step_counts hstep).1
        exact (breaksOff_iff htest hiteration).trans (ih h₂ (by omega) (.inl hconverged) hloop)

/-- The statements of the staged program are a loop under a condition, and others that are
neither. -/
theorem setup_isPlain (w : Workspace) : ∀ code ∈ Text.setup (R := R) w, code.isPlain = true := by
  simp [Text.setup, Code.isPlain]

omit [Scalar R] in
theorem advance_isPlain (w : Workspace) (position : Option (R × BufferId)) :
    ∀ code ∈ Text.advance w position, code.isPlain = true := by
  rcases position with _ | ⟨dt, x⟩ <;> simp [Text.advance, Code.isPlain]

/-- A solve that made an iteration came to its loop. -/
theorem loop_of_guarded (hguarded : guarded op config w s = .ok s') (hiter : s.iter < s'.iter) :
    s.positive = true ∧ Direct.loop op config w config.maxIters.toNat s = .ok s' := by
  rw [guarded] at hguarded
  split at hguarded
  · next hpositive => exact ⟨hpositive, hguarded⟩
  · cases hguarded
    exact absurd hiter (Nat.lt_irrefl _)

/-- **A run of the staged text leaves its loop by the break exactly if the residual is small
enough at the end**, when it made an iteration. -/
theorem breaksLoop_stagedText_iff (hs : Setting p op w bs) (hfits : h.Fits op.dim bs)
    {position : Option (R × BufferId)} {root : BlockId}
    (hroot : Code.AtBlock p (stagedText config w position) root)
    (hsolve : solve op config w position h = .ok s') (hiter : 0 < s'.iter) :
    BreaksLoop p .shared (p.block root) (.fresh h) ↔ s'.converged config = true := by
  obtain ⟨s, hguarded, rfl⟩ : ∃ s, guarded op config w (start op w h) = .ok s ∧
      s.advance w position = s' := by
    rw [solve] at hsolve
    rcases hg : guarded op config w (start op w h) with b | s
    · rw [hg] at hsolve
      cases hsolve
    · rw [hg] at hsolve
      exact ⟨s, rfl, Except.ok.inj hsolve⟩
  have hadvance : (s.advance w position).iter = s.iter ∧
      (s.advance w position).converged config = s.converged config := by
    rcases position with _ | ⟨dt, x⟩ <;> exact ⟨rfl, rfl⟩
  rw [hadvance.1] at hiter
  rw [hadvance.2]
  obtain ⟨hpositive, hloop⟩ := loop_of_guarded hguarded hiter
  have hmore : 0 < config.maxIters.toNat := by
    have hle : s.iter ≤ (start op w h).iter + config.maxIters.toNat := (loop_counts hloop).1
    have hzero : (start op w h).iter = 0 := rfl
    omega
  -- the loop stands under the condition that follows the setup
  obtain ⟨st, after, hst, hafter, hdrop⟩ := List.forall₂_cons_left_iff.1
    (List.forall₂_drop_append _ _ _ hroot.flip).flip
  have hbefore := (List.forall₂_take_append _ _ _ hroot.flip).flip
  obtain ⟨t₁, hsetup, h₁⟩ := setup_simulates hs hfits
  obtain ⟨t₂, hpos, h₂⟩ := positive_tests hs h₁
  rw [hpositive] at hpos
  cases hst with
  | @ifThen _ guard _ b hguard hb =>
    obtain ⟨st, rest, hst, hrest, hblock⟩ := List.forall₂_cons_left_iff.1 hb
    cases hrest
    cases hst with
    | whileLoop hcond hbody =>
      have hplain := Code.guarded_eq_nil hbefore (setup_isPlain (R := R) w)
      have hplainAfter := Code.guarded_eq_nil hafter (advance_isPlain w position)
      rw [← List.take_append_drop (Text.setup (R := R) w).length (p.block root), hdrop,
        breaksLoop_append_iff hplain (hsetup _ hbefore),
        breaksLoop_ifThen_iff hplainAfter (hpos.settles hguard), hblock, breaksLoop_singleton_iff]
      exact breaksOff_loop_iff _ hs h₂ (Nat.zero_add _) (.inr hmore) hloop hcond hbody

/-! ### Reports -/

/-- A run of the solver on these buffers leaves the loop of its program by the break. -/
def Staged.LeavesByBreak (solver : Staged R) (h : Heap R) : Prop :=
  BreaksLoop solver.program ExecutionConfig.default.loopScope (solver.program.block solver.root)
    (.fresh h)

/-- A run with a report ends where the direct solver ends. -/
theorem System.solve_of_report {system : System R} {fuel : Nat} {r : Report R}
    (hdim : 0 < system.operator.dim)
    (hfits : h.Fits system.operator.dim (system.buffers config h₀))
    (hrun : (system.solver config h₀).run fuel h = (.ok r, h')) :
    ∃ s, solve system.operator config (system.workspace h₀) (system.advance config) h = .ok s ∧
      r = s.report config ∧ s.iter < 2 ^ 32 ∧
      Shows s ((system.solver config h₀).bindings fuel h) := by
  obtain ⟨result, t, hs, hmirrors, enough, hexec⟩ := executeIn_mirrors hdim hfits
  have hmore := hexec (max enough fuel) (Nat.le_max_left ..)
  rw [Staged.executeIn_eq_of_le (Nat.le_max_right enough fuel) (by rw [hrun]; nofun)] at hmore
  rcases hsolve : solve system.operator config (system.workspace h₀) (system.advance config) h
    with b | s
  all_goals rw [hsolve] at hmirrors
  · obtain ⟨rfl, -, -⟩ := hmirrors
    rw [Staged.run_of_error hmore] at hrun
    cases hrun
  · obtain ⟨rfl, hstands⟩ := hmirrors
    have hlimit : s.iter < 2 ^ 32 :=
      Nat.lt_of_le_of_lt (solve_counts hsolve).1 config.maxIters.toNat_lt
    have hreport := (hstands.shows hs).report_eq config hlimit
    have hlast : (system.solver config h₀).last fuel h = t := congrArg Prod.snd hmore
    have hepsilon : (system.solver config h₀).epsilon = config.epsilon := rfl
    rw [Staged.run_of_ok hmore, hepsilon, hreport] at hrun
    refine ⟨s, rfl, (Except.ok.inj (Prod.mk.inj hrun).1).symm, hlimit, ?_⟩
    rw [Staged.bindings, hlast]
    exact hstands.shows hs

/-- A run leaves its loop by the break exactly if the residual is small enough at the end, when
it made an iteration. -/
theorem System.leavesByBreak_iff {system : System R} (hdim : 0 < system.operator.dim)
    (hfits : h.Fits system.operator.dim (system.buffers config h₀))
    (hsolve : solve system.operator config (system.workspace h₀) (system.advance config) h = .ok s)
    (hiter : 0 < s.iter) :
    (system.solver config h₀).LeavesByBreak h ↔ s.converged config = true :=
  breaksLoop_stagedText_iff
    ⟨system.solver_meant config h₀, hdim, fun _ hb => List.mem_append_left _ hb⟩ hfits
    (system.solver_text config h₀) hsolve hiter

/-- **The report and the loop test for convergence in two ways.** A run of a staged solver, after
whatever happened before, has a report after at least one iteration. Then its loop was left by the
break exactly if `r_2_new <= r_2_init * (epsilon * epsilon)` for what the variables hold at the
end, and the report compares with `r_2_init * epsilon * epsilon`. So what it says of convergence
is what the loop did exactly if the two comparisons agree. -/
theorem report_converged_iff {system : System R} {solver : Staged R} {fuel : Nat} {r : Report R}
    (hdim : 0 < system.operator.dim) (hstage : stage system config h₀ = .ok (solver, h₁))
    (hlater : solver.Later (system.workspace h₀).own h₁ h)
    (hrun : solver.run fuel h = (.ok r, h')) (hiter : 0 < r.iterations) :
    ∃ r2Init r2New, (solver.bindings fuel h).find? "r_2_init" = some (.float r2Init) ∧
      (solver.bindings fuel h).find? "r_2_new" = some (.float r2New) ∧
      (solver.LeavesByBreak h ↔
        atMost r2New (r2Init * (config.epsilon * config.epsilon)) = true) ∧
      r.converged = atMost r2New (r2Init * config.epsilon * config.epsilon) ∧
      ((r.converged = true ↔ solver.LeavesByBreak h) ↔
        atMost r2New (r2Init * config.epsilon * config.epsilon) =
          atMost r2New (r2Init * (config.epsilon * config.epsilon))) := by
  obtain ⟨rfl, -, h₁fits⟩ := stage_eq_ok hdim hstage
  have hown := hlater.fits_own hdim h₁fits
  have hfits := System.fits_buffers (System.fits_of_report hdim hown (congrArg Prod.fst hrun)) hown
  obtain ⟨s, hsolve, rfl, hlimit, hshows⟩ := System.solve_of_report hdim hfits hrun
  have hbreak := System.leavesByBreak_iff hdim hfits hsolve
    ((Iterate.report_iterations_pos config hlimit).1 hiter)
  refine ⟨s.r2Init, s.r2New, hshows.r2Init, hshows.r2New, hbreak, rfl, ?_⟩
  rw [hbreak]
  exact Bool.eq_iff_iff.symm

/-- The chain is solved for another right side than it was staged with. -/
theorem report_converged_iff_chain :
    ∃ solver h₁ h fuel r h', 0 < chain.operator.dim ∧
      stage chain chainConfig chainHeap = .ok (solver, h₁) ∧
      solver.Later (chain.workspace chainHeap).own h₁ h ∧
      solver.run fuel h = (.ok r, h') ∧ 0 < r.iterations ∧
      ∃ r2Init r2New, (solver.bindings fuel h).find? "r_2_init" = some (.float r2Init) ∧
        (solver.bindings fuel h).find? "r_2_new" = some (.float r2New) ∧
        (solver.LeavesByBreak h ↔
          atMost r2New (r2Init * (chainConfig.epsilon * chainConfig.epsilon)) = true) ∧
        r.converged = atMost r2New (r2Init * chainConfig.epsilon * chainConfig.epsilon) ∧
        ((r.converged = true ↔ solver.LeavesByBreak h) ↔
          atMost r2New (r2Init * chainConfig.epsilon * chainConfig.epsilon) =
            atMost r2New (r2Init * (chainConfig.epsilon * chainConfig.epsilon))) := by
  have hstage : stage chain chainConfig chainHeap =
      .ok (chain.solver chainConfig chainHeap, chainStaged) := rfl
  have hlater : (chain.solver chainConfig chainHeap).Later (chain.workspace chainHeap).own
      chainStaged (chainStaged.write ⟨0⟩ [4.0, 2.0]) :=
    .write (fun hmem => absurd hmem (by decide)) .staged
  have hfits : (chainStaged.write ⟨0⟩ [4.0, 2.0]).Fits chain.operator.dim
      (chain.buffers chainConfig chainHeap) := by decide
  have hcomes : (solve chain.operator chainConfig (chain.workspace chainHeap)
      (chain.advance chainConfig) (chainStaged.write ⟨0⟩ [4.0, 2.0])).toOption.map Iterate.iter =
        some 2 := by decide +kernel
  obtain ⟨s, fuel, hiter, -, hruns⟩ := System.run_of_solve (by decide) hfits hcomes
  have hrun := hruns fuel (Nat.le_refl fuel)
  have hcount : 0 < (s.report chainConfig).iterations :=
    (Iterate.report_iterations_pos chainConfig (by omega)).2 (by omega)
  exact ⟨_, chainStaged, _, fuel, _, _, by decide, hstage, hlater, hrun, hcount,
    report_converged_iff (by decide) hstage hlater hrun hcount⟩

/-- A system of two unknowns whose residual falls from `1e150` to `1e-30` in one iteration. -/
def steep : System Float :=
  ⟨(⟨2, [1.0, 0.0, 0.0, 2.0], rfl⟩ : DenseMatrix Float).toOperator, ⟨0⟩, ⟨1⟩, none⟩

/-- One iteration, and a tolerance whose square is too small to be a double. -/
def steepConfig : Config Float := ⟨1, 1e-170, none⟩

/-- The right side and the solution, before the solver is staged. -/
def steepHeap : Heap Float := .ofList [[1e150, 1e-30], [0.0, 0.0]]

/-- The buffers after the solver is staged. -/
def steepStaged : Heap Float :=
  .ofList [[1e150, 1e-30], [0.0, 0.0], [0.0, 0.0], [0.0, 0.0], [0.0, 0.0]]

/-- **A run at its last iteration may be reported as converged.** The squared residual is too
large for the loop, whose right side is zero, and the loop ends with its only iteration. -/
theorem capped_reported_converged :
    ∃ solver h₁ fuel r h', stage steep steepConfig steepHeap = .ok (solver, h₁) ∧
      solver.run fuel h₁ = (.ok r, h') ∧ 0 < r.iterations ∧ r.converged = true ∧
      ¬ solver.LeavesByBreak h₁ ∧
      ∃ r2Init r2New, (solver.bindings fuel h₁).find? "r_2_init" = some (.float r2Init) ∧
        (solver.bindings fuel h₁).find? "r_2_new" = some (.float r2New) ∧
        atMost r2New (r2Init * (steepConfig.epsilon * steepConfig.epsilon)) = false := by
  have hstage : stage steep steepConfig steepHeap =
      .ok (steep.solver steepConfig steepHeap, steepStaged) := rfl
  have hfits : steepStaged.Fits steep.operator.dim (steep.buffers steepConfig steepHeap) := by
    decide
  have hcomes : (solve steep.operator steepConfig (steep.workspace steepHeap)
      (steep.advance steepConfig) steepStaged).toOption.map
        (fun s => (s.iter, s.converged steepConfig, (s.report steepConfig).converged)) =
      some (1, false, true) := by decide +kernel
  obtain ⟨s, fuel, hout, hsolve, hruns⟩ := System.run_of_solve (by decide) hfits hcomes
  have hrun := hruns fuel (Nat.le_refl fuel)
  obtain ⟨hiter, hloop, hreport⟩ : s.iter = 1 ∧ s.converged steepConfig = false ∧
      (s.report steepConfig).converged = true := by
    simpa only [Prod.mk.injEq] using hout
  have hcount : 0 < (s.report steepConfig).iterations :=
    (Iterate.report_iterations_pos steepConfig (by omega)).2 (by omega)
  have hstays : ¬ (steep.solver steepConfig steepHeap).LeavesByBreak steepStaged := by
    rw [System.leavesByBreak_iff (by decide) hfits hsolve (by omega), hloop]
    exact Bool.false_ne_true
  obtain ⟨s', hsolve', -, -, hshows⟩ := System.solve_of_report (by decide) hfits hrun
  obtain rfl : s' = s := Except.ok.inj (hsolve'.symm.trans hsolve)
  exact ⟨_, steepStaged, fuel, _, _, hstage, hrun, hcount, hreport, hstays, s'.r2Init, s'.r2New,
    hshows.r2Init, hshows.r2New, hloop⟩

end StagedGraph.Solver
