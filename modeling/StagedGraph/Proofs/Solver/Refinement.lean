import StagedGraph.Proofs.Results
import StagedGraph.Proofs.Solver.Simulation

/-!
# A staged solve is a direct solve

A solver that was staged for a system is run on buffers of the right lengths, whatever they
hold and however they overlap. The run ends as the direct solver does
(`staged_run_eq_direct`): with the same buffers and the same report, or with a division by
zero at the same place.
-/

namespace StagedGraph.Solver

open Direct

variable {R : Type} [Scalar R]

/-! ### What a run shows -/

/-- Bindings under which the variables hold what the direct solver has. -/
structure Shows (s : Iterate R) (bs : Bindings R) : Prop where
  iter : bs.find? "iter" = some (.int (Int64.ofNat s.iter))
  r2Init : bs.find? "r_2_init" = some (.float s.r2Init)
  r2New : bs.find? "r_2_new" = some (.float s.r2New)

/-- The bindings of the global scope, by string. -/
def shown (p : Program R (Heap R)) (t : RunState R (Heap R)) : Bindings R :=
  p.interner.named t.env.globals

section Show

variable {p : Program R (Heap R)} {op : LinearOperator R} {w : Workspace} {bs : List BufferId}
  {s : Iterate R} {t : RunState R (Heap R)}

theorem find?_shown (hp : Meant p op w) (ht : t.env.depth = 1) {x : Name} {name : String}
    (hx : p.interner.strings[x.index]? = some name) (hname : name ≠ "") :
    (shown p t).find? name = t.env.lookup x :=
  Environment.lookup_named_globals ht (Interner.lookup_eq_iff (by rw [hp.strings]; decide) hx hname)

theorem Stands.shows (hs : Setting p op w bs) (h : Stands p op w bs s t) : Shows s (shown p t) := by
  refine ⟨?_, ?_, ?_⟩
  · exact (find?_shown hs.meant h.depth (by rw [hs.meant.strings]; rfl) (by decide)).trans h.iter
  · exact (find?_shown hs.meant h.depth (by rw [hs.meant.strings]; rfl) (by decide)).trans h.r2Init
  · exact (find?_shown hs.meant h.depth (by rw [hs.meant.strings]; rfl) (by decide)).trans h.r2New

/-- The report on such bindings is the report of the direct solver. -/
theorem Shows.report_eq {bindings : Bindings R} (h : Shows s bindings) (config : Config R)
    (hiter : s.iter < 2 ^ 32) : report bindings config.epsilon = .ok (s.report config) := by
  have hcount : boundCount bindings "iter" = .ok (UInt32.ofNat s.iter) := by
    have hint : (Int64.ofNat s.iter).toInt = s.iter := Operator.toInt_count (by omega)
    have hrange : 0 ≤ (s.iter : Int) ∧ (s.iter : Int) < UInt32.size := by
      refine ⟨by omega, ?_⟩
      rw [UInt32.size]
      omega
    simp only [boundCount, h.iter, Option.bind_some, Value.toInt64?, hint]
    rw [if_pos hrange, Int.toNat_natCast]
  have hnew : boundScalar bindings "r_2_new" = .ok s.r2New := by
    rw [boundScalar, h.r2New]
    rfl
  have hinit : boundScalar bindings "r_2_init" = .ok s.r2Init := by
    rw [boundScalar, h.r2Init]
    rfl
  rw [report, hcount, hnew, hinit]
  rfl

end Show

/-! ### Staging -/

/-- The buffers that a solver works on that is staged for a system on these buffers. -/
def System.workspace (system : System R) (h : Heap R) : Workspace :=
  (Workspace.allocate system.rhs system.solution system.operator.dim h).1

/-- The step of a position by a time step, if there are both. -/
def advanceOf : Option R → Option BufferId → Option (R × BufferId)
  | some dt, some x => some (dt, x)
  | _, _ => none

/-- The step of the position that is made after a solve. -/
def System.advance (system : System R) (config : Config R) : Option (R × BufferId) :=
  advanceOf config.dt system.position

/-- The buffers of the caller that a solve works on. -/
def System.callers (system : System R) (config : Config R) : List BufferId :=
  system.rhs :: system.solution :: (system.advance config).toList.map Prod.snd

/-- All buffers that a solve works on. -/
def System.buffers (system : System R) (config : Config R) (h : Heap R) : List BufferId :=
  (system.workspace h).all ++ (system.advance config).toList.map Prod.snd

/-- The solver that is staged for a system on these buffers. -/
def System.solver (system : System R) (config : Config R) (h : Heap R) : Staged R :=
  let staged := stagedProgram system.operator config (system.workspace h) (system.advance config)
  ⟨staged.2, staged.1, system.solution, config.epsilon⟩

theorem System.solver_program (system : System R) (config : Config R) (h : Heap R) :
    (system.solver config h).program = (stagedProgram system.operator config (system.workspace h)
      (system.advance config)).2 := by
  rw [System.solver]

theorem System.solver_root (system : System R) (config : Config R) (h : Heap R) :
    (system.solver config h).root = (stagedProgram system.operator config (system.workspace h)
      (system.advance config)).1 := by
  rw [System.solver]

theorem System.solver_meant (system : System R) (config : Config R) (h : Heap R) :
    Meant (system.solver config h).program system.operator (system.workspace h) :=
  system.solver_program config h ▸
    staged_meant system.operator config (system.workspace h) (system.advance config)

/-- The program of a solver reads as the text that was staged. -/
theorem System.solver_text (system : System R) (config : Config R) (h : Heap R) :
    Code.AtBlock (system.solver config h).program
      (stagedText config (system.workspace h) (system.advance config))
      (system.solver config h).root := by
  rw [System.solver_program, System.solver_root]
  exact stagedText_at system.operator config (system.workspace h) (system.advance config)

theorem System.solver_verify (system : System R) (config : Config R) (h : Heap R) :
    (system.solver config h).program.verify (system.solver config h).root = .ok () := by
  rw [System.solver_program, System.solver_root]
  exact staged_verify system.operator config (system.workspace h) (system.advance config)

omit [Scalar R] in
theorem checkLength_of_eq {h : Heap R} {name : String} {dim : Nat} {b : BufferId}
    (hb : h.length b = dim) : checkLength h name dim b = .ok () := if_pos hb

omit [Scalar R] in
theorem positionUpdate_of_length {h : Heap R} {dim : Nat} {dt : Option R} {x : Option BufferId}
    (hx : dt.isSome → x.isSome) (hlen : ∀ k b, advanceOf dt x = some (k, b) → h.length b = dim) :
    positionUpdate h dim dt x = .ok (advanceOf dt x) := by
  rcases dt with _ | dt
  · rfl
  · rcases x with _ | x
    · cases hx rfl
    · rw [positionUpdate, checkLength_of_eq (hlen dt x rfl)]
      rfl

/-- New buffers of the right length join those that are there. -/
theorem allocate_fits {rhs solution : BufferId} {dim : Nat} {h : Heap R} {bs : List BufferId}
    (hdim : 0 < dim) (hfits : h.Fits dim (rhs :: solution :: bs)) :
    (Workspace.allocate rhs solution dim h).2.Fits dim
      ((Workspace.allocate rhs solution dim h).1.all ++ bs) := by
  have hzeros : (List.replicate dim (Scalar.zero : R)).length = dim := List.length_replicate
  have hall := ((hfits.alloc hdim hzeros).alloc hdim hzeros).alloc hdim hzeros
  intro b hb
  refine hall b ?_
  simp only [Workspace.allocate, Workspace.all, List.cons_append, List.nil_append,
    List.mem_cons] at hb ⊢
  tauto

section Runs

variable {system : System R} {config : Config R} {h₀ h : Heap R}

/-- **Staging succeeds** on buffers of the right lengths, if there is a position to step when
there is a time step; and the solver's own buffers have the right lengths too. -/
theorem stage_succeeds (hdim : 0 < system.operator.dim)
    (hposition : config.dt.isSome → system.position.isSome)
    (hfits : h₀.Fits system.operator.dim (system.callers config)) :
    ∃ h₁, stage system config h₀ = .ok (system.solver config h₀, h₁) ∧
      h₁.Fits system.operator.dim (system.buffers config h₀) := by
  have hrhs : h₀.length system.rhs = system.operator.dim := hfits _ (by simp [System.callers])
  have hsolution : h₀.length system.solution = system.operator.dim :=
    hfits _ (by simp [System.callers])
  have hx : positionUpdate h₀ system.operator.dim config.dt system.position =
      .ok (system.advance config) :=
    positionUpdate_of_length hposition fun k b hb =>
      hfits b (by simp [System.callers, System.advance, hb])
  have hfits₁ := allocate_fits hdim hfits
  rcases hw : Workspace.allocate system.rhs system.solution system.operator.dim h₀ with ⟨w, h₁⟩
  rw [hw] at hfits₁
  have hworkspace : system.workspace h₀ = w := congrArg Prod.fst hw
  refine ⟨h₁, ?_, ?_⟩
  · rw [stage, checkLength_of_eq hrhs, checkLength_of_eq hsolution, hx, hw, System.solver,
      hworkspace]
    rfl
  · rw [System.buffers, hworkspace]
    exact hfits₁

/-- **A run of a staged solver ends as the direct solver does.** -/
theorem executeIn_mirrors (hdim : 0 < system.operator.dim)
    (hfits : h.Fits system.operator.dim (system.buffers config h₀)) :
    ∃ r t, Setting (system.solver config h₀).program system.operator (system.workspace h₀)
        (system.buffers config h₀) ∧
      Mirrors (system.solver config h₀).program system.operator (system.workspace h₀)
        (system.buffers config h₀)
        ((solve system.operator config (system.workspace h₀) (system.advance config) h).map
          (·, false)) r t ∧
      ∃ enough, ∀ fuel, enough ≤ fuel →
        (system.solver config h₀).program.executeIn .default fuel
            (system.solver config h₀).root h =
          (r.map fun _ => shown (system.solver config h₀).program t, t) := by
  have hroot := system.solver_text config h₀
  have hverify := system.solver_verify config h₀
  have hs : Setting (system.solver config h₀).program system.operator (system.workspace h₀)
      (system.buffers config h₀) :=
    ⟨system.solver_meant config h₀, hdim, fun b hb => List.mem_append_left _ hb⟩
  have hx : ∀ dt x, system.advance config = some (dt, x) → x ∈ system.buffers config h₀ := by
    intro dt x hx
    simp [System.buffers, hx]
  obtain ⟨r, t, hrun, hmirrors⟩ := stagedText_simulates config hs hfits hx
  refine ⟨r, t, hs, hmirrors, ?_⟩
  rcases hsolve : solve system.operator config (system.workspace h₀) (system.advance config) h
    with b | s
  all_goals rw [hsolve] at hmirrors
  · obtain ⟨rfl, -, -⟩ := hmirrors
    exact Program.executeIn_of_settles hverify (.run_error hroot hrun)
  · obtain ⟨rfl, -⟩ := hmirrors
    exact Program.executeIn_of_settles hverify (.run hroot hrun)

end Runs

namespace Staged

variable (solver : Staged R) (fuel : Nat) (h : Heap R)

/-- The state in which a run of a solver ends. -/
def last : RunState R (Heap R) := (solver.program.executeIn .default fuel solver.root h).2

/-- How often a run of a solver applies the operator. -/
def applications : Nat := (solver.last fuel h).history.countP (isCallOf solver.program "matvec")

/-- What the variables hold at the end of a run of a solver, by name. -/
def bindings : Bindings R := shown solver.program (solver.last fuel h)

/-- How a run of a solver has to end, given how the direct solver ends: with the same buffers
and the same report, after at most `max_iters` iterations and one application of the operator
more than that; or at the same division by zero, with the same buffers, count and norms. -/
def EndsAs (config : Config R) : Except (Breakdown R) (Iterate R) → Prop
  | .ok s =>
    solver.run fuel h = (.ok (s.report config), s.heap) ∧
      (s.report config).iterations ≤ config.maxIters ∧
      solver.applications fuel h = (s.report config).iterations.toNat + 1
  | .error b =>
    solver.run fuel h = (.error (.stopped divisionByZero), b.iterate.heap) ∧
      FailsAt b (solver.last fuel h) ∧ Shows b.iterate (solver.bindings fuel h) ∧
      solver.applications fuel h = b.iterate.applications

variable {solver fuel h} {t : RunState R (Heap R)}

theorem run_of_ok {bs : Bindings R}
    (hexec : solver.program.executeIn .default fuel solver.root h = (.ok bs, t)) :
    solver.run fuel h = (report bs solver.epsilon, t.host) := by
  rw [run, Program.execute, hexec]

theorem run_of_error {why : Stop}
    (hexec : solver.program.executeIn .default fuel solver.root h = (.error why, t)) :
    solver.run fuel h = (.error (.stopped why), t.host) := by
  rw [run, Program.execute, hexec]

end Staged

/-- **The solver of a system ends as the direct solver does.** -/
theorem System.solver_endsAs {system : System R} {config : Config R} {h₀ h : Heap R}
    (hdim : 0 < system.operator.dim)
    (hfits : h.Fits system.operator.dim (system.buffers config h₀)) :
    ∃ enough, ∀ fuel, enough ≤ fuel →
      (system.solver config h₀).EndsAs fuel h config
        (solve system.operator config (system.workspace h₀) (system.advance config) h) := by
  obtain ⟨r, t, hs, hmirrors, enough, hexec⟩ := executeIn_mirrors hdim hfits
  refine ⟨enough, fun fuel hfuel => ?_⟩
  have hrun := hexec fuel hfuel
  have hlast : (system.solver config h₀).last fuel h = t := congrArg Prod.snd hrun
  rcases hsolve : solve system.operator config (system.workspace h₀) (system.advance config) h
    with b | s
  · rw [hsolve] at hmirrors
    obtain ⟨rfl, hstands, hfails⟩ := hmirrors
    rw [Staged.EndsAs, Staged.applications, Staged.bindings, hlast]
    refine ⟨?_, hfails, hstands.shows hs, hstands.applications⟩
    rw [Staged.run_of_error hrun, hstands.host]
  · rw [hsolve] at hmirrors
    obtain ⟨rfl, hstands⟩ := hmirrors
    obtain ⟨hle, happ⟩ := solve_counts hsolve
    have hlimit : config.maxIters.toNat < 2 ^ 32 := config.maxIters.toNat_lt
    have hcount : (s.report config).iterations.toNat = s.iter :=
      UInt32.toNat_ofNat_of_lt (Nat.lt_of_le_of_lt hle config.maxIters.toNat_lt)
    have hepsilon : (system.solver config h₀).epsilon = config.epsilon := rfl
    rw [Staged.EndsAs, Staged.applications, hlast]
    refine ⟨?_, ?_, ?_⟩
    · rw [Staged.run_of_ok hrun, hstands.host, hepsilon,
        (hstands.shows hs).report_eq config (by omega)]
    · rw [UInt32.le_iff_toNat_le, hcount]
      exact hle
    · rw [hcount, ← happ]
      exact hstands.applications

/-- If the direct solver comes to an end, then so do runs. -/
theorem System.run_of_solve {system : System R} {config : Config R} {h₀ h : Heap R} {α : Type}
    {f : Iterate R → α} {a : α} (hdim : 0 < system.operator.dim)
    (hfits : h.Fits system.operator.dim (system.buffers config h₀))
    (hcomes : (solve system.operator config (system.workspace h₀) (system.advance config)
      h).toOption.map f = some a) :
    ∃ s enough, f s = a ∧
      solve system.operator config (system.workspace h₀) (system.advance config) h = .ok s ∧
      ∀ fuel, enough ≤ fuel →
        (system.solver config h₀).run fuel h = (.ok (s.report config), s.heap) := by
  obtain ⟨enough, hends⟩ := System.solver_endsAs hdim hfits
  rcases hsolve : solve system.operator config (system.workspace h₀) (system.advance config) h
    with b | s
  · rw [hsolve] at hcomes
    cases hcomes
  · rw [hsolve] at hcomes hends
    exact ⟨s, enough, Option.some.inj hcomes, rfl, fun fuel hfuel => (hends fuel hfuel).1⟩

/-- **A staged solve is the direct solve.** A solver is staged for buffers of the right
lengths, with a position if there is a time step. It may then run on any contents of these
buffers and of its own, whichever of the caller's buffers are the same one, as long as the
lengths are right: with enough fuel the run ends as the direct solver does. -/
theorem staged_run_eq_direct (system : System R) (config : Config R) (h₀ : Heap R)
    (hdim : 0 < system.operator.dim) (hposition : config.dt.isSome → system.position.isSome)
    (hfits : h₀.Fits system.operator.dim (system.callers config)) :
    ∃ solver h₁, stage system config h₀ = .ok (solver, h₁) ∧
      h₁.Fits system.operator.dim (system.buffers config h₀) ∧
      ∀ h : Heap R, h.Fits system.operator.dim (system.buffers config h₀) →
        ∃ enough, ∀ fuel, enough ≤ fuel →
          solver.EndsAs fuel h config
            (solve system.operator config (system.workspace h₀) (system.advance config) h) := by
  obtain ⟨h₁, hstage, hfits₁⟩ := stage_succeeds hdim hposition hfits
  exact ⟨system.solver config h₀, h₁, hstage, hfits₁, fun h hh => System.solver_endsAs hdim hh⟩

/-- A stiff chain of two unknowns, with the eigenvalues 1 and 16, whose position is the buffer of the
right side. -/
def chain : System Float :=
  ⟨DenseMatrix.toOperator ⟨2, [8.5, -7.5, -7.5, 8.5], rfl⟩, ⟨0⟩, ⟨1⟩, some ⟨0⟩⟩

/-- Three iterations, and a time step. -/
def chainConfig : Config Float := ⟨3, 1e-6, some 0.5⟩

/-- The buffers of the caller, before a solver is staged. -/
def chainHeap : Heap Float := .ofList [[3.0, 1.0], [0.0, 0.0]]

/-- The buffers at the time of a run; those of the solver are left from an earlier one. -/
def usedHeap : Heap Float := .ofList [[4.0, 2.0], [1.0, 1.0], [7.0, 0.0], [0.5, 3.0], [2.0, 2.0]]

/-- Where the direct solver is after two iterations and the step of the position. -/
def chainEnd : Iterate Float :=
  ⟨.ofList [[5.53125, 3.46875], [3.0625, 2.9375], [0.0, 0.0], [5.25, 6.75], [-6.0, 18.0]], 2, 10.0, 0.0, 3⟩

/-- The chain is solved in two iterations, and the operator is applied three times. -/
theorem staged_run_eq_direct_chain :
    0 < chain.operator.dim ∧ (chainConfig.dt.isSome → chain.position.isSome) ∧
      chainHeap.Fits chain.operator.dim (chain.callers chainConfig) ∧
      usedHeap.Fits chain.operator.dim (chain.buffers chainConfig chainHeap) ∧
      ∃ solver h₁, stage chain chainConfig chainHeap = .ok (solver, h₁) ∧
        ∃ enough, ∀ fuel, enough ≤ fuel →
          solver.EndsAs fuel usedHeap chainConfig
            (solve chain.operator chainConfig (chain.workspace chainHeap)
              (chain.advance chainConfig) usedHeap) ∧
          solver.run fuel usedHeap = (.ok ⟨2, 0.0, true⟩, chainEnd.heap) ∧
          solver.applications fuel usedHeap = 3 := by
  obtain ⟨solver, h₁, hstage, -, hruns⟩ := staged_run_eq_direct chain chainConfig chainHeap
    (by decide) (fun _ => rfl) (by decide)
  obtain ⟨enough, hends⟩ := hruns usedHeap (by decide)
  have hcomes : (solve chain.operator chainConfig (chain.workspace chainHeap)
      (chain.advance chainConfig) usedHeap).toOption.map id = some chainEnd := by decide +kernel
  obtain ⟨_, -, rfl, hsolve, -⟩ := System.run_of_solve (by decide) (by decide) hcomes
  refine ⟨by decide, fun _ => rfl, by decide, by decide, solver, h₁, hstage, enough,
    fun fuel hfuel => ?_⟩
  have hreport : chainEnd.report chainConfig = ⟨2, 0.0, true⟩ := by decide +kernel
  rw [hsolve] at hends ⊢
  have hend := hends fuel hfuel
  refine ⟨hend, ?_⟩
  rw [Staged.EndsAs, hreport] at hend
  exact ⟨hend.1, hend.2.2⟩

end StagedGraph.Solver
