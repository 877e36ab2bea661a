import StagedGraph.Proofs.Solver.Refinement

/-!
# A solver is used again

A staged solver runs many times on buffers that its caller may change in between, and a run
may fail. What a run needs of the past is only that the solver's own buffers still have
their lengths, and they do: a kernel that does not refuse writes as many entries as it finds
(`Kernel.Keeps`), so that no run changes a length (`System.run_sameLengths`).

Hence a run on buffers of the right lengths ends with a report or with a division by zero
outside every function, and in no other way, whatever happened before
(`staged_run_ends`).
-/

namespace StagedGraph

variable {R : Type}

/-! ### Lengths -/

namespace Heap

/-- Every buffer has as many entries as it had. -/
def SameLengths (h h' : Heap R) : Prop := ∀ b, h'.length b = h.length b

variable {h h' : Heap R} {bs : List BufferId} {n : Nat}

theorem SameLengths.refl (h : Heap R) : SameLengths h h := fun _ => rfl

theorem SameLengths.trans {h'' : Heap R} (h₁ : SameLengths h h') (h₂ : SameLengths h' h'') :
    SameLengths h h'' := fun b => (h₂ b).trans (h₁ b)

theorem length_write_of_ne (h : Heap R) {b c : BufferId} (xs : List R) (hne : b ≠ c) :
    (h.write b xs).length c = h.length c :=
  congrArg List.length (h.read_write_of_ne xs hne)

/-- A buffer that gets as many entries as it has keeps its length, and so do the others. -/
theorem sameLengths_write {b : BufferId} {xs : List R} (hxs : xs.length = h.length b) :
    SameLengths h (h.write b xs) := by
  intro c
  by_cases hbc : b = c
  · subst hbc
    rcases h.read_write b b xs with he | he
    · rw [length, he, hxs]
    · rw [length, he, length]
  · exact h.length_write_of_ne xs hbc

/-- There is this buffer, and it has `n` entries. A length alone does not say that there is a
buffer, since one that was never made reads as empty. -/
structure Holds (h : Heap R) (b : BufferId) (n : Nat) : Prop where
  allocated : h.Allocated b
  length : h.length b = n

variable {b : BufferId}

theorem Holds.of_length (hb : h.length b = n) (hn : 0 < n) : h.Holds b n :=
  ⟨allocated_of_length_pos (hb ▸ hn), hb⟩

theorem Holds.write (hb : h.Holds b n) {c : BufferId} {xs : List R}
    (hxs : c = b → xs.length = n) : (h.write c xs).Holds b n := by
  refine ⟨Nat.lt_of_lt_of_eq hb.allocated Array.size_setIfInBounds.symm, ?_⟩
  by_cases hcb : c = b
  · subst hcb
    exact (sameLengths_write ((hxs rfl).trans hb.length.symm) c).trans hb.length
  · exact (h.length_write_of_ne xs hcb).trans hb.length

theorem Holds.alloc (hb : h.Holds b n) (xs : List R) : (h.alloc xs).2.Holds b n := by
  refine ⟨Nat.lt_of_lt_of_eq (Nat.lt_succ_of_lt hb.allocated) (Array.size_push _).symm, ?_⟩
  rw [Heap.length, h.read_alloc_of_allocated xs hb.allocated]
  exact hb.length

theorem holds_alloc (h : Heap R) (xs : List R) : (h.alloc xs).2.Holds (h.alloc xs).1 xs.length :=
  ⟨Nat.lt_of_lt_of_eq (Nat.lt_succ_self _) (Array.size_push _).symm,
    congrArg List.length (h.read_alloc_self xs)⟩

end Heap

namespace Kernel

/-- A kernel that, where it does not refuse, changes no length. -/
def Keeps (kernel : List (Value R) → Step R (Value R)) : Prop :=
  ∀ args h v h', kernel args h = .ok v h' → h.SameLengths h'

theorem axpy_keeps [Scalar R] : Keeps (axpy (R := R)) := by
  intro args h v h' hk
  obtain ⟨ans, a, k, b, ho, -, rfl⟩ := axpy_eq_ok_iff.1 hk
  exact Heap.sameLengths_write ho.length_sum

theorem dot_keeps [Scalar R] : Keeps (dot (R := R)) := by
  intro args h v h' hk
  obtain ⟨a, b, -, -, rfl⟩ := dot_eq_ok_iff.1 hk
  exact .refl h'

theorem copy_keeps : Keeps (copy (R := R)) := by
  intro args h v h' hk
  obtain ⟨dst, src, ho, -, rfl⟩ := copy_eq_ok_iff.1 hk
  exact Heap.sameLengths_write ho.length.symm

theorem matvec_keeps {op : LinearOperator R} (hfills : op.Fills) : Keeps (matvec op) := by
  intro args h v h' hk
  obtain ⟨out, x, y, ho, hy, -, rfl⟩ := matvec_eq_ok_iff.1 hk
  exact Heap.sameLengths_write (ho.length_product hfills hy)

variable [Scalar R] {op : LinearOperator R} {kernel : List (Value R) → Step R (Value R)}
  {args : List (Value R)} {h h' : Heap R} {v : Value R}

theorem refusesFirst_of_mem (hmem : kernel ∈ [axpy, dot, copy, matvec op])
    (args : List (Value R)) : RefusesFirst (kernel args) := by
  simp only [List.mem_cons, List.not_mem_nil, or_false] at hmem
  rcases hmem with rfl | rfl | rfl | rfl
  · exact axpy_refusesFirst args
  · exact dot_refusesFirst args
  · exact copy_refusesFirst args
  · exact matvec_refusesFirst op args

omit [Scalar R] in
/-- What a kernel keeps of the buffers where it does not refuse, it keeps as a native. -/
theorem native_keeps {L : Heap R → Heap R → Prop} (hrefl : ∀ h, L h h)
    (hk : ∀ args h v h', kernel args h = .ok v h' → L h h')
    (hrefuses : ∀ args, RefusesFirst (kernel args)) (name : String) (arity : Nat)
    (args : List (Value R)) (h : Heap R) : L h ((Kernel.native name arity kernel).op args h).2 := by
  rw [native_op]
  rcases hr : kernel args h with ⟨v, h'⟩ | ⟨message | _, h'⟩
  · exact hk args h v h' hr
  all_goals
    rw [hrefuses args hr]
    exact hrefl h

/-- A kernel has as many buffers when it is done as it had before. -/
theorem size_of_ok (hmem : kernel ∈ [axpy, dot, copy, matvec op]) (hk : kernel args h = .ok v h') :
    h'.contents.size = h.contents.size := by
  simp only [List.mem_cons, List.not_mem_nil, or_false] at hmem
  rcases hmem with rfl | rfl | rfl | rfl
  · obtain ⟨_, _, _, _, -, -, rfl⟩ := axpy_eq_ok_iff.1 hk
    exact Array.size_setIfInBounds
  · obtain ⟨_, _, -, -, rfl⟩ := dot_eq_ok_iff.1 hk
    rfl
  · obtain ⟨_, _, -, -, rfl⟩ := copy_eq_ok_iff.1 hk
    exact Array.size_setIfInBounds
  · obtain ⟨_, _, _, -, -, -, rfl⟩ := matvec_eq_ok_iff.1 hk
    exact Array.size_setIfInBounds

end Kernel

/-- A native that is called is one of the program's, or refuses every call. -/
theorem Program.native_cases {H : Type} (p : Program R H) (n : NativeId) :
    p.native n ∈ p.natives ∨ p.native n = .pure "" .variadic fun _ => .failed "" := by
  rw [native, Array.getD_eq_getD_getElem?]
  cases hn : p.natives[n.index]? with
  | none => exact .inr rfl
  | some native => exact .inl (Array.mem_of_getElem? hn)

namespace Solver

open Direct

variable [Scalar R] {system : System R} {config : Config R} {h₀ h h₁ : Heap R} {solver : Staged R}

/-- What the kernels keep of the buffers, every native of a staged program keeps. -/
theorem staged_native_keeps {L : Heap R → Heap R → Prop} (hrefl : ∀ h, L h h)
    {op : LinearOperator R} (hkernels : ∀ kernel ∈ [Kernel.axpy, Kernel.dot, Kernel.copy,
      Kernel.matvec op], ∀ args h v h', kernel args h = .ok v h' → L h h')
    (config : Config R) (w : Workspace) (position : Option (R × BufferId)) (n : NativeId)
    (args : List (Value R)) (h : Heap R) :
    L h (((stagedProgram op config w position).2.native n).op args h).2 := by
  rcases (stagedProgram op config w position).2.native_cases n with hmem | hnone
  · have hkeeps : ∀ kernel ∈ [Kernel.axpy, Kernel.dot, Kernel.copy, Kernel.matvec op],
        ∀ name arity, L h ((Kernel.native name arity kernel).op args h).2 :=
      fun kernel hk name arity => Kernel.native_keeps hrefl (hkernels kernel hk)
        (Kernel.refusesFirst_of_mem hk) name arity args h
    rw [staged_natives, List.mem_toArray, List.mem_append] at hmem
    rcases hmem with hmem | hmem
    · obtain ⟨o, -, ho⟩ := List.mem_map.1 hmem
      rw [← ho, Operator.native_op]
      exact hrefl h
    · simp only [List.mem_cons, List.not_mem_nil, or_false] at hmem
      rcases hmem with ho | ho | ho | ho
      all_goals
        rw [ho]
        exact hkeeps _ (by simp) _ _
  · rw [hnone]
    exact hrefl h

/-- No kernel of an operator that fills what it is given changes a length. -/
theorem kernels_keep {op : LinearOperator R} (hfills : op.Fills) :
    ∀ kernel ∈ [Kernel.axpy, Kernel.dot, Kernel.copy, Kernel.matvec op], Kernel.Keeps kernel := by
  simp only [List.forall_mem_cons]
  exact ⟨Kernel.axpy_keeps, Kernel.dot_keeps, Kernel.copy_keeps, Kernel.matvec_keeps hfills,
    List.forall_mem_nil _⟩

/-- No native of a solver's program changes a length. -/
theorem System.native_sameLengths (hfills : system.operator.Fills) (config : Config R)
    (h₀ : Heap R) (n : NativeId) (args : List (Value R)) (h : Heap R) :
    h.SameLengths (((system.solver config h₀).program.native n).op args h).2 := by
  rw [System.solver_program]
  exact staged_native_keeps Heap.SameLengths.refl (kernels_keep hfills) config _ _ n args h

/-- Nor does it make or remove a buffer. -/
theorem System.native_size (config : Config R) (h₀ : Heap R) (n : NativeId)
    (args : List (Value R)) (h : Heap R) :
    (((system.solver config h₀).program.native n).op args h).2.contents.size =
      h.contents.size := by
  rw [System.solver_program]
  exact staged_native_keeps (L := fun h h' => h'.contents.size = h.contents.size) (fun _ => rfl)
    (fun _ hmem _ _ _ _ => Kernel.size_of_ok hmem) config _ _ n args h

/-- What every native keeps of the buffers, a run keeps, whether it ends or not. -/
theorem System.run_keeps {L : Heap R → Heap R → Prop} (hrefl : ∀ h, L h h)
    (htrans : ∀ {h h' h''}, L h h' → L h' h'' → L h h'')
    (hnative : ∀ n args h, L h (((system.solver config h₀).program.native n).op args h).2)
    (fuel : Nat) (h : Heap R) : L h ((system.solver config h₀).run fuel h).2 := by
  have hrun := (Laws.ofHost hrefl htrans hnative).run ExecutionConfig.default.loopScope fuel
    (system.solver config h₀).root (.fresh h)
  have hhost : ((system.solver config h₀).run fuel h).2 =
      ((system.solver config h₀).program.executeIn .default fuel
        (system.solver config h₀).root h).2.host := by
    rw [Staged.run, Program.execute]
    rcases (system.solver config h₀).program.executeIn .default fuel
      (system.solver config h₀).root h with ⟨_ | _, _⟩ <;> rfl
  rw [hhost, Program.executeIn]
  split
  · exact hrefl h
  · split
    all_goals
      next hr =>
        rw [hr] at hrun
        exact hrun

/-- **No run of a solver changes the length of a buffer**, whether it ends or not. -/
theorem System.run_sameLengths (hfills : system.operator.Fills) (config : Config R)
    (h₀ : Heap R) (fuel : Nat) (h : Heap R) :
    h.SameLengths ((system.solver config h₀).run fuel h).2 :=
  System.run_keeps Heap.SameLengths.refl Heap.SameLengths.trans
    (System.native_sameLengths hfills config h₀) fuel h

/-! ### Staged solvers -/

/-- The buffers of a workspace that only its solver knows of. -/
def Workspace.own (w : Workspace) : List BufferId := [w.residual, w.direction, w.product]

omit [Scalar R] in
theorem length_of_checkLength {name : String} {dim : Nat} {b : BufferId} {u : Unit}
    (hb : checkLength h name dim b = .ok u) : h.length b = dim := by
  rw [checkLength] at hb
  split at hb
  · assumption
  · cases hb

omit [Scalar R] in
theorem positionUpdate_eq_ok {dim : Nat} {dt : Option R} {x : Option BufferId}
    {position : Option (R × BufferId)} (h : positionUpdate h₀ dim dt x = .ok position) :
    position = advanceOf dt x ∧ ∀ k b, advanceOf dt x = some (k, b) → h₀.length b = dim := by
  rcases dt with _ | dt
  · cases h
    exact ⟨rfl, nofun⟩
  · rcases x with _ | x
    · cases h
    · rw [positionUpdate] at h
      rcases hx : checkLength h₀ "position" dim x with why | u
      · rw [hx] at h
        cases h
      · rw [hx] at h
        cases h
        refine ⟨rfl, fun k b hkb => ?_⟩
        cases hkb
        exact length_of_checkLength hx

/-- What was checked when a solver was staged, and that only its own buffers are new. -/
theorem stage_checks (hstage : stage system config h₀ = .ok (solver, h₁)) :
    h₀.length system.rhs = system.operator.dim ∧ h₀.length system.solution = system.operator.dim ∧
      positionUpdate h₀ system.operator.dim config.dt system.position =
        .ok (system.advance config) ∧
      solver = system.solver config h₀ ∧
      h₁ = (Workspace.allocate system.rhs system.solution system.operator.dim h₀).2 := by
  rw [stage] at hstage
  rcases hrhs : checkLength h₀ "rhs" system.operator.dim system.rhs with why | u
  · rw [hrhs] at hstage
    cases hstage
  rw [hrhs] at hstage
  rcases hsolution : checkLength h₀ "solution" system.operator.dim system.solution with why | u
  · rw [hsolution] at hstage
    cases hstage
  rw [hsolution] at hstage
  rcases hx : positionUpdate h₀ system.operator.dim config.dt system.position with why | position
  · rw [hx] at hstage
    cases hstage
  rw [hx] at hstage
  obtain ⟨rfl, -⟩ := positionUpdate_eq_ok hx
  have hpair : (system.solver config h₀, (Workspace.allocate system.rhs system.solution
      system.operator.dim h₀).2) = (solver, h₁) := Except.ok.inj hstage
  exact ⟨length_of_checkLength hrhs, length_of_checkLength hsolution, rfl,
    (Prod.mk.inj hpair).1.symm, (Prod.mk.inj hpair).2.symm⟩

/-- A solver's own buffers are made with the right length, whatever the dimension. -/
theorem holds_own (hstage : stage system config h₀ = .ok (solver, h₁)) :
    ∀ b ∈ (system.workspace h₀).own, h₁.Holds b system.operator.dim := by
  obtain ⟨-, -, -, -, rfl⟩ := stage_checks hstage
  have hzeros : (List.replicate system.operator.dim (Scalar.zero : R)).length =
      system.operator.dim := List.length_replicate
  have hnew (h : Heap R) := hzeros ▸ h.holds_alloc (List.replicate system.operator.dim Scalar.zero)
  simp only [Workspace.own, List.forall_mem_cons]
  exact ⟨((hnew h₀).alloc _).alloc _, (hnew _).alloc _, hnew _, List.forall_mem_nil _⟩

/-- A solver that was staged is the solver of its system. It was staged on buffers of the right
lengths, and its own have the right lengths too. -/
theorem stage_eq_ok (hdim : 0 < system.operator.dim)
    (hstage : stage system config h₀ = .ok (solver, h₁)) :
    solver = system.solver config h₀ ∧ h₀.Fits system.operator.dim (system.callers config) ∧
      h₁.Fits system.operator.dim (system.workspace h₀).own := by
  obtain ⟨hrhs, hsolution, hx, rfl, rfl⟩ := stage_checks hstage
  have hposition := (positionUpdate_eq_ok hx).2
  have hfits : h₀.Fits system.operator.dim (system.callers config) := by
    refine List.forall_mem_cons.2 ⟨hrhs, List.forall_mem_cons.2 ⟨hsolution, fun b hb => ?_⟩⟩
    obtain ⟨⟨k, b⟩, hkb, rfl⟩ := List.mem_map.1 hb
    exact hposition k b (Option.mem_toList.1 hkb)
  refine ⟨rfl, hfits, fun b hb => allocate_fits hdim hfits b ?_⟩
  exact List.mem_append_left _ (List.mem_cons_of_mem _ (List.mem_cons_of_mem _ hb))

/-- A solver is staged with a time step only if there is a position to step. -/
theorem hasPosition_of_stage (hstage : stage system config h₀ = .ok (solver, h₁)) :
    config.dt.isSome → system.position.isSome := by
  obtain ⟨-, -, hx, -, -⟩ := stage_checks hstage
  intro hdt
  obtain ⟨dt, hdt⟩ := Option.isSome_iff_exists.1 hdt
  cases hposition : system.position with
  | some x => rfl
  | none =>
    rw [hdt, hposition] at hx
    cases hx

/-- Buffers that a solver may find, given its own and those that it was staged with: it has run
for some time, to an end or not; others have changed a buffer, though not the length of one of
the solver's own; and there are new buffers. -/
inductive Staged.Later (solver : Staged R) (own : List BufferId) (h₁ : Heap R) : Heap R → Prop
  | staged : Later solver own h₁ h₁
  | run {h : Heap R} (fuel : Nat) :
      Later solver own h₁ h → Later solver own h₁ (solver.run fuel h).2
  | write {h : Heap R} {b : BufferId} {xs : List R} : (b ∈ own → xs.length = h.length b) →
      Later solver own h₁ h → Later solver own h₁ (h.write b xs)
  | alloc {h : Heap R} (xs : List R) :
      Later solver own h₁ h → Later solver own h₁ (h.alloc xs).2

/-- **The solver's own buffers stay and keep their lengths**, whatever happens. -/
theorem Staged.Later.keeps_own (hfills : system.operator.Fills) {n : Nat}
    (h₁own : ∀ b ∈ (system.workspace h₀).own, h₁.Holds b n)
    (hlater : (system.solver config h₀).Later (system.workspace h₀).own h₁ h) :
    ∀ b ∈ (system.workspace h₀).own, h.Holds b n := by
  induction hlater with
  | staged => exact h₁own
  | @run h fuel _ ih =>
    intro b hb
    have hsize : ((system.solver config h₀).run fuel h).2.contents.size = h.contents.size :=
      System.run_keeps (L := fun h h' => h'.contents.size = h.contents.size) (fun _ => rfl)
        (fun h₁ h₂ => h₂.trans h₁) (System.native_size config h₀) fuel h
    have hlengths := System.run_sameLengths hfills config h₀ fuel h
    exact ⟨Nat.lt_of_lt_of_eq (ih b hb).allocated hsize.symm, (hlengths b).trans (ih b hb).length⟩
  | @write h c xs hxs _ ih =>
    intro b hb
    refine (ih b hb).write fun hcb => ?_
    subst hcb
    exact (hxs hb).trans (ih c hb).length
  | @alloc h xs _ ih => exact fun b hb => (ih b hb).alloc xs

/-- So they fit a positive dimension for ever, if they did at the start. -/
theorem Staged.Later.fits_own (hdim : 0 < system.operator.dim)
    (h₁fits : h₁.Fits system.operator.dim (system.workspace h₀).own)
    (hlater : (system.solver config h₀).Later (system.workspace h₀).own h₁ h) :
    h.Fits system.operator.dim (system.workspace h₀).own := fun b hb =>
  (hlater.keeps_own (.of_dim_pos hdim) (fun c hc => .of_length (h₁fits c hc) hdim) b hb).length

/-- Buffers that fit, the caller's and the solver's own, are all that a run works on. -/
theorem System.fits_buffers (hcallers : h.Fits system.operator.dim (system.callers config))
    (hown : h.Fits system.operator.dim (system.workspace h₀).own) :
    h.Fits system.operator.dim (system.buffers config h₀) := by
  intro b hb
  have hb : b ∈ system.callers config ++ (system.workspace h₀).own := by
    have hrhs : (system.workspace h₀).rhs = system.rhs := rfl
    have hsolution : (system.workspace h₀).solution = system.solution := rfl
    simp only [System.buffers, Workspace.all, System.callers, Workspace.own, hrhs, hsolution,
      List.cons_append, List.nil_append, List.mem_cons, List.mem_append] at hb ⊢
    tauto
  rcases List.mem_append.1 hb with hb | hb
  · exact hcallers b hb
  · exact hown b hb

/-- **A run ends in one of two ways.** A solver of positive dimension that was staged may have
run before and failed, and its caller may have changed what is in the buffers or how long they
are. If the caller's buffers have the right lengths when it runs, then with enough fuel the run
ends with a report, or with a division by zero outside every function. -/
theorem staged_run_ends (hdim : 0 < system.operator.dim)
    (hstage : stage system config h₀ = .ok (solver, h₁))
    (hlater : solver.Later (system.workspace h₀).own h₁ h)
    (hfits : h.Fits system.operator.dim (system.callers config)) :
    ∃ result, ((∃ report, result = .ok report) ∨
        result = .error (.stopped (.error ⟨.native "div" "division by zero", []⟩))) ∧
      ∃ enough, ∀ fuel, enough ≤ fuel → (solver.run fuel h).1 = result := by
  obtain ⟨rfl, -, h₁fits⟩ := stage_eq_ok hdim hstage
  have hall := System.fits_buffers hfits (hlater.fits_own hdim h₁fits)
  obtain ⟨enough, hends⟩ := System.solver_endsAs hdim hall
  rcases hsolve : solve system.operator config (system.workspace h₀) (system.advance config) h
    with b | s
  all_goals rw [hsolve] at hends
  · exact ⟨_, .inr rfl, enough, fun fuel hfuel => congrArg Prod.fst (hends fuel hfuel).1⟩
  · exact ⟨_, .inl ⟨s.report config, rfl⟩, enough, fun fuel hfuel =>
      congrArg Prod.fst (hends fuel hfuel).1⟩

/-- The buffers after the solver of the chain is staged. -/
def chainStaged : Heap Float :=
  .ofList [[3.0, 1.0], [0.0, 0.0], [0.0, 0.0], [0.0, 0.0], [0.0, 0.0]]

/-- The solver runs on a buffer for the solution that is too short, and then it has the right length. -/
def chainRestored : Heap Float :=
  ((chain.solver chainConfig chainHeap).run 40 (chainStaged.write ⟨1⟩ [1.0])).2.write ⟨1⟩ [0.0, 0.0]

/-- The chain is solved once while the buffer of the solution is too short, and then again in two
iterations. -/
theorem staged_run_ends_chain :
    0 < chain.operator.dim ∧
      stage chain chainConfig chainHeap = .ok (chain.solver chainConfig chainHeap, chainStaged) ∧
      (chain.solver chainConfig chainHeap).Later (chain.workspace chainHeap).own chainStaged
        chainRestored ∧
      chainRestored.Fits chain.operator.dim (chain.callers chainConfig) ∧
      ((chain.solver chainConfig chainHeap).run 40 (chainStaged.write ⟨1⟩ [1.0])).1.toOption = none ∧
      ∃ result, ((∃ report, result = .ok report) ∨
          result = .error (.stopped (.error ⟨.native "div" "division by zero", []⟩))) ∧
        result = .ok ⟨2, 0.0, true⟩ ∧
        ∃ enough, ∀ fuel, enough ≤ fuel →
          ((chain.solver chainConfig chainHeap).run fuel chainRestored).1 = result := by
  have hstage : stage chain chainConfig chainHeap =
      .ok (chain.solver chainConfig chainHeap, chainStaged) := rfl
  have hforeign : (⟨1⟩ : BufferId) ∉ (chain.workspace chainHeap).own := by decide
  have hlater : (chain.solver chainConfig chainHeap).Later (chain.workspace chainHeap).own chainStaged
      chainRestored :=
    .write (fun hmem => absurd hmem hforeign)
      (.run 40 (.write (fun hmem => absurd hmem hforeign) .staged))
  have hfits : chainRestored.Fits chain.operator.dim (chain.callers chainConfig) := by decide +kernel
  have hall : chainRestored.Fits chain.operator.dim (chain.buffers chainConfig chainHeap) := by
    decide +kernel
  obtain ⟨result, hcases, enough, hresult⟩ := staged_run_ends (by decide) hstage hlater hfits
  refine ⟨by decide, hstage, hlater, hfits, by decide +kernel, result, hcases, ?_, enough, hresult⟩
  have hcomes : (solve chain.operator chainConfig (chain.workspace chainHeap)
      (chain.advance chainConfig) chainRestored).toOption.map (Iterate.report chainConfig) =
        some ⟨2, 0.0, true⟩ := by decide +kernel
  obtain ⟨s, enough', hreport, -, hends⟩ := System.run_of_solve (by decide) hall hcomes
  rw [← hresult (max enough enough') (Nat.le_max_left _ _), hends _ (Nat.le_max_right _ _), ← hreport]

end Solver

end StagedGraph
