import StagedGraph.Proofs.Solver.Reuse

/-!
# A run has no memory

A solver is run on its caller's buffers and on three of its own, in which an earlier run left its
vectors, or half of them if it failed. They make no difference: a solve writes each of the three
before it reads it (`start_alike`). So a run does what the run of a fresh solver does on other
buffers that hold the same, whatever happened before (`rerun_eq_fresh_run`).

The buffers of the two solvers correspond by a renaming that takes different buffers to
different ones. `Heap.Alike` says which of them are known to hold the same in both heaps. A step of
the direct solver needs only buffers that are known, and what it writes is known after it.
-/

namespace StagedGraph

variable {R : Type}

/-! ### Heaps -/

namespace Heap

theorem allocated_write {h : Heap R} {b c : BufferId} {xs : List R} :
    (h.write b xs).Allocated c ↔ h.Allocated c := by
  rw [Allocated, Allocated, write, Array.size_setIfInBounds]

/-- Two heaps under a renaming of buffers. The buffers in `ws` are there in both, and no other
buffer is taken to where they are taken; the buffers in `bs` hold the same in both. -/
structure Alike (τ : BufferId → BufferId) (ws bs : List BufferId) (h k : Heap R) : Prop where
  present : ∀ b ∈ ws, h.Allocated b ∧ k.Allocated (τ b)
  apart : ∀ b ∈ ws, ∀ c ∈ ws ++ bs, τ b = τ c → b = c
  reads : ∀ b ∈ bs, k.read (τ b) = h.read b

namespace Alike

variable {τ : BufferId → BufferId} {ws bs : List BufferId} {h k : Heap R} {a b c : BufferId}

theorem mono (ha : Alike τ ws bs h k) {bs' : List BufferId} (hsub : bs' ⊆ bs) :
    Alike τ ws bs' h k where
  present := ha.present
  apart b hb c hc := ha.apart b hb c (List.mem_append.2 ((List.mem_append.1 hc).imp_right (hsub ·)))
  reads b hb := ha.reads b (hsub hb)

theorem tail (ha : Alike τ ws (b :: bs) h k) : Alike τ ws bs h k :=
  ha.mono (List.subset_cons_self b bs)

/-- What is written in both heaps is known to be the same. -/
theorem write (ha : Alike τ ws bs h k) (hb : b ∈ ws) (xs : List R) :
    Alike τ ws (b :: bs) (h.write b xs) (k.write (τ b) xs) where
  present c hc := by
    rw [allocated_write, allocated_write]
    exact ha.present c hc
  apart c hc d hd := by
    refine ha.apart c hc d ?_
    rcases List.mem_append.1 hd with hd | hd
    · exact List.mem_append_left bs hd
    · rcases List.mem_cons.1 hd with rfl | hd
      · exact List.mem_append_left bs hb
      · exact List.mem_append_right ws hd
  reads c hc := by
    obtain ⟨hhb, hkb⟩ := ha.present b hb
    by_cases hbc : b = c
    · subst hbc
      rw [h.read_write_self b xs hhb, k.read_write_self (τ b) xs hkb]
    · have hc := (List.mem_cons.1 hc).resolve_left (Ne.symm hbc)
      have hτ : τ b ≠ τ c := fun e => hbc (ha.apart b hb c (List.mem_append_right ws hc) e)
      rw [h.read_write_of_ne xs hbc, k.read_write_of_ne xs hτ]
      exact ha.reads c hc

theorem copy (ha : Alike τ ws bs h k) (hb : b ∈ ws) (hc : c ∈ bs) :
    Alike τ ws (b :: bs) (h.copy b c) (k.copy (τ b) (τ c)) := by
  rw [Heap.copy, Heap.copy, ha.reads c hc]
  exact ha.write hb _

/-- If the operator aborts then nothing is written, and the product has to be known before. -/
theorem matvec (ha : Alike τ ws bs h k) (op : LinearOperator R) (hb : b ∈ ws) (hc : c ∈ bs)
    (happly : b ∈ bs ∨ ∃ y, op.apply (h.read c) = some y) :
    Alike τ ws (b :: bs) (h.matvec op b c) (k.matvec op (τ b) (τ c)) := by
  rw [Heap.matvec, Heap.matvec, ha.reads c hc]
  cases hy : op.apply (h.read c) with
  | some y => exact ha.write hb y
  | none =>
    rcases happly with hknown | ⟨y, hy'⟩
    · exact ha.mono (List.cons_subset.2 ⟨hknown, List.Subset.refl bs⟩)
    · cases hy.symm.trans hy'

variable [Scalar R]

theorem axpy (ha : Alike τ ws bs h k) (x : R) (hans : a ∈ ws) (hb : b ∈ bs) (hc : c ∈ bs) :
    Alike τ ws (a :: bs) (h.axpy a b x c) (k.axpy (τ a) (τ b) x (τ c)) := by
  rw [Heap.axpy, Heap.axpy, ha.reads b hb, ha.reads c hc]
  exact ha.write hans _

theorem dot (ha : Alike τ ws bs h k) (hb : b ∈ bs) (hc : c ∈ bs) :
    k.dot (τ b) (τ c) = h.dot b c := by
  rw [Heap.dot, Heap.dot, ha.reads b hb, ha.reads c hc]

end Alike

end Heap

namespace Solver

namespace Workspace

/-- The same buffers under other names. -/
def rename (τ : BufferId → BufferId) (w : Workspace) : Workspace :=
  ⟨τ w.rhs, τ w.solution, τ w.residual, τ w.direction, τ w.product⟩

variable {w : Workspace} {bs : List BufferId}

theorem all_subset : w.all ⊆ bs ↔ w.rhs ∈ bs ∧ w.solution ∈ bs ∧ w.residual ∈ bs ∧
    w.direction ∈ bs ∧ w.product ∈ bs := by
  simp [all]

end Workspace

namespace Direct

/-! ### The direct solver -/

/-- The same iterate on another heap, on which the buffers in `bs` hold the same. -/
def Iterate.Alike (τ : BufferId → BufferId) (ws bs : List BufferId) (s s' : Iterate R) : Prop :=
  ∃ k, s' = { s with heap := k } ∧ s.heap.Alike τ ws bs k

/-- Two solves have results that `A` relates, or break down at the same division. -/
inductive Ends {α β : Type} (τ : BufferId → BufferId) (ws bs : List BufferId) (A : α → β → Prop) :
    Except (Breakdown R) α → Except (Breakdown R) β → Prop
  | ok {a : α} {b : β} : A a b → Ends τ ws bs A (.ok a) (.ok b)
  | error {s s' : Iterate R} {x y : R} : s.Alike τ ws bs s' →
      Ends τ ws bs A (.error ⟨s, x, y⟩) (.error ⟨s', x, y⟩)

theorem Ends.bind {α β γ δ : Type} {τ : BufferId → BufferId} {ws bs : List BufferId}
    {A : α → β → Prop} {B : γ → δ → Prop} {x : Except (Breakdown R) α} {y : Except (Breakdown R) β}
    {f : α → Except (Breakdown R) γ} {g : β → Except (Breakdown R) δ} (hxy : Ends τ ws bs A x y)
    (hfg : ∀ a b, A a b → Ends τ ws bs B (f a) (g b)) : Ends τ ws bs B (x >>= f) (y >>= g) := by
  cases hxy with
  | ok h => exact hfg _ _ h
  | error h => exact .error h

section Steps

variable {op : LinearOperator R} {config : Config R} {w : Workspace}
  {τ : BufferId → BufferId} {ws bs : List BufferId} {s s' : Iterate R} {h k : Heap R}

/-- **A solve starts with what its caller gives it.** The product, the residual and the direction
are written, in this order, and read after that. -/
theorem start_alike [Scalar R] (hws : w.all ⊆ ws) (hrhs : w.rhs ∈ bs) (hsolution : w.solution ∈ bs)
    (happly : ∃ y, op.apply (h.read w.solution) = some y) (ha : h.Alike τ ws bs k) :
    (start op w h).Alike τ ws (w.direction :: w.residual :: w.product :: bs)
      (start op (w.rename τ) k) := by
  obtain ⟨-, -, hr, hd, hq⟩ := Workspace.all_subset.1 hws
  have hproduct := ha.matvec op hq hsolution (.inr happly)
  have hresidual := hproduct.axpy (Scalar.ofInt64 (-1)) hr (List.mem_cons_of_mem w.product hrhs)
    List.mem_cons_self
  have hdirection := hresidual.copy hd List.mem_cons_self
  have hnorm := hdirection.dot (b := w.residual) (c := w.residual) (by simp) (by simp)
  refine ⟨_, ?_, hdirection⟩
  simp only [start, Workspace.rename, hnorm]

variable (hws : w.all ⊆ ws) (hbs : w.all ⊆ bs)

namespace Iterate.Alike

theorem mono (h : s.Alike τ ws bs s') {bs' : List BufferId} (hsub : bs' ⊆ bs) :
    s.Alike τ ws bs' s' := by
  obtain ⟨k, rfl, ha⟩ := h
  exact ⟨k, rfl, ha.mono hsub⟩

theorem r2New_eq (h : s.Alike τ ws bs s') : s'.r2New = s.r2New := by
  obtain ⟨k, rfl, -⟩ := h
  rfl

theorem dot_eq [Scalar R] {b c : BufferId} (h : s.Alike τ ws bs s') (hb : b ∈ bs) (hc : c ∈ bs) :
    s'.heap.dot (τ b) (τ c) = s.heap.dot b c := by
  obtain ⟨k, rfl, ha⟩ := h
  exact ha.dot hb hc

include hws hbs

theorem apply (op : LinearOperator R) (h : s.Alike τ ws bs s') :
    (s.apply op w).Alike τ ws bs (s'.apply op (w.rename τ)) := by
  obtain ⟨k, rfl, ha⟩ := h
  obtain ⟨-, -, -, -, hq⟩ := Workspace.all_subset.1 hws
  obtain ⟨-, -, -, hd, hq'⟩ := Workspace.all_subset.1 hbs
  have hproduct := ha.matvec op hq hd (.inl hq')
  exact ⟨_, rfl, hproduct.tail⟩

variable [Scalar R]

theorem move (alpha : R) (h : s.Alike τ ws bs s') :
    (s.move w alpha).Alike τ ws bs (s'.move (w.rename τ) alpha) := by
  obtain ⟨k, rfl, ha⟩ := h
  obtain ⟨-, hv, hr, -, -⟩ := Workspace.all_subset.1 hws
  obtain ⟨-, hv', hr', hd', hq'⟩ := Workspace.all_subset.1 hbs
  have hsolution := (ha.axpy alpha hv hv' hd').tail
  have hresidual := (hsolution.axpy (-alpha) hr hr' hq').tail
  have hnorm := hresidual.dot hr' hr'
  refine ⟨_, ?_, hresidual⟩
  simp only [Iterate.move, Workspace.rename, hnorm]

theorem turn (beta : R) (h : s.Alike τ ws bs s') :
    (s.turn w beta).Alike τ ws bs (s'.turn (w.rename τ) beta) := by
  obtain ⟨k, rfl, ha⟩ := h
  obtain ⟨-, -, -, hd, -⟩ := Workspace.all_subset.1 hws
  obtain ⟨-, -, hr', hd', -⟩ := Workspace.all_subset.1 hbs
  exact ⟨_, rfl, (ha.axpy beta hd hr' hd').tail⟩

omit hws in
theorem advance {position : Option (R × BufferId)}
    (hposition : ∀ dt x, position = some (dt, x) → x ∈ ws ∧ x ∈ bs) (h : s.Alike τ ws bs s') :
    (s.advance w position).Alike τ ws bs
      (s'.advance (w.rename τ) (position.map fun (dt, x) => (dt, τ x))) := by
  rcases position with _ | ⟨dt, x⟩
  · exact h
  · obtain ⟨k, rfl, ha⟩ := h
    obtain ⟨hx, hx'⟩ := hposition dt x rfl
    obtain ⟨-, hv', -, -, -⟩ := Workspace.all_subset.1 hbs
    exact ⟨_, rfl, (ha.axpy dt hx hx' hv').tail⟩

end Iterate.Alike

variable [Scalar R]

theorem quotient_ends (h : s.Alike τ ws bs s') (x y : R) :
    Ends τ ws bs Eq (quotient s x y) (quotient s' x y) := by
  rw [quotient, quotient]
  split
  · exact .error h
  · exact .ok rfl

/-- Two results of a step: alike iterates, both or none of which is the last. -/
def AlikeStep (τ : BufferId → BufferId) (ws bs : List BufferId) (a b : Iterate R × Bool) : Prop :=
  a.1.Alike τ ws bs b.1 ∧ b.2 = a.2

include hws hbs

theorem finish_ends (h : s.Alike τ ws bs s') (r2 : R) :
    Ends τ ws bs (AlikeStep τ ws bs) (s.finish config w r2) (s'.finish config (w.rename τ) r2) := by
  have hconverged : s'.converged config = s.converged config := by
    obtain ⟨k, rfl, -⟩ := h
    rfl
  rw [Iterate.finish, Iterate.finish, hconverged, h.r2New_eq]
  split
  · exact .ok ⟨h, rfl⟩
  · refine (quotient_ends h _ _).bind fun beta beta' hbeta => ?_
    cases hbeta
    exact .ok ⟨h.turn hws hbs beta, rfl⟩

theorem step_ends (h : s.Alike τ ws bs s') :
    Ends τ ws bs (AlikeStep τ ws bs) (step op config w s) (step op config (w.rename τ) s') := by
  have happly := h.apply hws hbs op
  obtain ⟨-, -, -, hd, hq⟩ := Workspace.all_subset.1 hbs
  have hquotient : Ends τ ws bs Eq
      (quotient (s.apply op w) (s.apply op w).r2New
        ((s.apply op w).heap.dot w.direction w.product))
      (quotient (s'.apply op (w.rename τ)) (s'.apply op (w.rename τ)).r2New
        ((s'.apply op (w.rename τ)).heap.dot (τ w.direction) (τ w.product))) := by
    rw [happly.r2New_eq, happly.dot_eq hd hq]
    exact quotient_ends happly _ _
  refine hquotient.bind fun alpha alpha' halpha => ?_
  cases halpha
  rw [happly.r2New_eq]
  exact finish_ends hws hbs (happly.move hws hbs alpha) _

theorem loop_ends (left : Nat) (h : s.Alike τ ws bs s') :
    Ends τ ws bs (Iterate.Alike τ ws bs) (loop op config w left s)
      (loop op config (w.rename τ) left s') := by
  induction left generalizing s s' with
  | zero => exact .ok h
  | succ left ih =>
    refine (step_ends hws hbs h).bind fun ⟨t, last⟩ ⟨t', last'⟩ ⟨hiterate, hlast⟩ => ?_
    cases hlast
    cases last with
    | true => exact .ok hiterate
    | false => exact ih hiterate

theorem guarded_ends (op : LinearOperator R) (config : Config R) (h : s.Alike τ ws bs s') :
    Ends τ ws bs (Iterate.Alike τ ws bs) (guarded op config w s)
      (guarded op config (w.rename τ) s') := by
  have hpositive : s'.positive = s.positive := by
    obtain ⟨k, rfl, -⟩ := h
    rfl
  rw [guarded, guarded, hpositive]
  split
  · exact loop_ends hws hbs _ h
  · exact .ok h

omit hbs in
/-- **A solve depends on what its caller gives it, and on nothing else.** -/
theorem solve_ends {position : Option (R × BufferId)} (hrhs : w.rhs ∈ bs)
    (hsolution : w.solution ∈ bs) (hposition : ∀ dt x, position = some (dt, x) → x ∈ ws ∧ x ∈ bs)
    (happly : ∃ y, op.apply (h.read w.solution) = some y) (ha : h.Alike τ ws bs k) :
    Ends τ ws bs (Iterate.Alike τ ws bs) (solve op config w position h)
      (solve op config (w.rename τ) (position.map fun (dt, x) => (dt, τ x)) k) := by
  have hsub : bs ⊆ w.direction :: w.residual :: w.product :: bs :=
    fun b hb => by simp [hb]
  have hbs : w.all ⊆ w.direction :: w.residual :: w.product :: bs :=
    Workspace.all_subset.2 (by simp [hrhs, hsolution])
  have hguarded := guarded_ends hws hbs op config (start_alike hws hrhs hsolution happly ha)
  rw [solve, solve]
  generalize guarded op config w (start op w h) = x at hguarded
  generalize guarded op config (w.rename τ) (start op (w.rename τ) k) = y at hguarded
  cases hguarded with
  | ok h =>
    exact .ok ((h.advance hbs fun dt x hx => (hposition dt x hx).imp_right (hsub ·)).mono hsub)
  | error h => exact .error (h.mono hsub)

end Steps

end Direct

/-! ### Systems on other buffers -/

/-- The same system on other buffers. -/
def System.rename (σ : BufferId → BufferId) (system : System R) : System R :=
  { system with
    rhs := σ system.rhs
    solution := σ system.solution
    position := system.position.map σ }

/-- The buffers that a system was given. -/
def System.handles (system : System R) : List BufferId :=
  system.rhs :: system.solution :: system.position.toList

/-- Where the buffers of one solver are for another one: those that were there when it was staged
are renamed, and the new ones stand in the order in which they were made. -/
def carry (σ : BufferId → BufferId) (h₀ k₀ : Heap R) (b : BufferId) : BufferId :=
  if h₀.Allocated b then σ b else ⟨b.index - h₀.contents.size + k₀.contents.size⟩

theorem carry_of_allocated {σ : BufferId → BufferId} {h₀ : Heap R} {b : BufferId}
    (hb : h₀.Allocated b) (k₀ : Heap R) : carry σ h₀ k₀ b = σ b := if_pos hb

section Systems

variable [Scalar R] {system : System R} {config : Config R} {σ : BufferId → BufferId}
  {h₀ h k₀ k : Heap R} {b c : BufferId}

open Direct

/-- The solver's own buffers are the next three. -/
theorem System.workspace_eq (system : System R) (h : Heap R) : system.workspace h =
    ⟨system.rhs, system.solution, ⟨h.contents.size⟩, ⟨h.contents.size + 1⟩,
      ⟨h.contents.size + 2⟩⟩ := by
  simp [workspace, Workspace.allocate, Heap.alloc]

theorem System.workspace_rename (hrhs : h₀.Allocated system.rhs)
    (hsolution : h₀.Allocated system.solution) (σ : BufferId → BufferId) (k₀ : Heap R) :
    (system.rename σ).workspace k₀ = (system.workspace h₀).rename (carry σ h₀ k₀) := by
  have hnew (i : Nat) : carry σ h₀ k₀ ⟨h₀.contents.size + i⟩ = ⟨k₀.contents.size + i⟩ := by
    have hi : ¬ h₀.Allocated ⟨h₀.contents.size + i⟩ := Nat.not_lt.2 (Nat.le_add_right _ i)
    rw [carry, if_neg hi]
    dsimp only
    rw [Nat.add_sub_cancel_left, Nat.add_comm]
  rw [System.workspace_eq, System.workspace_eq, Workspace.rename, carry_of_allocated hrhs,
    carry_of_allocated hsolution, hnew 1, hnew 2]
  rw [show carry σ h₀ k₀ ⟨h₀.contents.size⟩ = ⟨k₀.contents.size⟩ from hnew 0]
  rfl

omit [Scalar R] in
theorem System.mem_handles_of_advance {dt : R} (h : system.advance config = some (dt, b)) :
    b ∈ system.handles := by
  rw [System.advance] at h
  rcases hdt : config.dt with _ | dt'
  · rw [hdt] at h
    cases h
  · rcases hx : system.position with _ | x
    · rw [hdt, hx] at h
      cases h
    · rw [hdt, hx] at h
      cases h
      simp [System.handles, hx]

omit [Scalar R] in
theorem System.advance_rename (hhandles : ∀ b ∈ system.handles, h₀.Allocated b)
    (σ : BufferId → BufferId) (k₀ : Heap R) : (system.rename σ).advance config =
      (system.advance config).map fun (dt, x) => (dt, carry σ h₀ k₀ x) := by
  rcases hdt : config.dt with _ | dt
  · simp [System.advance, advanceOf, hdt]
  · rcases hx : system.position with _ | x
    · simp [System.advance, System.rename, advanceOf, hdt, hx]
    · have hxh : h₀.Allocated x := hhandles x (by simp [System.handles, hx])
      simp [System.advance, System.rename, advanceOf, hdt, hx, carry_of_allocated hxh]

theorem System.buffers_rename (hhandles : ∀ b ∈ system.handles, h₀.Allocated b)
    (σ : BufferId → BufferId) (k₀ : Heap R) : (system.rename σ).buffers config k₀ =
      (system.buffers config h₀).map (carry σ h₀ k₀) := by
  have hrhs : h₀.Allocated system.rhs := hhandles _ (by simp [System.handles])
  have hsolution : h₀.Allocated system.solution := hhandles _ (by simp [System.handles])
  rw [System.buffers, System.buffers, System.workspace_rename hrhs hsolution σ k₀,
    System.advance_rename hhandles σ k₀]
  cases system.advance config <;> simp [Workspace.all, Workspace.rename]

/-- Of the buffers that a solver works on, those that were there when it was staged are its
caller's. -/
theorem System.mem_handles_of_allocated (hb : b ∈ system.buffers config h₀)
    (hallocated : h₀.Allocated b) : b ∈ system.handles := by
  rw [System.buffers, System.workspace_eq] at hb
  have hnew (i : Nat) : b ≠ ⟨h₀.contents.size + i⟩ := by
    rintro rfl
    exact absurd hallocated (Nat.not_lt.2 (Nat.le_add_right _ i))
  rcases List.mem_append.1 hb with hb | hb
  · simp only [Workspace.all, List.mem_cons, List.not_mem_nil, or_false] at hb
    rcases hb with rfl | rfl | hb | hb | hb
    · simp [System.handles]
    · simp [System.handles]
    · exact absurd hb (hnew 0)
    · exact absurd hb (hnew 1)
    · exact absurd hb (hnew 2)
  · obtain ⟨⟨dt, x⟩, hx, rfl⟩ := List.mem_map.1 hb
    exact System.mem_handles_of_advance (Option.mem_toList.1 hx)

/-- Two heaps on which two solvers find the same in the buffers that they were given: what they work
on is alike, as no buffer of a solver's own is one of the others. -/
theorem System.alike (hhandles : ∀ b ∈ system.handles, h₀.Allocated b)
    (hσ : ∀ b ∈ system.handles, ∀ c ∈ system.handles, σ b = σ c → b = c)
    (hk₀ : ∀ b ∈ system.handles, k₀.Allocated (σ b))
    (hpresent : ∀ b ∈ system.buffers config h₀, h.Allocated b ∧ k.Allocated (carry σ h₀ k₀ b))
    (hreads : ∀ b ∈ system.handles, k.read (σ b) = h.read b) :
    h.Alike (carry σ h₀ k₀) (system.buffers config h₀) system.handles k where
  present := hpresent
  apart b hb c hc heq := by
    have hc (hallocated : h₀.Allocated c) : c ∈ system.handles :=
      (List.mem_append.1 hc).elim (System.mem_handles_of_allocated · hallocated) id
    have hb (hallocated : h₀.Allocated b) : b ∈ system.handles :=
      System.mem_handles_of_allocated hb hallocated
    have hindex := congrArg BufferId.index heq
    by_cases hab : h₀.Allocated b <;> by_cases hac : h₀.Allocated c
    · rw [carry_of_allocated hab, carry_of_allocated hac] at heq
      exact hσ b (hb hab) c (hc hac) heq
    · have hlt : (σ b).index < k₀.contents.size := hk₀ b (hb hab)
      rw [carry_of_allocated hab, carry, if_neg hac] at hindex
      dsimp only at hindex
      omega
    · have hlt : (σ c).index < k₀.contents.size := hk₀ c (hc hac)
      rw [carry_of_allocated hac, carry, if_neg hab] at hindex
      dsimp only at hindex
      omega
    · rw [carry, carry, if_neg hab, if_neg hac] at hindex
      dsimp only at hindex
      have hgb : h₀.contents.size ≤ b.index := Nat.le_of_not_lt hab
      have hgc : h₀.contents.size ≤ c.index := Nat.le_of_not_lt hac
      cases b
      cases c
      congr 1
      dsimp only at *
      omega
  reads b hb := by
    rw [carry_of_allocated (hhandles b hb)]
    exact hreads b hb

omit [Scalar R] in
theorem System.callers_rename (σ : BufferId → BufferId) (config : Config R) :
    (system.rename σ).callers config = (system.callers config).map σ := by
  rcases hdt : config.dt with _ | dt <;> rcases hx : system.position with _ | x <;>
    simp [System.callers, System.rename, System.advance, advanceOf, hdt, hx]

omit [Scalar R] in
theorem System.mem_handles_of_callers (hb : b ∈ system.callers config) : b ∈ system.handles := by
  rcases List.mem_cons.1 hb with rfl | hb
  · simp [System.handles]
  rcases List.mem_cons.1 hb with rfl | hb
  · simp [System.handles]
  obtain ⟨⟨dt, x⟩, hx, rfl⟩ := List.mem_map.1 hb
  exact System.mem_handles_of_advance (Option.mem_toList.1 hx)

/-- New buffers leave the others alone. -/
theorem read_allocate {rhs solution : BufferId} {dim : Nat} (hb : h.Allocated b) :
    (Workspace.allocate rhs solution dim h).2.read b = h.read b := by
  have hpush {h : Heap R} (xs : List R) (hb : h.Allocated b) : (h.alloc xs).2.Allocated b := by
    rw [Heap.Allocated, Heap.alloc, Array.size_push]
    exact Nat.lt_succ_of_lt hb
  simp only [Workspace.allocate]
  rw [Heap.read_alloc_of_allocated _ _ (hpush _ (hpush _ hb)),
    Heap.read_alloc_of_allocated _ _ (hpush _ hb), Heap.read_alloc_of_allocated _ _ hb]

/-- What the run of a solver yields, and the buffers that it leaves, if the direct solver ends so. -/
def endOf (config : Config R) :
    Except (Breakdown R) (Iterate R) → Except SolverError (Report R) × Heap R
  | .ok s => (.ok (s.report config), s.heap)
  | .error b => (.error (.stopped divisionByZero), b.iterate.heap)

theorem Staged.EndsAs.run_eq {solver : Staged R} {fuel : Nat}
    {x : Except (Breakdown R) (Iterate R)} (hx : solver.EndsAs fuel h config x) :
    solver.run fuel h = endOf config x := by
  cases x with
  | ok s => exact hx.1
  | error b => exact hx.1

theorem endOf_ne_outOfFuel (config : Config R) (x : Except (Breakdown R) (Iterate R)) :
    (endOf config x).1 ≠ .error (.stopped .outOfFuel) := by
  cases x with
  | ok s => nofun
  | error b => nofun

/-- Solves that end alike have the same result, and leave the same in the buffers that are known. -/
theorem Direct.Ends.endOf_eq {τ : BufferId → BufferId} {ws bs : List BufferId}
    {x y : Except (Breakdown R) (Iterate R)} (hends : Ends τ ws bs (Iterate.Alike τ ws bs) x y)
    (config : Config R) : (endOf config y).1 = (endOf config x).1 ∧
      ∀ b ∈ bs, (endOf config y).2.read (τ b) = (endOf config x).2.read b := by
  cases hends with
  | ok h =>
    obtain ⟨k, rfl, ha⟩ := h
    exact ⟨rfl, ha.reads⟩
  | error h =>
    obtain ⟨k, rfl, ha⟩ := h
    exact ⟨rfl, ha.reads⟩

end Systems

section Reruns

variable [Scalar R] {system : System R} {config : Config R} {solver : Staged R}
  {σ : BufferId → BufferId} {h₀ h₁ h k₀ : Heap R}

open Direct

/-- A fresh solver can be staged on buffers that hold the same, and it finds the same in them. -/
theorem stage_rename (hdim : 0 < system.operator.dim)
    (hposition : config.dt.isSome → system.position.isSome)
    (hfits : h.Fits system.operator.dim (system.callers config))
    (hsame : ∀ b ∈ system.handles, k₀.Allocated (σ b) ∧ k₀.read (σ b) = h.read b) :
    ∃ k₁, stage (system.rename σ) config k₀ = .ok ((system.rename σ).solver config k₀, k₁) ∧
      k₁.Fits system.operator.dim ((system.rename σ).buffers config k₀) ∧
      ∀ b ∈ system.handles, k₁.read (σ b) = h.read b := by
  have hcallers : k₀.Fits system.operator.dim ((system.rename σ).callers config) := by
    rw [System.callers_rename]
    intro b hb
    obtain ⟨c, hc, rfl⟩ := List.mem_map.1 hb
    rw [Heap.length, (hsame c (System.mem_handles_of_callers hc)).2]
    exact hfits c hc
  obtain ⟨k₁, hfresh, hk₁⟩ : ∃ k₁, stage (system.rename σ) config k₀ =
      .ok ((system.rename σ).solver config k₀, k₁) ∧
      k₁.Fits system.operator.dim ((system.rename σ).buffers config k₀) :=
    stage_succeeds hdim (fun hdt => Option.isSome_map.trans (hposition hdt)) hcallers
  refine ⟨k₁, hfresh, hk₁, fun b hb => ?_⟩
  obtain ⟨-, -, -, -, rfl⟩ := stage_checks hfresh
  rw [read_allocate (hsame b hb).1]
  exact (hsame b hb).2

/-- The direct solver does the same on the buffers of both solvers. -/
theorem solve_rename {k₁ : Heap R} (hdim : 0 < system.operator.dim)
    (hhandles : ∀ b ∈ system.handles, h₀.Allocated b)
    (hσ : ∀ b ∈ system.handles, ∀ c ∈ system.handles, σ b = σ c → b = c)
    (hk₀ : ∀ b ∈ system.handles, k₀.Allocated (σ b))
    (hfits : h.Fits system.operator.dim (system.buffers config h₀))
    (hfits' : k₁.Fits system.operator.dim ((system.rename σ).buffers config k₀))
    (hreads : ∀ b ∈ system.handles, k₁.read (σ b) = h.read b) :
    Ends (carry σ h₀ k₀) (system.buffers config h₀) system.handles
      (Iterate.Alike (carry σ h₀ k₀) (system.buffers config h₀) system.handles)
      (solve system.operator config (system.workspace h₀) (system.advance config) h)
      (solve system.operator config ((system.rename σ).workspace k₀)
        ((system.rename σ).advance config) k₁) := by
  have hpresent : ∀ b ∈ system.buffers config h₀,
      h.Allocated b ∧ k₁.Allocated (carry σ h₀ k₀ b) := by
    intro b hb
    have hlength : h.length b = system.operator.dim := hfits b hb
    have hlength' : k₁.length (carry σ h₀ k₀ b) = system.operator.dim :=
      hfits' _ (System.buffers_rename hhandles σ k₀ ▸ List.mem_map_of_mem hb)
    exact ⟨Heap.allocated_of_length_pos (by omega), Heap.allocated_of_length_pos (by omega)⟩
  have hrhs : system.rhs ∈ system.handles := by simp [System.handles]
  have hsolution : system.solution ∈ system.handles := by simp [System.handles]
  obtain ⟨y, hy, -⟩ := system.operator.apply_some (h.read system.solution) hdim
    (hfits _ (by simp [System.buffers, Workspace.all, System.workspace_eq]))
  rw [System.workspace_rename (hhandles _ hrhs) (hhandles _ hsolution) σ k₀,
    System.advance_rename hhandles σ k₀]
  exact solve_ends (List.subset_append_left _ _) hrhs hsolution
    (fun dt x hx => ⟨by simp [hx], System.mem_handles_of_advance hx⟩) ⟨y, hy⟩
    (System.alike hhandles hσ hk₀ hpresent hreads)

/-- **Runs carry no hidden history.** A solver of positive dimension was staged, and has run any
number of times, to an end or not, while its caller changed what is in the buffers. Then a fresh
solver is staged with the same operator and the same settings on other buffers, which hold the
same as those of the first and are shared as those are. With enough fuel both runs end in the same
way, with the same report or the same error, and the buffers of their callers hold the same. -/
theorem rerun_eq_fresh_run (hdim : 0 < system.operator.dim)
    (hstage : stage system config h₀ = .ok (solver, h₁))
    (hhandles : ∀ b ∈ system.handles, h₀.Allocated b)
    (hlater : solver.Later (system.workspace h₀).own h₁ h)
    (hfits : h.Fits system.operator.dim (system.callers config))
    (hσ : ∀ b ∈ system.handles, ∀ c ∈ system.handles, σ b = σ c → b = c)
    (hsame : ∀ b ∈ system.handles, k₀.Allocated (σ b) ∧ k₀.read (σ b) = h.read b) :
    ∃ fresh k₁, stage (system.rename σ) config k₀ = .ok (fresh, k₁) ∧
      ∃ result enough, result ≠ .error (.stopped .outOfFuel) ∧ ∀ fuel, enough ≤ fuel →
        (solver.run fuel h).1 = result ∧ (fresh.run fuel k₁).1 = result ∧
          ∀ b ∈ system.handles, (fresh.run fuel k₁).2.read (σ b) = (solver.run fuel h).2.read b := by
  have hposition := hasPosition_of_stage hstage
  obtain ⟨rfl, -, h₁fits⟩ := stage_eq_ok hdim hstage
  have hall := System.fits_buffers hfits (hlater.fits_own hdim h₁fits)
  obtain ⟨k₁, hfresh, hall', hreads⟩ := stage_rename hdim hposition hfits hsame
  have hends := solve_rename hdim hhandles hσ (fun b hb => (hsame b hb).1) hall hall' hreads
  obtain ⟨hresult, hbuffers⟩ := hends.endOf_eq config
  obtain ⟨m, hm⟩ := System.solver_endsAs hdim hall
  obtain ⟨n, hn⟩ := System.solver_endsAs (show 0 < (system.rename σ).operator.dim from hdim) hall'
  refine ⟨_, k₁, hfresh, (endOf config (solve system.operator config (system.workspace h₀)
    (system.advance config) h)).1, max m n, endOf_ne_outOfFuel config _, fun fuel hfuel => ?_⟩
  have hrun := (hm fuel (by omega)).run_eq
  have hrun' := (hn fuel (by omega)).run_eq
  refine ⟨congrArg Prod.fst hrun, (congrArg Prod.fst hrun').trans hresult, fun b hb => ?_⟩
  have hbuffer := hbuffers b hb
  rw [carry_of_allocated (hhandles b hb)] at hbuffer
  rw [hrun, hrun']
  exact hbuffer

end Reruns

/-- The buffers of a caller who made that of the solution first, and that of the right side after
it. -/
def swappedHeap : Heap Float := .ofList [[1.0, 1.0], [4.0, 2.0]]

/-- Where the buffers of the chain are then. -/
def swapped (b : BufferId) : BufferId := ⟨1 - b.index⟩

/-- The buffers of the chain after a run that failed, filled as those of the other caller. -/
def chainRefilled : Heap Float := (chainRestored.write ⟨0⟩ [4.0, 2.0]).write ⟨1⟩ [1.0, 1.0]

/-- The chain is solved while the buffer of the solution is too short, and fails. Then both buffers
are filled again, and another solver is staged on buffers that hold the same, in the other order. Both
solve the chain in two iterations. -/
theorem rerun_eq_fresh_run_chain :
    0 < chain.operator.dim ∧
      stage chain chainConfig chainHeap = .ok (chain.solver chainConfig chainHeap, chainStaged) ∧
      (∀ b ∈ chain.handles, chainHeap.Allocated b) ∧
      (chain.solver chainConfig chainHeap).Later (chain.workspace chainHeap).own chainStaged
        chainRefilled ∧
      chainRefilled.Fits chain.operator.dim (chain.callers chainConfig) ∧
      (∀ b ∈ chain.handles, ∀ c ∈ chain.handles, swapped b = swapped c → b = c) ∧
      (∀ b ∈ chain.handles,
        swappedHeap.Allocated (swapped b) ∧ swappedHeap.read (swapped b) = chainRefilled.read b) ∧
      ∃ fresh k₁, stage (chain.rename swapped) chainConfig swappedHeap = .ok (fresh, k₁) ∧
        ∃ result enough, result ≠ .error (.stopped .outOfFuel) ∧ result = .ok ⟨2, 0.0, true⟩ ∧
          ∀ fuel, enough ≤ fuel →
            ((chain.solver chainConfig chainHeap).run fuel chainRefilled).1 = result ∧
              (fresh.run fuel k₁).1 = result ∧
              (∀ b ∈ chain.handles, (fresh.run fuel k₁).2.read (swapped b) =
                ((chain.solver chainConfig chainHeap).run fuel chainRefilled).2.read b) ∧
              (fresh.run fuel k₁).2.read ⟨0⟩ = [3.0625, 2.9375] := by
  have hstage : stage chain chainConfig chainHeap =
      .ok (chain.solver chainConfig chainHeap, chainStaged) := rfl
  have hhandles : ∀ b ∈ chain.handles, chainHeap.Allocated b := by decide
  have hlater : (chain.solver chainConfig chainHeap).Later (chain.workspace chainHeap).own chainStaged
      chainRefilled := by
    have hwrite {b : BufferId} (hb : b ∉ (chain.workspace chainHeap).own) {h : Heap Float}
        (xs : List Float)
        (hl : (chain.solver chainConfig chainHeap).Later (chain.workspace chainHeap).own chainStaged h) :
        (chain.solver chainConfig chainHeap).Later (chain.workspace chainHeap).own chainStaged
          (h.write b xs) :=
      .write (fun hmem => absurd hmem hb) hl
    have hshort := hwrite (b := ⟨1⟩) (by decide) [1.0] .staged
    exact hwrite (by decide) _ (hwrite (by decide) _ (hwrite (by decide) _ (.run 40 hshort)))
  have hfits : chainRefilled.Fits chain.operator.dim (chain.callers chainConfig) := by decide +kernel
  have hall : chainRefilled.Fits chain.operator.dim (chain.buffers chainConfig chainHeap) := by
    decide +kernel
  have hdistinct : ∀ b ∈ chain.handles, ∀ c ∈ chain.handles, swapped b = swapped c → b = c := by
    decide
  have hswapped : ∀ b ∈ chain.handles,
      swappedHeap.Allocated (swapped b) ∧ swappedHeap.read (swapped b) = chainRefilled.read b := by
    decide +kernel
  have hcomes : (Direct.solve chain.operator chainConfig (chain.workspace chainHeap)
      (chain.advance chainConfig) chainRefilled).toOption.map
        (fun s => (s.report chainConfig, s.heap.read ⟨1⟩)) =
        some (⟨2, 0.0, true⟩, [3.0625, 2.9375]) := by decide +kernel
  obtain ⟨s, enough', hout, -, hends⟩ := System.run_of_solve (by decide) hall hcomes
  obtain ⟨hreport, hsolution⟩ := Prod.mk.inj hout
  obtain ⟨fresh, k₁, hfresh, result, enough, hne, hboth⟩ :=
    rerun_eq_fresh_run (by decide) hstage hhandles hlater hfits hdistinct hswapped
  have hresult : result = .ok ⟨2, 0.0, true⟩ := by
    rw [← (hboth (max enough enough') (Nat.le_max_left _ _)).1, hends _ (Nat.le_max_right _ _), ← hreport]
  refine ⟨by decide, hstage, hhandles, hlater, hfits, hdistinct, hswapped, fresh, k₁, hfresh, result,
    max enough enough', hne, hresult, fun fuel hfuel => ?_⟩
  obtain ⟨hagain, hnew, hbuffers⟩ := hboth fuel (Nat.le_trans (Nat.le_max_left _ _) hfuel)
  refine ⟨hagain, hnew, hbuffers, ?_⟩
  calc (fresh.run fuel k₁).2.read (swapped ⟨1⟩)
      = ((chain.solver chainConfig chainHeap).run fuel chainRefilled).2.read ⟨1⟩ :=
        hbuffers ⟨1⟩ (by decide)
    _ = [3.0625, 2.9375] := by
        rw [hends fuel (Nat.le_trans (Nat.le_max_right _ _) hfuel), ← hsolution]

end Solver

end StagedGraph
