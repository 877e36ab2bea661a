import StagedGraph.Solver.Staged

/-!
# The direct solver

The method of conjugate gradients as a loop over buffers: the text in the head of the
staging module, executed without a program graph, variables or an interpreter. It is what
the staged program is compared with.

The loop stops with a `Breakdown` where it would divide by zero. A breakdown says how far
the loop had come and which division it was.
-/

namespace StagedGraph

namespace Heap

variable {R : Type}

/-- `ans := a + k * b`, entry by entry. -/
def axpy [Scalar R] (h : Heap R) (ans a : BufferId) (k : R) (b : BufferId) : Heap R :=
  h.write ans (List.zipWith (fun x y => x + k * y) (h.read a) (h.read b))

/-- The sum of the products of the entries of two buffers, from the left. -/
def dot [Scalar R] (h : Heap R) (a b : BufferId) : R :=
  (List.zipWith (fun x y => x * y) (h.read a) (h.read b)).foldl (fun sum xy => sum + xy) Scalar.sumStart

/-- `dst := src`. -/
def copy (h : Heap R) (dst src : BufferId) : Heap R := h.write dst (h.read src)

/-- `out := op x`, unless the operator aborts. -/
def matvec (h : Heap R) (op : LinearOperator R) (out x : BufferId) : Heap R :=
  match op.apply (h.read x) with
  | some y => h.write out y
  | none => h

/-- These buffers have this length. -/
def Fits (h : Heap R) (n : Nat) (bs : List BufferId) : Prop := ∀ b ∈ bs, h.length b = n

instance (h : Heap R) (n : Nat) (bs : List BufferId) : Decidable (h.Fits n bs) :=
  inferInstanceAs (Decidable (∀ b ∈ bs, h.length b = n))

theorem read_write (h : Heap R) (b c : BufferId) (xs : List R) :
    (h.write b xs).read c = xs ∨ (h.write b xs).read c = h.read c := by
  by_cases hbc : b = c
  · subst hbc
    by_cases hb : h.Allocated b
    · exact .inl (h.read_write_self b xs hb)
    · refine .inr ?_
      have hb' : h.contents.size ≤ b.index := Nat.le_of_not_lt hb
      simp [read, write, Array.getD_eq_getD_getElem?, hb']
  · exact .inr (h.read_write_of_ne xs hbc)

/-- A buffer that was never allocated reads as empty. -/
theorem allocated_of_length_pos {h : Heap R} {b : BufferId} (hb : 0 < h.length b) :
    h.Allocated b := by
  rcases Nat.lt_or_ge b.index h.contents.size with hlt | hge
  · exact hlt
  · rw [length, read, Array.getD_eq_getD_getElem?, Array.getElem?_eq_none hge] at hb
    exact absurd hb (Nat.lt_irrefl 0)

theorem read_alloc_of_allocated (h : Heap R) (xs : List R) {b : BufferId} (hb : h.Allocated b) :
    (h.alloc xs).2.read b = h.read b := by
  simp only [read, alloc, Array.getD_eq_getD_getElem?]
  rw [Array.getElem?_push_lt hb, Array.getElem?_eq_getElem hb]

namespace Fits

variable {h : Heap R} {n : Nat} {bs : List BufferId}

theorem same (hf : h.Fits n bs) {a b : BufferId} (ha : a ∈ bs) (hb : b ∈ bs) :
    h.length a = h.length b := (hf a ha).trans (hf b hb).symm

/-- Buffers keep their length if vectors of that length are written. -/
theorem write (hf : h.Fits n bs) (b : BufferId) {xs : List R} (hxs : xs.length = n) :
    (h.write b xs).Fits n bs := by
  intro c hc
  rcases h.read_write b c xs with he | he
  · rw [length, he, hxs]
  · rw [length, he]
    exact hf c hc

/-- A new buffer of that length is one more such buffer. -/
theorem alloc (hn : 0 < n) (hf : h.Fits n bs) {xs : List R} (hxs : xs.length = n) :
    (h.alloc xs).2.Fits n ((h.alloc xs).1 :: bs) := by
  refine List.forall_mem_cons.2 ⟨(congrArg List.length (h.read_alloc_self xs)).trans hxs, ?_⟩
  intro b hb
  have hlen := hf b hb
  rw [length, h.read_alloc_of_allocated xs (allocated_of_length_pos (by omega))]
  exact hlen

theorem axpy [Scalar R] (hf : h.Fits n bs) (ans : BufferId) {a b : BufferId} (k : R) (ha : a ∈ bs)
    (hb : b ∈ bs) : (h.axpy ans a k b).Fits n bs := by
  have hla : (h.read a).length = n := hf a ha
  have hlb : (h.read b).length = n := hf b hb
  exact hf.write ans (by simp [hla, hlb])

theorem copy (hf : h.Fits n bs) (dst : BufferId) {src : BufferId} (hs : src ∈ bs) :
    (h.copy dst src).Fits n bs :=
  hf.write dst (hf src hs)

theorem matvec {op : LinearOperator R} (hdim : 0 < op.dim) (hf : h.Fits op.dim bs) (out : BufferId)
    {x : BufferId} (hx : x ∈ bs) : (h.matvec op out x).Fits op.dim bs := by
  obtain ⟨y, hy, hlen⟩ := op.apply_some (h.read x) hdim (hf x hx)
  rw [Heap.matvec, hy]
  exact hf.write out hlen

end Fits

end Heap

namespace Solver.Direct

variable {R : Type}

/-- Where the loop stands: the buffers, the count of iterations, the squared norm of the
residual at the start and now, and how often the operator was applied. -/
structure Iterate (R : Type) where
  heap : Heap R
  iter : Nat
  r2Init : R
  r2New : R
  applications : Nat
deriving DecidableEq

/-- A division by zero: where the loop stood, and what it was about to divide by what. -/
structure Breakdown (R : Type) where
  iterate : Iterate R
  numerator : R
  divisor : R

section Algorithm

variable [Scalar R] (op : LinearOperator R) (config : Config R) (w : Workspace)

/-- A quotient, unless the divisor is zero. -/
def quotient (s : Iterate R) (x y : R) : Except (Breakdown R) R :=
  if Scalar.isZero y then .error ⟨s, x, y⟩ else .ok (x / y)

/-- `r := b - A v; p := r; r_2 := r . r`. -/
def start (h : Heap R) : Iterate R :=
  let h := h.matvec op w.product w.solution
  let h := h.axpy w.residual w.rhs (Scalar.ofInt64 (-1)) w.product
  let h := h.copy w.direction w.residual
  let norm := h.dot w.residual w.residual
  ⟨h, 0, norm, norm, 1⟩

/-- `iter := iter + 1; q := A d`. -/
def Iterate.apply (s : Iterate R) : Iterate R :=
  { s with
    heap := s.heap.matvec op w.product w.direction
    iter := s.iter + 1
    applications := s.applications + 1 }

/-- `v := v + alpha * d; r := r - alpha * q; r_2_new := r . r`. -/
def Iterate.move (s : Iterate R) (alpha : R) : Iterate R :=
  let h := s.heap.axpy w.solution w.solution alpha w.direction
  let h := h.axpy w.residual w.residual (-alpha) w.product
  { s with heap := h, r2New := h.dot w.residual w.residual }

/-- `d := r + beta * d`. -/
def Iterate.turn (s : Iterate R) (beta : R) : Iterate R :=
  { s with heap := s.heap.axpy w.direction w.residual beta w.direction }

/-- `x := x + dt * v`, if there is a position. -/
def Iterate.advance (s : Iterate R) : Option (R × BufferId) → Iterate R
  | some (dt, x) => { s with heap := s.heap.axpy x x dt w.solution }
  | none => s

/-- The squared residual is down to the tolerance. -/
def Iterate.converged (s : Iterate R) : Bool :=
  atMost s.r2New (s.r2Init * (config.epsilon * config.epsilon))

/-- The end of an iteration, and whether it is the last: the test, and else
`beta := r_2_new / r_2; d := r + beta * d`. -/
def Iterate.finish (s : Iterate R) (r2 : R) : Except (Breakdown R) (Iterate R × Bool) :=
  if s.converged config then .ok (s, true)
  else do
    let beta ← quotient s s.r2New r2
    return (s.turn w beta, false)

/-- One iteration, and whether it is the last. -/
def step (s : Iterate R) : Except (Breakdown R) (Iterate R × Bool) := do
  let s := s.apply op w
  let alpha ← quotient s s.r2New (s.heap.dot w.direction w.product)
  (s.move w alpha).finish config w s.r2New

/-- At most so many iterations. -/
def loop : Nat → Iterate R → Except (Breakdown R) (Iterate R)
  | 0, s => .ok s
  | left + 1, s => do
    let (s, last) ← step op config w s
    if last then return s else loop left s

/-- The squared norm of the residual is positive. -/
def Iterate.positive (s : Iterate R) : Bool :=
  (Scalar.compare? s.r2Init Scalar.zero).any Ordering.isGT

/-- The loop, unless the residual is zero. -/
def guarded (s : Iterate R) : Except (Breakdown R) (Iterate R) :=
  if s.positive then loop op config w config.maxIters.toNat s else .ok s

/-- **The direct solver.** -/
def solve (position : Option (R × BufferId)) (h : Heap R) : Except (Breakdown R) (Iterate R) :=
  (guarded op config w (start op w h)).map fun s => s.advance w position

/-- What the direct solver reports. -/
def Iterate.report (s : Iterate R) : Report R :=
  ⟨UInt32.ofNat s.iter, s.r2New, atMost s.r2New (s.r2Init * config.epsilon * config.epsilon)⟩

variable {op config w}

theorem Iterate.finish_counts {s s' : Iterate R} {r2 : R} {last : Bool}
    (h : s.finish config w r2 = .ok (s', last)) :
    s'.iter = s.iter ∧ s'.applications = s.applications := by
  rw [finish] at h
  split at h
  · cases h
    exact ⟨rfl, rfl⟩
  · rcases hb : quotient s s.r2New r2 with b | beta
    · rw [hb] at h
      cases h
    · rw [hb] at h
      cases h
      exact ⟨rfl, rfl⟩

/-- A step is one iteration and one application of the operator. -/
theorem step_counts {s s' : Iterate R} {last : Bool} (h : step op config w s = .ok (s', last)) :
    s'.iter = s.iter + 1 ∧ s'.applications = s.applications + 1 := by
  rw [step] at h
  rcases ha : quotient (s.apply op w) (s.apply op w).r2New
    ((s.apply op w).heap.dot w.direction w.product) with b | alpha
  · rw [ha] at h
    cases h
  · rw [ha] at h
    exact Iterate.finish_counts h

/-- The loop makes no more iterations than it may, and applies the operator once in each. -/
theorem loop_counts {left : Nat} {s s' : Iterate R} (h : loop op config w left s = .ok s') :
    s'.iter ≤ s.iter + left ∧ s'.applications + s.iter = s.applications + s'.iter := by
  induction left generalizing s with
  | zero =>
    cases h
    exact ⟨Nat.le_refl _, rfl⟩
  | succ left ih =>
    rw [loop] at h
    rcases hs : step op config w s with b | ⟨s₁, last⟩
    · rw [hs] at h
      cases h
    · rw [hs] at h
      obtain ⟨hiter, happ⟩ := step_counts hs
      cases last with
      | true =>
        cases h
        omega
      | false =>
        obtain ⟨hle, heq⟩ := ih h
        omega

/-- **The direct solver makes at most `max_iters` iterations, and it applies the operator once
more than that.** -/
theorem solve_counts {position : Option (R × BufferId)} {h : Heap R} {s : Iterate R}
    (hs : solve op config w position h = .ok s) :
    s.iter ≤ config.maxIters.toNat ∧ s.applications = s.iter + 1 := by
  rw [solve, guarded] at hs
  have key {s₁ : Iterate R} (h₁ : s₁.iter ≤ config.maxIters.toNat)
      (h₂ : s₁.applications = s₁.iter + 1) (heq : s₁.advance w position = s) :
      s.iter ≤ config.maxIters.toNat ∧ s.applications = s.iter + 1 := by
    subst heq
    rcases position with _ | ⟨dt, x⟩ <;> exact ⟨h₁, h₂⟩
  split at hs
  · rcases hl : loop op config w config.maxIters.toNat (start op w h) with b | s₁
    · rw [hl] at hs
      cases hs
    · rw [hl] at hs
      obtain ⟨hle, heq⟩ := loop_counts hl
      have h0 : (start op w h).iter = 0 := rfl
      have h1 : (start op w h).applications = 1 := rfl
      exact key (by omega) (by omega) (Except.ok.inj hs)
  · exact key (Nat.zero_le _) rfl (Except.ok.inj hs)

end Algorithm

end Solver.Direct

end StagedGraph
