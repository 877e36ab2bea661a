import StagedGraph.Graph.Builder
import StagedGraph.Proofs.Confinement
import StagedGraph.Proofs.Nesting
import StagedGraph.Proofs.SideBySide

/-!
# One scope for a loop, or one for each iteration

The iterations of a loop run in the scope around it, or each in a scope of its own. In the
second case a name that is first bound in an iteration is gone at its end; in the first it
stays, and is seen by later iterations, by conditions and by the functions that they call. So
the two policies differ in which names are bound. They do not differ in what a name is bound
to: wherever the second run finds a name, the first finds it with the same value
(`Level.Covers`), as no name is bound twice between an iteration and the global scope.

Hence a run with a scope for each iteration that misses no name does the same if the
iterations share their scope (`shared_follows_perIteration`). That holds of programs whose
functions have no loops in their bodies: the levels of a call are then the same in both runs.
-/

namespace StagedGraph

open Relation

variable {R H : Type}

/-! ### Levels -/

namespace NameMap

variable {α : Type} {m g : NameMap α}

/-- Whatever the first map holds, the second holds too. -/
def Le (m g : NameMap α) : Prop := ∀ x v, m.find? x = some v → g.find? x = some v

theorem Le.insert (h : m.Le g) (x : Name) (v : α) : (m.insert x v).Le (g.insert x v) := by
  intro y w hy
  rw [find?_insert] at hy ⊢
  by_cases hxy : x = y
  · rwa [if_pos hxy] at hy ⊢
  · rw [if_neg hxy] at hy ⊢
    exact h y w hy

theorem Le.insert_right (h : m.Le g) {x : Name} (hx : m.find? x = none) (v : α) :
    m.Le (g.insert x v) := by
  intro y w hy
  rw [find?_insert, if_neg]
  · exact h y w hy
  · rintro rfl
    cases hx.symm.trans hy

end NameMap

namespace Level

variable {g m : NameMap (Value R)} {n k : Nat} {ls ms : List (Level R)} {x : Name} {v : Value R}

theorem lookup_cons_eq_none {l : Level R} :
    lookup x (l :: ls) = none ↔ l.bindings.find? x = none ∧ lookup x ls = none := by
  rw [lookup]
  cases l.bindings.find? x <;> simp

theorem lookup_cons_eq_some {l : Level R} (h : lookup x (l :: ls) = some v) :
    l.bindings.find? x = some v ∨ lookup x ls = some v := by
  rw [lookup] at h
  split at h
  · next hx =>
    cases h
    exact .inl hx
  · exact .inr h

theorem assign_of_isFrameRoot (x : Name) (v : Value R) {l : Level R} (ls : List (Level R))
    (hl : l.kind.isFrameRoot = true) : assign x v (l :: ls) = l.insert x v :: ls := by
  rw [assign, update, if_pos hl]
  split <;> rfl

/-- The levels of `k` iterations and a global one, no two of which bind the same name; and
whatever one of them binds, `g` binds to the same value. -/
inductive Covers (g : NameMap (Value R)) : Nat → List (Level R) → Prop
  | global {m : NameMap (Value R)} : m.Le g → Covers g 0 [⟨m, .global⟩]
  | iteration {m : NameMap (Value R)} {k : Nat} {ls : List (Level R)} : Covers g k ls → m.Le g →
      (∀ x, m.find? x = none ∨ lookup x ls = none) → Covers g (k + 1) (⟨m, .block⟩ :: ls)

namespace Covers

theorem find? (h : Covers g k ls) (hx : lookup x ls = some v) : g.find? x = some v := by
  induction h with
  | global hm =>
    rcases lookup_cons_eq_some hx with hx | hx
    · exact hm x v hx
    · cases hx
  | iteration _ hm _ ih =>
    rcases lookup_cons_eq_some hx with hx | hx
    · exact hm x v hx
    · exact ih hx

theorem opened (h : Covers g k ls) : Covers g (k + 1) (⟨NameMap.empty, .block⟩ :: ls) :=
  .iteration h nofun fun _ => .inl rfl

/-- A binding that is new to the levels may be added to `g`. -/
theorem insert_right (h : Covers g k ls) (hx : lookup x ls = none) (v : Value R) :
    Covers (g.insert x v) k ls := by
  induction h with
  | global hm => exact .global (hm.insert_right (lookup_cons_eq_none.1 hx).1 v)
  | iteration _ hm honce ih =>
    obtain ⟨hx, hrest⟩ := lookup_cons_eq_none.1 hx
    exact .iteration (ih hrest) (hm.insert_right hx v) honce

/-- A binding may be made in the innermost level if it is new to the others. -/
theorem insert (h : Covers g (k + 1) (⟨m, .block⟩ :: ls)) (hx : lookup x ls = none) (v : Value R) :
    Covers (g.insert x v) (k + 1) (⟨m.insert x v, .block⟩ :: ls) := by
  cases h with
  | iteration hls hm honce =>
    refine .iteration (hls.insert_right hx v) (hm.insert x v) fun y => ?_
    by_cases hxy : x = y
    · exact .inr (hxy ▸ hx)
    · rw [NameMap.find?_insert, if_neg hxy]
      exact honce y

/-- Overwriting the binding that the levels have is overwriting that of `g`. -/
theorem update (h : Covers g k ls) (hup : Level.update x v ls = some ms) :
    Covers (g.insert x v) k ms := by
  induction h generalizing ms with
  | global hm =>
    rw [Level.update] at hup
    split at hup <;> cases hup
    exact .global (hm.insert x v)
  | @iteration m k ls hls hm honce ih =>
    rw [Level.update] at hup
    split at hup
    · next hx =>
      -- the innermost level has the binding, so the others have none
      cases hup
      have hrest := (honce x).resolve_left (Option.isSome_iff_ne_none.1 hx)
      exact (iteration hls hm honce).insert hrest v
    · next hx =>
      obtain ⟨ms', hms, rfl⟩ := Option.map_eq_some_iff.1 hup
      have hx : m.find? x = none := Option.not_isSome_iff_eq_none.1 hx
      refine .iteration (ih hms) (hm.insert_right hx v) fun y => ?_
      by_cases hxy : x = y
      · exact .inl (hxy ▸ hx)
      · rw [lookup_update hms, if_neg hxy]
        exact honce y

theorem unbound_of_update (h : Covers g k ls) (hup : Level.update x v ls = none) :
    lookup x ls = none := by
  induction h with
  | global _ =>
    rw [Level.update] at hup
    split at hup
    · cases hup
    · next hx => exact lookup_cons_eq_none.2 ⟨Option.not_isSome_iff_eq_none.1 hx, rfl⟩
  | iteration _ _ _ ih =>
    rw [Level.update] at hup
    split at hup
    · cases hup
    · next hx =>
      exact lookup_cons_eq_none.2
        ⟨Option.not_isSome_iff_eq_none.1 hx, ih (Option.map_eq_none_iff.1 hup)⟩

/-- An assignment overwrites the one binding that a name has, or makes its first. -/
theorem assign (h : Covers g k ls) (x : Name) (v : Value R) :
    Covers (g.insert x v) k (Level.assign x v ls) := by
  rw [Level.assign]
  cases hup : Level.update x v ls with
  | some ms => exact h.update hup
  | none =>
    have hx := h.unbound_of_update hup
    cases h with
    | global hm => exact .global (hm.insert x v)
    | iteration hls hm honce =>
      exact (iteration hls hm honce).insert (lookup_cons_eq_none.1 hx).2 v

end Covers

/-- The levels of two runs, in `n` calls and `k` iterations. The levels of the calls are the
same; below them, the second run has a global level only, which covers those of the first. -/
inductive Matches : Nat → Nat → List (Level R) → List (Level R) → Prop
  | outside {g : NameMap (Value R)} {k : Nat} {ls : List (Level R)} : Covers g k ls →
      Matches 0 k ls [⟨g, .global⟩]
  | call {m : NameMap (Value R)} {n k : Nat} {ls ms : List (Level R)} : Matches n k ls ms →
      Matches (n + 1) k (⟨m, .frame⟩ :: ls) (⟨m, .frame⟩ :: ms)

namespace Matches

theorem ne_nil (h : Matches n k ls ms) : ls ≠ [] ∧ ms ≠ [] := by
  cases h with
  | outside h => cases h <;> exact ⟨List.cons_ne_nil _ _, List.cons_ne_nil _ _⟩
  | call _ => exact ⟨List.cons_ne_nil _ _, List.cons_ne_nil _ _⟩

/-- What the first run finds, the second finds too. -/
theorem lookup (h : Matches n k ls ms) (hx : Level.lookup x ls = some v) :
    Level.lookup x ms = some v := by
  induction h with
  | outside h => simp [Level.lookup, h.find? hx]
  | @call m n k ls ms _ ih =>
    rw [Level.lookup] at hx ⊢
    cases hm : m.find? x with
    | some w => simpa [hm] using hx
    | none => simpa [hm] using ih (by simpa [hm] using hx)

/-- Both runs assign to the innermost call, or both outside of all calls. -/
theorem assign (h : Matches n k ls ms) (x : Name) (v : Value R) :
    Matches n k (Level.assign x v ls) (Level.assign x v ms) := by
  cases h with
  | outside h =>
    rw [assign_of_isFrameRoot x v [] rfl]
    exact .outside (h.assign x v)
  | call h =>
    rw [assign_of_isFrameRoot x v _ rfl, assign_of_isFrameRoot x v _ rfl]
    exact .call h

end Matches

end Level

/-! ### Programs without loops in functions -/

namespace Program

/-- No loop is in the block, nor in the blocks that stand under its conditions. -/
def LoopFree (p : Program R H) (b : BlockId) : Prop :=
  ∀ c, ReflTransGen p.Guards b c → ∀ cond body, .whileLoop cond body ∉ p.block c

/-- No function has a loop in its body. -/
def LoopsOutside (p : Program R H) : Prop := ∀ f, p.LoopFree (p.func f).body

theorem LoopFree.inside {p : Program R H} {b c : BlockId} (h : p.LoopFree b) (hc : p.Guards b c) :
    p.LoopFree c :=
  fun d hd => h d (.head hc hd)

theorem LoopFree.of_unguarded {p : Program R H} {b : BlockId}
    (h : ∀ st ∈ p.block b, st.guarded = []) : p.LoopFree b := by
  intro c hc cond body hloop
  rcases hc.cases_head with rfl | ⟨d, ⟨st, hst, hd⟩, -⟩
  · cases h _ hloop
  · rw [h st hst] at hd
    cases hd

end Program

/-! ### Two runs -/

/-- Two runs after the same events: in the first, each of `i.2` iterations has a scope of its
own; and both are in `i.1` calls. -/
structure Beside (i : Nat × Nat) (s t : RunState R H) : Prop where
  levels : Level.Matches i.1 i.2 s.env.levels t.env.levels
  calls : t.calls = s.calls
  host : t.host = s.host
  history : t.history = s.history

/-- A variable was not bound to anything. -/
def Unresolved : Option Stop → Prop
  | some (.error e) => ∃ name, e.fault = .undefinedVariable name
  | _ => False

namespace Beside

variable {p : Program R H} {n k : Nat} {s t : RunState R H}

theorem fresh (host : H) : Beside (0, 0) (.fresh host : RunState R H) (.fresh host) :=
  ⟨.outside (.global fun _ _ h => h), rfl, rfl, rfl⟩

theorem opened (h : Beside (0, k) s t) : Beside (0, k + 1) s.opened t := by
  have hlevels := h.levels
  refine ⟨?_, h.calls, h.host, h.history⟩
  rw [RunState.opened, Environment.levels_push]
  generalize t.env.levels = ms at hlevels
  cases hlevels with
  | outside hg => exact .outside hg.opened

theorem closed (h : Beside (0, k + 1) s t) : Beside (0, k) s.closed t := by
  have hlevels := h.levels
  refine ⟨?_, h.calls, h.host, h.history⟩
  rw [RunState.closed]
  generalize hs : s.env.levels = ls at hlevels
  generalize t.env.levels = ms at hlevels
  cases hlevels with
  | outside hg =>
    cases hg with
    | iteration hls _ _ =>
      have hout := Level.Matches.outside hls
      rw [Environment.levels_pop hs hout.ne_nil.1]
      exact hout

/-- Outside of all calls and iterations, what the first run has bound is bound in the second. -/
theorem globals (h : Beside (0, 0) s t) {b : Name × Value R} (hb : b ∈ s.env.globals) :
    b ∈ t.env.globals := by
  have hlevels := h.levels
  generalize hs : s.env.levels = ls at hlevels
  generalize ht : t.env.levels = ms at hlevels
  cases hlevels with
  | outside hg =>
    cases hg with
    | global hm =>
      rw [Environment.globals_eq (by rw [hs]; rfl), ← NameMap.find?_eq_some] at hb
      rw [Environment.globals_eq (by rw [ht]; rfl), ← NameMap.find?_eq_some]
      exact hm _ _ hb

/-- The frame of a call is the same in both runs, so it may be closed in both. -/
theorem pop (h : Beside (n + 1, k) s t) :
    Level.Matches n k s.env.pop.levels t.env.pop.levels := by
  have hlevels := h.levels
  generalize hs : s.env.levels = ls at hlevels
  generalize ht : t.env.levels = ms at hlevels
  cases hlevels with
  | call hout =>
    rw [Environment.levels_pop hs hout.ne_nil.1, Environment.levels_pop ht hout.ne_nil.2]
    exact hout

/-- Two runs, one with a scope for each iteration, are kept side by side by every step, until
the run with more scopes misses a name. -/
theorem sideBySide (p : Program R H) : SideBySide p (fun o => ¬ Unresolved o)
    (Beside (R := R) (H := H)) (fun i => (i.1 + 1, i.2)) where
  counts_result := id
  counts_fault := by
    rintro e trace h ⟨name, hname⟩
    exact h ⟨name, (e.withTrace_fault trace).trans hname⟩
  lookup {i s t} x h hcounts := by
    cases hx : s.env.lookup x with
    | none =>
      rw [Run.lookup, hx] at hcounts
      exact absurd ⟨_, rfl⟩ hcounts
    | some v =>
      rw [Environment.lookup_eq] at hx ⊢
      exact h.levels.lookup hx
  host h := h.host
  calls h := h.calls
  called n args h := by
    refine ⟨h.levels, h.calls, ?_, ?_⟩
    · simp only [RunState.called, h.host]
    · simp only [RunState.called, h.host, h.history]
  assigned x v h := by
    refine ⟨?_, h.calls, h.host, congrArg (_ :: ·) h.history⟩
    rw [RunState.assigned_env, RunState.assigned_env, Environment.levels_assign,
      Environment.levels_assign]
    exact h.levels.assign x v
  entered {i s t} f args h := by
    obtain ⟨m, hm⟩ := levels_entered p f args
    refine ⟨?_, congrArg (f :: ·) h.calls, h.host, h.history⟩
    rw [hm s, hm t]
    exact .call h.levels
  left h := ⟨h.pop, congrArg List.tail h.calls, h.host, h.history⟩
  closed h := ⟨h.pop, h.calls, h.host, h.history⟩

end Beside

namespace Interpreter

open Run

variable [Scalar R] {p : Program R H}

/-- **Both policies do the same**, as long as no name is missed, by induction on the fuel. What
is executed in a call has no loops, so the runs only ever open different scopes outside of all
calls. -/
theorem policies_track (hp : p.LoopsOutside) (fuel : Nat) :
    (∀ i e, Tracks (fun o => ¬ Unresolved o) (Beside i) (eval p .perIteration fuel e)
        (eval p .shared fuel e)) ∧
      (∀ i b, i.1 = 0 ∨ p.LoopFree b → Tracks (fun o => ¬ Unresolved o) (Beside i)
        (exec p .perIteration fuel b) (exec p .shared fuel b)) ∧
      ∀ k cond b, Tracks (fun o => ¬ Unresolved o) (Beside (0, k))
        (loop p .perIteration fuel cond b) (loop p .shared fuel cond b) := by
  have hside := Beside.sideBySide p
  induction fuel with
  | zero =>
    exact ⟨fun _ _ => SideBySide.stop _, fun _ _ _ => SideBySide.stop _,
      fun _ _ _ => SideBySide.stop _⟩
  | succ fuel ih =>
    obtain ⟨heval, hexec, hloop⟩ := ih
    refine ⟨fun i e => ?_, fun i b hb => ?_, fun k cond b => ?_⟩
    · rw [eval, eval]
      exact hside.evalExpr (heval i) (fun f => hexec _ _ (.inr (hp f))) _
    · rw [exec, exec]
      refine hside.execAll fun st hst => hside.execStmt (heval i) (fun cond c hc => ?_)
        fun cond c hc => ?_
      · exact hexec i c (hb.imp_right (·.inside ⟨st, hst, by simp [hc, Stmt.guarded]⟩))
      · rcases hb with h0 | hfree
        · obtain ⟨n, k⟩ := i
          cases h0
          exact hloop k cond c
        · exact absurd (hc ▸ hst) (hfree b .refl cond c)
    · rw [loop, loop]
      refine hside.bind (hside.test (heval _) cond) fun holds => ?_
      cases holds with
      | false => exact SideBySide.pure _
      | true =>
        have hbody : Tracks (fun o => ¬ Unresolved o) (Beside (0, k))
            (iteration .perIteration (exec p .perIteration fuel b))
            (iteration .shared (exec p .shared fuel b)) := by
          intro s t hst hcounts
          obtain ⟨hr, ht⟩ := hexec (0, k + 1) b (.inl rfl) _ _ hst.opened hcounts
          exact ⟨hr, ht.closed⟩
        refine hside.bind hbody fun flow => ?_
        cases flow with
        | normal => exact hloop k cond b
        | breakLoop => exact SideBySide.pure _
        | returned v => exact SideBySide.pure _

theorem runs_track (hp : p.LoopsOutside) (fuel : Nat) (root : BlockId) :
    Tracks (fun o => ¬ Unresolved o) (Beside (0, 0)) (run p .perIteration fuel root)
      (run p .shared fuel root) := by
  refine (Beside.sideBySide p).bind ((policies_track hp fuel).2.1 (0, 0) root (.inl rfl))
    fun flow => ?_
  cases flow with
  | normal => exact SideBySide.pure _
  | breakLoop => exact SideBySide.stop _
  | returned v => exact SideBySide.stop _

end Interpreter

/-- **Iterations that share a scope do what iterations with a scope each do.** Unless it misses
a name, a run with a scope for each iteration is followed by the run with shared scopes: it ends
with the same result or the same error and trace, having made the same calls of natives and the
same assignments, with the same host; and what is bound at the end of the first run is bound to
the same value at the end of the second. -/
theorem shared_follows_perIteration [Scalar R] {p : Program R H} (hp : p.LoopsOutside) {fuel : Nat}
    {root : BlockId} {host : H} {r : Except Stop Unit} {t : RunState R H}
    (hrun : Interpreter.run p .perIteration fuel root (.fresh host) = (r, t))
    (hr : ¬ Unresolved (ending r)) :
    ∃ t', Interpreter.run p .shared fuel root (.fresh host) = (r, t') ∧ t'.host = t.host ∧
      t'.history = t.history ∧ ∀ x v, (x, v) ∈ t.env.globals → (x, v) ∈ t'.env.globals := by
  have htrack := Interpreter.runs_track hp fuel root _ _ (Beside.fresh host)
  rw [hrun] at htrack
  obtain ⟨hr', hbeside⟩ := htrack hr
  exact ⟨(Interpreter.run p .shared fuel root (.fresh host)).2, Prod.ext hr' rfl, hbeside.host,
    hbeside.history, fun _ _ => hbeside.globals⟩

/-- A loop that a native ends after two iterations. The body binds a name, which the function
that it calls then reads. -/
def readInLoop : BlockId × Program Float Nat :=
  let build : Build Float Nat BlockId := do
    let next ← Build.native
      ⟨"next", .fixed 0, fun _ count => (.value (.bool (count < 2)), count + 1)⟩
    let x ← Build.var "x"
    let y ← Build.var "y"
    let f ← Build.func "f" []
    Build.pushBody f (.returnValue (some x.expr))
    let definition ← Build.sealFunc f
    let one ← Build.literal (.int 1)
    let call ← Build.apply f []
    let body ← Build.block
    Build.push body (.assign x.name one)
    Build.push body (.assign y.name call)
    let more ← Build.call next []
    let root ← Build.block
    Build.push root definition
    Build.push root (.assign y.name one)
    Build.push root (.whileLoop more body)
    return root
  build.run Program.empty

theorem readInLoop_loopsOutside : readInLoop.2.LoopsOutside := by
  refine fun f => .of_unguarded ?_
  obtain ⟨_ | n⟩ := f
  · decide
  · exact nofun

/-- With a scope for each iteration only `y` is left at the end; with shared scopes it is left
with the same value, and `x` is left too. -/
theorem shared_follows_perIteration_readInLoop :
    readInLoop.2.LoopsOutside ∧
      ∃ t, Interpreter.run readInLoop.2 .perIteration 9 readInLoop.1 (.fresh 0) = (.ok (), t) ∧
        t.env.globals = [(⟨2⟩, .int 1)] ∧
        ∃ t', Interpreter.run readInLoop.2 .shared 9 readInLoop.1 (.fresh 0) = (.ok (), t') ∧
          t'.host = 3 ∧ t'.history = t.history ∧ (⟨2⟩, .int 1) ∈ t'.env.globals := by
  have hending : ending
      (Interpreter.run readInLoop.2 .perIteration 9 readInLoop.1 (.fresh 0)).1 = none := by
    decide +kernel
  have hhost : (Interpreter.run readInLoop.2 .perIteration 9 readInLoop.1 (.fresh 0)).2.host = 3 := by
    decide +kernel
  have hglobals : (Interpreter.run readInLoop.2 .perIteration 9 readInLoop.1
      (.fresh 0)).2.env.globals = [(⟨2⟩, .int 1)] := by
    decide +kernel
  rcases hrun : Interpreter.run readInLoop.2 .perIteration 9 readInLoop.1 (.fresh 0) with ⟨r, t⟩
  rw [hrun] at hending hhost hglobals
  obtain ⟨_, rfl⟩ := ending_eq_none.1 hending
  obtain ⟨t', hshared, hhost', hhistory, hbound⟩ :=
    shared_follows_perIteration readInLoop_loopsOutside hrun id
  exact ⟨readInLoop_loopsOutside, t, rfl, hglobals, t', hshared, hhost'.trans hhost, hhistory,
    hbound _ _ (hglobals ▸ List.mem_singleton_self _)⟩

end StagedGraph
