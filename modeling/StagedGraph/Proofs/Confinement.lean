import StagedGraph.Proofs.Levels
import StagedGraph.Proofs.RunLaws

/-!
# What a run leaves alone

An assignment stays inside the current frame: it overwrites the binding that a level of the
frame has, or adds one to the innermost level (`Level.assign_spec`). `Confined` is what is
left of that after many assignments, with scopes opened and closed in between. It holds of
every statement and every block, however they end (`exec_confined`).

A call runs in a frame of its own. What its body does is confined to that frame, so nothing
of it is left once the frame is closed: expressions leave the environment and the functions
being executed as they were (`eval_leaves_environment`).
-/

namespace StagedGraph

variable {R H : Type}

namespace Level

/-- Level `i`, counted from the innermost one, binds a name. -/
def Binds (ls : List (Level R)) (i : Nat) (x : Name) : Prop :=
  ∃ l, ls[i]? = some l ∧ l.bindings.contains x = true

theorem binds_cons_succ {l : Level R} {ls : List (Level R)} {i : Nat} {x : Name} :
    Binds (l :: ls) (i + 1) x ↔ Binds ls i x := by
  simp [Binds]

theorem frameSize_pos {ls : List (Level R)} (h : ls ≠ []) : 0 < frameSize ls := by
  cases ls with
  | nil => exact absurd rfl h
  | cons l ls => rw [frameSize]; split <;> omega

theorem frameSize_congr {ls ms : List (Level R)} (h : ms.map Level.kind = ls.map Level.kind) :
    frameSize ms = frameSize ls := by
  induction ls generalizing ms with
  | nil => rw [List.map_eq_nil_iff.1 h]
  | cons l ls ih =>
    obtain ⟨m, ms', rfl, hm, hms⟩ := List.map_eq_cons_iff.1 h
    rw [frameSize, frameSize, hm, ih hms]

/-- An update overwrites a binding that one level of the current frame has. -/
theorem update_spec {x : Name} {v : Value R} {ls ms : List (Level R)} (h : update x v ls = some ms) :
    ∃ i l, ls[i]? = some l ∧ i < frameSize ls ∧ l.bindings.contains x = true ∧
      ms = ls.set i (l.insert x v) := by
  induction ls generalizing ms with
  | nil => cases h
  | cons l ls ih =>
    rw [update] at h
    split at h
    · next hx =>
      cases h
      exact ⟨0, l, rfl, frameSize_pos (List.cons_ne_nil _ _), hx, rfl⟩
    · split at h
      · cases h
      · next hk =>
        obtain ⟨ms', hms, rfl⟩ := Option.map_eq_some_iff.1 h
        obtain ⟨i, m, hi, hlt, hx, rfl⟩ := ih hms
        refine ⟨i + 1, m, hi, ?_, hx, rfl⟩
        rw [frameSize, if_neg hk]
        omega

/-- An assignment binds a name in one level of the current frame: in a level that binds it
already, or else in the innermost one. -/
theorem assign_spec (x : Name) (v : Value R) {ls : List (Level R)} (h : ls ≠ []) :
    ∃ i l, ls[i]? = some l ∧ i < frameSize ls ∧ (0 < i → l.bindings.contains x = true) ∧
      assign x v ls = ls.set i (l.insert x v) := by
  rw [assign]
  cases hup : update x v ls with
  | some ms =>
    obtain ⟨i, l, hi, hlt, hx, rfl⟩ := update_spec hup
    exact ⟨i, l, hi, hlt, fun _ => hx, rfl⟩
  | none =>
    cases ls with
    | nil => exact absurd rfl h
    | cons l ls => exact ⟨0, l, rfl, frameSize_pos h, fun h0 => absurd h0 (Nat.lt_irrefl 0), rfl⟩

end Level

open Level

/-! ### Confinement to a frame -/

/-- **What stays of the open levels when statements are executed.** The scopes are the same
ones; those outside the current frame bind what they bound; no level loses a name; and of
the current frame only the innermost level gains names. -/
structure Confined (before after : List (Level R)) : Prop where
  kinds : after.map Level.kind = before.map Level.kind
  outside : ∀ i, frameSize before ≤ i → after[i]? = before[i]?
  kept : ∀ i x, Binds before i x → Binds after i x
  added : ∀ i x, 0 < i → Binds after i x → Binds before i x

namespace Confined

theorem refl (ls : List (Level R)) : Confined ls ls :=
  ⟨rfl, fun _ _ => rfl, fun _ _ h => h, fun _ _ _ h => h⟩

theorem trans {ls ms ns : List (Level R)} (h₁ : Confined ls ms) (h₂ : Confined ms ns) :
    Confined ls ns where
  kinds := h₂.kinds.trans h₁.kinds
  outside i hi := (h₂.outside i (frameSize_congr h₁.kinds ▸ hi)).trans (h₁.outside i hi)
  kept i x h := h₂.kept i x (h₁.kept i x h)
  added i x hi h := h₁.added i x hi (h₂.added i x hi h)

theorem length_eq {ls ms : List (Level R)} (h : Confined ls ms) : ms.length = ls.length := by
  simpa using congrArg List.length h.kinds

theorem assign (x : Name) (v : Value R) {ls : List (Level R)} (hne : ls ≠ []) :
    Confined ls (Level.assign x v ls) := by
  obtain ⟨i, l, hi, hlt, hx, heq⟩ := assign_spec x v hne
  have hil : i < ls.length := (List.getElem?_eq_some_iff.1 hi).1
  have hset (j : Nat) (m : Level R) : (ls.set i (l.insert x v))[j]? = some m ↔
      (j = i ∧ m = l.insert x v) ∨ (j ≠ i ∧ ls[j]? = some m) := by
    rw [List.getElem?_set]
    by_cases hj : i = j
    · subst hj
      simp [hil, eq_comm]
    · simp [hj, Ne.symm hj]
  rw [heq]
  refine ⟨?_, fun j hj => ?_, fun j y hb => ?_, fun j y hj hb => ?_⟩
  · have hkind : (l.insert x v).kind = (ls.map Level.kind).get ⟨i, by simpa using hil⟩ := by
      simp [(List.getElem?_eq_some_iff.1 hi).2, Level.insert]
    rw [List.map_set, hkind]
    exact List.set_getElem_self _
  · rw [List.getElem?_set_ne (by omega)]
  · obtain ⟨m, hm, hy⟩ := hb
    by_cases hji : j = i
    · subst hji
      cases hi.symm.trans hm
      exact ⟨_, (hset _ _).2 (.inl ⟨rfl, rfl⟩), by simp [Level.insert, NameMap.contains_insert, hy]⟩
    · exact ⟨m, (hset _ _).2 (.inr ⟨hji, hm⟩), hy⟩
  · obtain ⟨m, hm, hy⟩ := hb
    rcases (hset _ _).1 hm with ⟨rfl, rfl⟩ | ⟨hji, hm⟩
    · refine ⟨l, hi, ?_⟩
      simp only [Level.insert, NameMap.contains_insert, Bool.or_eq_true, decide_eq_true_eq] at hy
      rcases hy with rfl | hy
      · exact hx hj
      · exact hy
    · exact ⟨m, hm, hy⟩

/-- Whatever is confined to the frame of a call leaves the levels below the frame alone. -/
theorem of_frame {l : Level R} {ls ms : List (Level R)} (h : Confined (l :: ls) ms)
    (hl : l.kind.isFrameRoot = true) : ∃ m, ms = m :: ls := by
  obtain ⟨m, ms', rfl, -, -⟩ := List.map_eq_cons_iff.1 h.kinds
  refine ⟨m, congrArg (m :: ·) (List.ext_getElem? fun i => ?_)⟩
  simpa using h.outside (i + 1) (by rw [frameSize, if_pos hl]; omega)

/-- What is confined to a scope opened inside a frame is confined to the frame. -/
theorem of_block {m : NameMap (Value R)} {ls ms : List (Level R)}
    (h : Confined (⟨m, .block⟩ :: ls) ms) : ∃ l ms', ms = l :: ms' ∧ Confined ls ms' := by
  obtain ⟨l, ms', rfl, -, hk⟩ := List.map_eq_cons_iff.1 h.kinds
  refine ⟨l, ms', rfl, hk, fun i hi => ?_, fun i x hb => ?_, fun i x _ hb => ?_⟩
  · have hi' : frameSize (⟨m, .block⟩ :: ls) ≤ i + 1 := Nat.succ_le_succ hi
    simpa using h.outside (i + 1) hi'
  · exact binds_cons_succ.1 (h.kept (i + 1) x (binds_cons_succ.2 hb))
  · exact binds_cons_succ.1 (h.added (i + 1) x (Nat.succ_pos i) (binds_cons_succ.2 hb))

end Confined

/-! ### Statements and expressions -/

/-- The law of expressions: the environment is left as it was, and so are the functions
being executed unless the step did not end. -/
def Untouched (s : RunState R H) (o : Option Stop) (t : RunState R H) : Prop :=
  t.env = s.env ∧ (Ended o → t.calls = s.calls)

/-- The law of statements. -/
def InFrame (s : RunState R H) (o : Option Stop) (t : RunState R H) : Prop :=
  Confined s.env.levels t.env.levels ∧ (Ended o → t.calls = s.calls)

/-- What a call binds in its frame has nothing to do with the levels below. -/
theorem levels_entered (p : Program R H) (f : FuncId) (args : List (Value R)) :
    ∃ m, ∀ s : RunState R H, (s.entered p f args).env.levels = ⟨m, .frame⟩ :: s.env.levels := by
  have hdefine (bs : List (Name × Value R)) (m : NameMap (Value R)) :
      ∃ n, ∀ ls : List (Level R), bs.foldl (fun ls b => define b.1 b.2 ls) (⟨m, .frame⟩ :: ls) =
        ⟨n, .frame⟩ :: ls := by
    induction bs generalizing m with
    | nil => exact ⟨m, fun _ => rfl⟩
    | cons b bs ih => exact ih (m.insert b.1 b.2)
  obtain ⟨n, hn⟩ := hdefine ((p.func f).params.zip args) NameMap.empty
  exact ⟨n, fun s => by rw [RunState.entered, Environment.levels_bind, Environment.levels_push, hn]⟩

/-- Closing the frame of a call undoes all that the body did to the environment. -/
theorem InFrame.pop_env {p : Program R H} {s t : RunState R H} {f : FuncId} {args : List (Value R)}
    {o : Option Stop} (h : InFrame (s.entered p f args) o t) : t.env.pop = s.env := by
  obtain ⟨m, hm⟩ := levels_entered p f args
  obtain ⟨l, hl⟩ := (hm s ▸ h.1).of_frame rfl
  exact Environment.ext_levels (Environment.levels_pop hl s.env.levels_ne_nil)

/-- The end of a call takes its function off the functions being executed. -/
theorem InFrame.tail_calls {p : Program R H} {s t : RunState R H} {f : FuncId}
    {args : List (Value R)} {o : Option Stop} (h : InFrame (s.entered p f args) o t) (ho : Ended o) :
    t.calls.tail = s.calls :=
  congrArg List.tail (h.2 ho)

theorem frame_laws (p : Program R H) : Laws p Untouched InFrame where
  refl s := ⟨rfl, fun _ => rfl⟩
  fault s f _ := ⟨rfl, fun _ => rfl⟩
  starved s := ⟨rfl, fun _ => rfl⟩
  trans h₁ h₂ := ⟨h₂.1.trans h₁.1, fun ho => (h₂.2 ho).trans (h₁.2 trivial)⟩
  called s n args := ⟨rfl, fun _ => rfl⟩
  returned h := ⟨h.pop_env, fun _ => h.tail_calls trivial⟩
  escaped h := ⟨h.pop_env, fun _ => h.tail_calls trivial⟩
  failed h := ⟨h.pop_env, fun _ => h.tail_calls trivial⟩
  halted ho h := ⟨h.pop_env, fun hend => absurd hend ho⟩
  ofExpr h := ⟨h.1 ▸ .refl _, h.2⟩
  transStmt h₁ h₂ := ⟨h₁.1.trans h₂.1, fun ho => (h₂.2 ho).trans (h₁.2 trivial)⟩
  assigned s x v := by
    refine ⟨?_, fun _ => rfl⟩
    rw [RunState.assigned, Environment.levels_assign]
    exact .assign x v s.env.levels_ne_nil
  nested := by
    intro s o t h
    obtain ⟨l, ms, hms, hc⟩ := h.1.of_block
    have hne : ms ≠ [] := fun e => s.env.levels_ne_nil (List.map_eq_nil_iff.1 (e ▸ hc.kinds.symm))
    exact ⟨Environment.levels_pop hms hne ▸ hc, h.2⟩

/-! ### The host -/

/-- The host after the calls among these events, the latest event first. -/
def Program.replay (p : Program R H) : List (Event R) → H → H
  | [], host => host
  | .called n args _ :: earlier, host => ((p.native n).op args (p.replay earlier host)).2
  | .assigned _ _ :: earlier, host => p.replay earlier host

theorem replay_append (p : Program R H) (later earlier : List (Event R)) (host : H) :
    p.replay (later ++ earlier) host = p.replay later (p.replay earlier host) := by
  induction later with
  | nil => rfl
  | cons event later ih =>
    cases event with
    | called n args outcome => simp only [List.cons_append, Program.replay, ih]
    | assigned x v => simp only [List.cons_append, Program.replay, ih]

/-- The host is what the natives that were called made of it. -/
def Accounted (p : Program R H) (s : RunState R H) (_ : Option Stop) (t : RunState R H) : Prop :=
  ∃ events, t.history = events ++ s.history ∧ t.host = p.replay events s.host

theorem Accounted.trans {p : Program R H} {s t u : RunState R H} {o o' : Option Stop}
    (h₁ : Accounted p s o t) (h₂ : Accounted p t o' u) : Accounted p s o' u := by
  obtain ⟨es, hes, hhost⟩ := h₁
  obtain ⟨es', hes', hhost'⟩ := h₂
  exact ⟨es' ++ es, by rw [hes', hes, List.append_assoc], by rw [hhost', hhost, replay_append]⟩

theorem accounted_laws (p : Program R H) : Laws p (Accounted p) (Accounted p) where
  refl _ := ⟨[], rfl, rfl⟩
  fault _ _ _ := ⟨[], rfl, rfl⟩
  starved _ := ⟨[], rfl, rfl⟩
  trans := Accounted.trans
  called s n args := ⟨[.called n args ((p.native n).op args s.host).1], rfl, rfl⟩
  returned h := h
  escaped h := h
  failed h := h
  halted _ h := h
  ofExpr h := h
  transStmt := Accounted.trans
  assigned _ x v := ⟨[.assigned x v], rfl, rfl⟩
  nested h := h

/-! ### Runs -/

open Interpreter

variable [Scalar R]

/-- **Expressions leave the environment as it was**, and the functions being executed too,
whatever their value, and also if they fail, at any depth of calls and loops. All that they
change is the host, by the natives they call, and these are on record. -/
theorem eval_leaves_environment (p : Program R H) (mode : LoopScope) (fuel : Nat) (e : ExprId)
    (s : RunState R H) :
    (eval p mode fuel e s).2.env = s.env ∧
      (Ended (ending (eval p mode fuel e s).1) → (eval p mode fuel e s).2.calls = s.calls) ∧
      ∃ events, (eval p mode fuel e s).2.history = events ++ s.history ∧
        (eval p mode fuel e s).2.host = p.replay events s.host := by
  obtain ⟨henv, hcalls⟩ := (frame_laws p).eval mode fuel e s
  exact ⟨henv, hcalls, (accounted_laws p).eval mode fuel e s⟩

/-- How many scopes are open, which functions are being executed, and what the scopes bind
but for the current frame. -/
def KeepsFrame (s : RunState R H) (o : Option Stop) (t : RunState R H) : Prop :=
  t.env.depth = s.env.depth ∧ (Ended o → t.calls = s.calls) ∧ Confined s.env.levels t.env.levels

omit [Scalar R] in
theorem InFrame.keepsFrame {s t : RunState R H} {o : Option Stop} (h : InFrame s o t) :
    KeepsFrame s o t :=
  ⟨by rw [← t.env.length_levels, h.1.length_eq, s.env.length_levels], h.2, h.1⟩

/-- **Statements and blocks are confined to the current frame**, whether they end normally,
with a break, with a return or with an error. -/
theorem exec_confined (p : Program R H) (mode : LoopScope) (fuel : Nat) (s : RunState R H) :
    (∀ b, KeepsFrame s (ending (exec p mode fuel b s).1) (exec p mode fuel b s).2) ∧
      ∀ st, KeepsFrame s (ending (stmt p mode fuel st s).1) (stmt p mode fuel st s).2 :=
  ⟨fun b => ((frame_laws p).exec mode fuel b s).keepsFrame,
    fun st => ((frame_laws p).stmt mode fuel st s).keepsFrame⟩

end StagedGraph
