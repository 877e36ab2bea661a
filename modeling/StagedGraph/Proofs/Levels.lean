import StagedGraph.Environment

/-!
# Environments as stacks of maps

An environment keeps three views of its open scopes: a forest of scopes with parents, a
stack of numbers, and the number of the global scope. As they are linked, an environment is
no more than a list of levels, the innermost first, each of them a map from names and a
kind. This module reads every operation of environments on levels; nothing after it needs
the numbers and the parents of scopes.
-/

namespace StagedGraph

/-- A scope without its place: what it binds and what it was made for. -/
structure Level (R : Type) where
  bindings : NameMap (Value R)
  kind : ScopeKind
deriving DecidableEq, Repr

/-- The level that a scope is. -/
def Scope.level {R : Type} (s : Scope R) : Level R := ⟨s.bindings, s.kind⟩

namespace Level

variable {R : Type}

/-- The binding of a name in the innermost level that has one. -/
def lookup (x : Name) : List (Level R) → Option (Value R)
  | [] => none
  | l :: ls =>
    match l.bindings.find? x with
    | some v => some v
    | none => lookup x ls

/-- Binds a name in a level. -/
def insert (l : Level R) (x : Name) (v : Value R) : Level R :=
  { l with bindings := l.bindings.insert x v }

/-- Binds a name in the innermost level. -/
def define (x : Name) (v : Value R) : List (Level R) → List (Level R)
  | [] => []
  | l :: ls => l.insert x v :: ls

/-- Overwrites the innermost binding of a name, searched up to the root of the frame. -/
def update (x : Name) (v : Value R) : List (Level R) → Option (List (Level R))
  | [] => none
  | l :: ls =>
    if l.bindings.contains x then some (l.insert x v :: ls)
    else if l.kind.isFrameRoot then none
    else (update x v ls).map (l :: ·)

/-- Overwrites the binding that the current frame has for a name, or else binds the name in
the innermost level. -/
def assign (x : Name) (v : Value R) (ls : List (Level R)) : List (Level R) :=
  (update x v ls).getD (define x v ls)

theorem contains_insert {l : Level R} {x y : Name} {v : Value R} :
    (l.insert x v).bindings.contains y = true ↔ x = y ∨ l.bindings.contains y = true := by
  rw [insert, NameMap.contains_insert, Bool.or_eq_true, decide_eq_true_eq]

theorem lookup_update {x : Name} {v : Value R} {ls ms : List (Level R)} (h : update x v ls = some ms)
    (y : Name) : lookup y ms = if x = y then some v else lookup y ls := by
  induction ls generalizing ms with
  | nil => cases h
  | cons l ls ih =>
    rw [update] at h
    split at h
    · cases h
      by_cases hxy : x = y <;> simp [lookup, insert, NameMap.find?_insert, hxy]
    · next hx =>
      split at h
      · cases h
      · obtain ⟨ms', hms, rfl⟩ := Option.map_eq_some_iff.1 h
        have hfind : l.bindings.find? x = none := by simpa [NameMap.contains] using hx
        by_cases hxy : x = y
        · subst hxy
          simp [lookup, hfind, ih hms]
        · simp [lookup, ih hms, hxy]

theorem lookup_define (x y : Name) (v : Value R) {ls : List (Level R)} (h : ls ≠ []) :
    lookup y (define x v ls) = if x = y then some v else lookup y ls := by
  cases ls with
  | nil => exact absurd rfl h
  | cons l ls => by_cases hxy : x = y <;> simp [define, lookup, insert, NameMap.find?_insert, hxy]

/-- After an assignment a name has the value that it was given, and the others have theirs. -/
theorem lookup_assign (x y : Name) (v : Value R) {ls : List (Level R)} (h : ls ≠ []) :
    lookup y (assign x v ls) = if x = y then some v else lookup y ls := by
  rw [assign]
  cases hup : update x v ls with
  | some ms => exact lookup_update hup y
  | none => exact lookup_define x y v h

/-- How many levels belong to the current frame: those up to the nearest root of a frame. -/
def frameSize : List (Level R) → Nat
  | [] => 0
  | l :: ls => if l.kind.isFrameRoot then 1 else frameSize ls + 1

end Level

namespace Forest

variable {R : Type}

namespace Chain

/-- A chain is given by its levels. -/
theorem eq_of_levels {ss ts : List (Scope R)} (hs : Chain ss) (ht : Chain ts)
    (h : ss.map Scope.level = ts.map Scope.level) : ss = ts := by
  induction hs generalizing ts with
  | global m =>
    cases ht with
    | global n => simpa [Scope.level] using h
    | inner n kind _ => simp at h
  | inner m kind _ ih =>
    cases ht with
    | global n => simp at h
    | inner n k ht =>
      simp only [List.map_cons, List.cons.injEq, Scope.level, Level.mk.injEq] at h
      obtain ⟨⟨rfl, rfl⟩, hs⟩ := h
      obtain ⟨rfl, rfl⟩ := List.cons.inj (ih ht (by simpa [Scope.level] using hs))
      rfl

/-- The number of the first scope of a chain is taken by no other. -/
theorem ne_of_mem {s t : Scope R} {rest : List (Scope R)} (h : Chain (s :: rest)) (ht : t ∈ rest) :
    t.id.index < s.id.index := by
  generalize hss : s :: rest = ss at h
  induction h generalizing s rest with
  | global m => cases hss; cases ht
  | inner m kind _ ih =>
    cases hss
    rcases List.mem_cons.1 ht with rfl | ht
    · exact Nat.lt_succ_self _
    · exact Nat.lt_succ_of_lt (ih ht rfl)

theorem defineIn_head (s : Scope R) (rest : List (Scope R)) (x : Name) (v : Value R) :
    (defineIn s.id x v (s :: rest)).map Scope.level =
      Level.define x v ((s :: rest).map Scope.level) := by
  simp [defineIn, Level.define, Level.insert, Scope.level]

theorem lookupIn_head {s : Scope R} {rest : List (Scope R)} (h : Chain (s :: rest)) (x : Name) :
    lookupIn s.id x (s :: rest) = Level.lookup x ((s :: rest).map Scope.level) := by
  generalize hss : s :: rest = ss at h
  induction h generalizing s rest with
  | global m =>
    cases hss
    cases hm : m.find? x <;> simp [lookupIn, Level.lookup, Scope.level, hm]
  | inner m kind _ ih =>
    cases hss
    cases hm : m.find? x with
    | some v => simp [lookupIn, Level.lookup, Scope.level, hm]
    | none =>
      rw [List.map_cons, Level.lookup, ← ih rfl]
      simp [lookupIn, Scope.level, hm]

theorem updateIn_head {s : Scope R} {rest : List (Scope R)} (h : Chain (s :: rest)) (x : Name)
    (v : Value R) :
    (updateIn s.id x v (s :: rest)).map (List.map Scope.level) =
      Level.update x v ((s :: rest).map Scope.level) := by
  generalize hss : s :: rest = ss at h
  induction h generalizing s rest with
  | global m =>
    cases hss
    cases hm : m.contains x <;>
      simp [updateIn, Level.update, Level.insert, Scope.level, hm, ScopeKind.isFrameRoot]
  | inner m kind _ ih =>
    cases hss
    rw [List.map_cons, Level.update, ← ih rfl]
    cases hm : m.contains x <;> cases hk : kind.isFrameRoot <;>
      simp [updateIn, Level.insert, Scope.level, hm, hk, Option.map_map, Function.comp_def]

/-- The last scope of a chain is found by its number. -/
theorem find?_last {s : Scope R} {ss : List (Scope R)} (h : Chain ss) (hs : ss.getLast? = some s) :
    ss.find? (·.id = s.id) = some s := by
  induction h with
  | global m => cases hs; simp
  | @inner t rest m kind hc ih =>
    rw [List.getLast?_cons_cons] at hs
    have hmem : s ∈ t :: rest := List.mem_of_getLast? hs
    have hlt := ne_of_mem (.inner m kind hc) hmem
    have hne : ¬ (⟨t.id.index + 1⟩ : ScopeId) = s.id := fun e => by simp [← e] at hlt
    rw [List.find?_cons_of_neg (by simpa using hne), ih hs]

end Chain

end Forest

namespace Environment

variable {R : Type}

/-- The open scopes as levels, the innermost first. -/
def levels (env : Environment R) : List (Level R) := env.forest.scopes.map Scope.level

theorem levels_ne_nil (env : Environment R) : env.levels ≠ [] := by
  obtain ⟨⟨ss⟩, _, _, hc, _, _⟩ := env
  cases hc <;> exact List.cons_ne_nil _ _

theorem length_levels (env : Environment R) : env.levels.length = env.depth := by
  rw [levels, depth, env.stack_eq, List.length_map, List.length_map]

/-- The innermost scope is the first of the forest. -/
theorem exists_current (env : Environment R) :
    ∃ s rest, env.forest.scopes = s :: rest ∧ env.current = s.id := by
  obtain ⟨⟨ss⟩, _, _, hc, rfl, _⟩ := env
  cases hc <;> exact ⟨_, _, rfl, rfl⟩

/-- An environment is given by its levels. -/
theorem ext_levels {env env' : Environment R} (h : env.levels = env'.levels) : env = env' := by
  have hs := env.chain.eq_of_levels env'.chain h
  obtain ⟨⟨ss⟩, _, _, hc, rfl, hb⟩ := env
  obtain ⟨⟨ss'⟩, _, _, hc', rfl, hb'⟩ := env'
  cases hs
  cases hb.symm.trans hb'
  rfl

@[simp] theorem depth_empty : (empty : Environment R).depth = 1 := rfl

@[simp] theorem levels_empty : (empty : Environment R).levels = [⟨NameMap.empty, .global⟩] := rfl

@[simp] theorem levels_push (env : Environment R) (kind : ScopeKind) :
    (env.push kind).levels = ⟨NameMap.empty, kind⟩ :: env.levels := rfl

theorem levels_pop {env : Environment R} {l : Level R} {ls : List (Level R)}
    (h : env.levels = l :: ls) (hls : ls ≠ []) : env.pop.levels = ls := by
  obtain ⟨⟨ss⟩, stack, g, hc, hst, hb⟩ := env
  cases hc with
  | global m => exact absurd (List.cons.inj h).2.symm hls
  | @inner s rest m kind hc =>
    subst hst
    have hpop : (Environment.mk ⟨⟨⟨s.id.index + 1⟩, m, some s.id, kind⟩ :: s :: rest⟩ _ g
        (.inner m kind hc) rfl hb).pop.levels = (s :: rest).map Scope.level := by
      simp [pop, levels, Forest.release]
    exact hpop.trans (List.cons.inj h).2

/-- The outermost scope is never closed. -/
theorem pop_of_levels_eq_singleton {env : Environment R} {l : Level R} (h : env.levels = [l]) :
    env.pop = env := by
  obtain ⟨⟨ss⟩, stack, g, hc, hst, hb⟩ := env
  cases hc with
  | global m => subst hst; rfl
  | inner m kind hc => cases h

/-- Closing a scope takes the innermost level off, unless it is the only one. -/
theorem pop_cases (env : Environment R) : env.pop = env ∨ env.pop.levels = env.levels.tail := by
  cases hls : env.levels with
  | nil => exact absurd hls env.levels_ne_nil
  | cons l ls =>
    by_cases hne : ls = []
    · exact .inl (pop_of_levels_eq_singleton (hne ▸ hls))
    · exact .inr (levels_pop hls hne)

@[simp] theorem levels_rebind (env : Environment R) (t : Forest R)
    (h : t.scopes.map Scope.place = env.forest.scopes.map Scope.place) :
    (env.rebind t h).levels = t.scopes.map Scope.level := rfl

theorem levels_define (env : Environment R) (x : Name) (v : Value R) :
    (env.define x v).levels = Level.define x v env.levels := by
  obtain ⟨s, rest, hs, hcur⟩ := env.exists_current
  rw [define, levels_rebind, Forest.define, levels, hcur, hs, Forest.Chain.defineIn_head]

theorem lookup_eq (env : Environment R) (x : Name) : env.lookup x = Level.lookup x env.levels := by
  obtain ⟨s, rest, hs, hcur⟩ := env.exists_current
  rw [lookup, Forest.lookup, levels, hcur, hs, Forest.Chain.lookupIn_head (hs ▸ env.chain)]

theorem levels_assign (env : Environment R) (x : Name) (v : Value R) :
    (env.assign x v).levels = Level.assign x v env.levels := by
  obtain ⟨s, rest, hs, hcur⟩ := env.exists_current
  have hup : (env.forest.update? env.current x v).map (fun t => t.scopes.map Scope.level) =
      Level.update x v env.levels := by
    rw [levels, hs, ← Forest.Chain.updateIn_head (hs ▸ env.chain), Forest.update?, hcur, hs,
      Option.map_map]
    rfl
  rw [Level.assign, ← hup]
  unfold assign
  split
  · next t ht => rw [levels_rebind, ht]; rfl
  · next ht => rw [ht, levels_define]; rfl

theorem levels_bind (env : Environment R) (params : List Name) (args : List (Value R)) :
    (env.bind params args).levels =
      (params.zip args).foldl (fun ls b => Level.define b.1 b.2 ls) env.levels := by
  rw [bind]
  generalize params.zip args = bs
  induction bs generalizing env with
  | nil => rfl
  | cons b bs ih => rw [List.foldl_cons, ih, levels_define, List.foldl_cons]

theorem lookup_assign (env : Environment R) (x y : Name) (v : Value R) :
    (env.assign x v).lookup y = if x = y then some v else env.lookup y := by
  rw [lookup_eq, levels_assign, Level.lookup_assign x y v env.levels_ne_nil, lookup_eq]

theorem depth_assign (env : Environment R) (x : Name) (v : Value R) :
    (env.assign x v).depth = env.depth := by
  unfold assign
  split <;> rfl

/-- Binding names in a scope that was opened for them leaves no trace once it is closed. -/
theorem pop_bind_push (env : Environment R) (kind : ScopeKind) (params : List Name)
    (args : List (Value R)) : ((env.push kind).bind params args).pop = env := by
  have hfold : ∀ (bs : List (Name × Value R)) (l : Level R), ∃ m : Level R,
      bs.foldl (fun ls b => Level.define b.1 b.2 ls) (l :: env.levels) = m :: env.levels := by
    intro bs
    induction bs with
    | nil => exact fun l => ⟨l, rfl⟩
    | cons b bs ih => exact fun l => ih (l.insert b.1 b.2)
  obtain ⟨m, hm⟩ := hfold (params.zip args) ⟨NameMap.empty, kind⟩
  exact ext_levels (levels_pop ((levels_bind _ params args).trans hm) env.levels_ne_nil)

/-- The global scope is the last level. -/
theorem globals_eq {env : Environment R} {l : Level R} (h : env.levels.getLast? = some l) :
    env.globals = l.bindings.entries := by
  rw [levels, List.getLast?_map] at h
  obtain ⟨s, hs, rfl⟩ := Option.map_eq_some_iff.1 h
  have hid : s.id = env.global := by
    have hb := env.bottom
    rw [env.stack_eq, List.getLast?_map, hs] at hb
    exact Option.some.inj hb
  rw [globals, Forest.bindings, Forest.get?, ← hid, env.chain.find?_last hs]
  rfl

end Environment

end StagedGraph
