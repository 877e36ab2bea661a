import Mathlib.Data.List.Induction
import StagedGraph.Proofs.ScopeWays

/-!
# Updates of shared scopes

Scopes are made without a parent, under a parent, or as copies that share the parent of another one,
and whoever has a scope may hand it on. `ScopeTable` is what somebody has who makes scopes in this way:
the forest, and the scopes that were handed out. Every request leaves each scope after its parent
(`Sound.perform`), so by induction on the requests what was made is ordered (`sound_after`), and updates
and lookups go along the ways up.
-/

namespace StagedGraph

open Scope

variable {R : Type}

/-- The scopes that somebody has made, and what was handed out for them. Who has a scope twice has it
under two numbers in this list. -/
structure ScopeTable (R : Type) where
  forest : Forest R
  handles : List ScopeId

namespace ScopeTable

/-- What can be done with a scope that was handed out. -/
inductive Use (R : Type) where
  | child (kind : ScopeKind)
  | share
  | copy
  | define (x : Name) (v : Value R)
  | update (x : Name) (v : Value R)

/-- What can be asked for: a scope without a parent, or a use of a scope by its number in the list of
those that were handed out. -/
inductive Request (R : Type) where
  | root (kind : ScopeKind)
  | use (h : Nat) (a : Use R)

/-- The table without scopes. -/
def empty : ScopeTable R := ⟨Forest.empty, []⟩

/-- Hands a scope out. -/
def issue (t : ScopeTable R) (r : ScopeId × Forest R) : ScopeTable R := ⟨r.2, t.handles ++ [r.1]⟩

/-- Uses a scope. An update that fails leaves everything as it was. -/
def useScope (t : ScopeTable R) (i : ScopeId) : Use R → ScopeTable R
  | .child kind => t.issue (t.forest.child i kind)
  | .share => t.issue (i, t.forest)
  | .copy => t.issue (t.forest.copy i)
  | .define x v => { t with forest := t.forest.define i x v }
  | .update x v =>
    match t.forest.update i x v with
    | .ok u => { t with forest := u }
    | .error _ => t

/-- Does what a request asks for; a request for a scope that was not handed out does nothing. -/
def perform (t : ScopeTable R) : Request R → ScopeTable R
  | .root kind => t.issue (t.forest.root kind)
  | .use h a =>
    match t.handles[h]? with
    | some i => t.useScope i a
    | none => t

/-- The table after these requests. -/
def after (rs : List (Request R)) : ScopeTable R := rs.foldl perform empty

theorem after_concat (rs : List (Request R)) (r : Request R) :
    after (rs ++ [r]) = (after rs).perform r := by
  rw [after, List.foldl_append]
  rfl

/-- Every scope was made after its parent, and what was handed out are scopes. -/
structure Sound (t : ScopeTable R) : Prop where
  ordered : t.forest.Ordered
  handles : ∀ i ∈ t.handles, ∃ s, t.forest.get? i = some s

namespace Sound

variable {t : ScopeTable R} {i : ScopeId}

theorem add (h : t.Sound) (m : NameMap (Value R)) (parent : Option ScopeId) (kind : ScopeKind)
    (hp : ∀ j, parent = some j → ∃ s, t.forest.get? j = some s) :
    (t.issue (t.forest.add m parent kind)).Sound := by
  refine ⟨h.ordered.add m parent kind hp, fun i hi => Forest.exists_get?_iff.2 ?_⟩
  rcases List.mem_append.1 hi with hi | hi
  · exact List.mem_cons_of_mem _ (Forest.exists_get?_iff.1 (h.handles i hi))
  · rw [List.mem_singleton.1 hi]
    exact List.mem_cons_self

/-- What binds names leaves the scopes where they are. -/
theorem write (h : t.Sound) {u : Forest R}
    (hp : u.scopes.map Scope.place = t.forest.scopes.map Scope.place) :
    Sound { t with forest := u } :=
  ⟨h.ordered.congr hp, fun i hi => (Forest.exists_get?_congr hp).2 (h.handles i hi)⟩

theorem useScope (h : t.Sound) (hi : i ∈ t.handles) (a : Use R) : (t.useScope i a).Sound := by
  obtain ⟨s, hs⟩ := h.handles i hi
  cases a with
  | child kind => exact h.add _ _ kind fun j hj => by cases hj; exact ⟨s, hs⟩
  | share =>
    refine ⟨h.ordered, fun j hj => ?_⟩
    rcases List.mem_append.1 hj with hj | hj
    · exact h.handles j hj
    · rw [List.mem_singleton.1 hj]
      exact ⟨s, hs⟩
  | copy =>
    simp only [ScopeTable.useScope, Forest.copy, hs]
    refine h.add _ _ _ fun j hj => ?_
    obtain ⟨-, hparent⟩ := h.ordered.parent s (Forest.mem_of_get? hs) j hj
    exact hparent
  | define x v => exact h.write (Forest.map_place_define _ i x v)
  | update x v =>
    rw [ScopeTable.useScope]
    split
    · next u hu => exact h.write (Forest.map_place_update? (Forest.update_eq_ok.1 hu))
    · exact h

theorem perform (h : t.Sound) (r : Request R) : (t.perform r).Sound := by
  cases r with
  | root kind => exact h.add _ none kind fun j hj => nomatch hj
  | use k a =>
    rw [ScopeTable.perform]
    split
    · next i hi => exact h.useScope (List.mem_of_getElem? hi) a
    · exact h

end Sound

theorem sound_after (rs : List (Request R)) : (after rs).Sound := by
  induction rs using List.reverseRecOn with
  | nil => exact ⟨.empty, fun _ hi => nomatch hi⟩
  | append_singleton rs r ih =>
    rw [after_concat]
    exact ih.perform r

/-- **An update writes the nearest scope of the frame that binds the name, or it does nothing.** The
scopes are made, shared, copied and written in any way, and the update starts at any of those that were
handed out. It succeeds exactly when a scope on the way up, no further than the nearest root of a
frame, binds the name. Then the nearest of these has the new value, no other scope changes, and the new
value is seen from each scope whose nearest binding it is, and from no other. Otherwise the value comes
back and everything stays as it was. Lookups find the nearest binding on the whole way up, before and
after. -/
theorem update_writes_nearest_of_frame (rs : List (Request R)) (h : Nat) (i : ScopeId) (x : Name)
    (v : Value R) (hi : (after rs).handles[h]? = some i) :
    (after rs).forest.LooksUpNearest ∧
      ∃ way, (after rs).forest.Upward i way ∧
        ((∃ u, (after rs).forest.update i x v = .ok u) ↔
          ∃ s ∈ inFrame way, s.bindings.contains x = true) ∧
        match (after rs).forest.update i x v with
        | .error w => w = v ∧ after (rs ++ [.use h (.update x v)]) = after rs
        | .ok u =>
          after (rs ++ [.use h (.update x v)]) = { after rs with forest := u } ∧
            u.LooksUpNearest ∧
            ∃ s, nearest x (inFrame way) = some s ∧
              u.get? s.id = some { s with bindings := s.bindings.insert x v } ∧
              (∀ j, j ≠ s.id → u.get? j = (after rs).forest.get? j) ∧
              ∀ j way' y, (after rs).forest.Upward j way' → u.lookup j y =
                if y = x ∧ (nearest x way').map Scope.id = some s.id then some v
                else (after rs).forest.lookup j y := by
  have hsound := sound_after rs
  generalize ht : (after rs).forest = t
  have hord : t.Ordered := ht ▸ hsound.ordered
  obtain ⟨si, hsi⟩ := hsound.handles i (List.mem_of_getElem? hi)
  obtain ⟨way, hway⟩ := hord.exists_upward (ht ▸ hsi)
  have hnext : after (rs ++ [.use h (.update x v)]) =
      match t.update i x v with
      | .ok u => { after rs with forest := u }
      | .error _ => after rs := by
    rw [after_concat, perform, hi]
    simp only [ScopeTable.useScope, ht]
  have hbound : (nearest x (inFrame way)).isSome ↔ ∃ s ∈ inFrame way, s.bindings.contains x = true :=
    List.find?_isSome
  refine ⟨hord.looksUpNearest, way, hway, ?_⟩
  rw [hnext, ← hbound]
  rcases hord.update_cases hway x v with ⟨hnone, hup⟩ | ⟨s, hs, hnear, hup⟩
  · rw [hup, hnone]
    exact ⟨by simp, rfl, rfl⟩
  · have hget : t.get? s.id = some s := hway.get?_of_mem hs
    have hx : s.bindings.contains x = true := by simpa using List.find?_some hnear
    rw [hup, hnear]
    refine ⟨by simp, rfl, (hord.of_update hup).looksUpNearest, s, rfl, ?_, fun j hj => ?_,
      fun j way' y hway' => hord.lookup_map_bindAt hget hx hway' y⟩
    · rw [Forest.get?_map_bindAt, hget, Option.map_some, bindAt, if_pos rfl]
    · rw [Forest.get?_map_bindAt]
      cases hj' : t.get? j with
      | none => rfl
      | some u =>
        have hne : u.id ≠ s.id := Forest.id_of_get? hj' ▸ hj
        rw [Option.map_some, bindAt_of_ne hne]

/-- The scope of a call in the global one, a block in it with a copy, the scope of the call a second
time, and another block in the first one, with the name bound in the global scope, in that of the call
and in the inner block. -/
def callBranches : List (Request Int) :=
  [.root .global, .use 0 (.define ⟨1⟩ (.int 1)), .use 0 (.child .frame), .use 1 (.define ⟨1⟩ (.int 2)),
    .use 1 (.child .block), .use 2 .copy, .use 1 .share, .use 2 (.child .block),
    .use 5 (.define ⟨1⟩ (.int 9))]

/-- An update that starts at the copy writes the scope of the call, and is seen in the blocks that do
not bind the name themselves. -/
theorem update_writes_nearest_of_frame_callBranches :
    (after callBranches).handles = [⟨0⟩, ⟨1⟩, ⟨2⟩, ⟨3⟩, ⟨1⟩, ⟨4⟩] ∧
      ∃ u, (after callBranches).forest.update ⟨3⟩ ⟨1⟩ (.int 7) = .ok u ∧ u.LooksUpNearest ∧
        [0, 1, 2, 3, 4].map (fun k => u.lookup ⟨k⟩ ⟨1⟩) =
          [some (.int 1), some (.int 7), some (.int 7), some (.int 7), some (.int 9)] := by
  obtain ⟨u, hu⟩ : ∃ u, (after callBranches).forest.update ⟨3⟩ ⟨1⟩ (.int 7) = .ok u := ⟨_, rfl⟩
  have hmain := update_writes_nearest_of_frame callBranches 3 ⟨3⟩ ⟨1⟩ (.int 7) rfl
  obtain ⟨-, way, -, -, hmatch⟩ := hmain
  rw [hu] at hmatch
  refine ⟨rfl, u, hu, hmatch.2.1, ?_⟩
  cases hu
  rfl

end ScopeTable

end StagedGraph
