import StagedGraph.Scope

/-!
# Ways up through a forest of scopes

Scopes share their parents, so many ways lead up to the same scope, and an update that starts at one
scope is seen from others. `Upward` lists the scopes from one scope up through its parents.

What carries the proofs is that a scope is made after its parent (`Ordered`): the scopes on a way up
stand in this order in the list of all scopes, so that a walk through the list meets them one by one
(`Upward.cons_cases`). A lookup then finds the nearest binding on the way (`Ordered.lookup_eq`), and an
update writes the nearest scope on the way that binds the name, if it is in the frame, and no other
scope (`Ordered.update?_eq`). Who sees the new binding is `Ordered.lookup_map_bindAt`.
-/

namespace StagedGraph

variable {R : Type}

namespace Scope

/-- Of the scopes on a way up, those of the frame of the first one: up to the nearest root of a
frame. -/
def inFrame (ss : List (Scope R)) : List (Scope R) := ss.take (ss.findIdx (·.kind.isFrameRoot) + 1)

/-- The nearest scope on a way up that binds a name. -/
def nearest (x : Name) (ss : List (Scope R)) : Option (Scope R) := ss.find? (·.bindings.contains x)

/-- Binds a name in a scope if it has this number. -/
def bindAt (i : ScopeId) (x : Name) (v : Value R) (s : Scope R) : Scope R :=
  if s.id = i then { s with bindings := s.bindings.insert x v } else s

variable {i : ScopeId} {x y : Name} {v : Value R} {s : Scope R} {ss : List (Scope R)}

theorem inFrame_cons (s : Scope R) (ss : List (Scope R)) :
    inFrame (s :: ss) = if s.kind.isFrameRoot then [s] else s :: inFrame ss := by
  rw [inFrame, List.findIdx_cons]
  cases s.kind.isFrameRoot with
  | true => rfl
  | false => rfl

theorem nearest_cons (x : Name) (s : Scope R) (ss : List (Scope R)) :
    nearest x (s :: ss) = if s.bindings.contains x then some s else nearest x ss := by
  rw [nearest, List.find?_cons]
  cases s.bindings.contains x with
  | true => rfl
  | false => rfl

/-- The search for the scope that an update writes, scope by scope. -/
theorem nearest_inFrame_cons (x : Name) (s : Scope R) (ss : List (Scope R)) :
    nearest x (inFrame (s :: ss)) =
      if s.bindings.contains x then some s
      else if s.kind.isFrameRoot then none else nearest x (inFrame ss) := by
  rw [inFrame_cons]
  cases s.kind.isFrameRoot with
  | true => exact nearest_cons x s []
  | false => exact nearest_cons x s (inFrame ss)

theorem bindAt_of_ne (h : s.id ≠ i) : bindAt i x v s = s := if_neg h

@[simp] theorem bindAt_id : (bindAt i x v s).id = s.id := by
  rw [bindAt]
  split <;> rfl

@[simp] theorem bindAt_parent : (bindAt i x v s).parent = s.parent := by
  rw [bindAt]
  split <;> rfl

@[simp] theorem bindAt_place : (bindAt i x v s).place = s.place := by
  rw [bindAt]
  split <;> rfl

theorem map_bindAt_of_ne (h : ∀ s ∈ ss, s.id ≠ i) : ss.map (bindAt i x v) = ss :=
  (List.map_congr_left fun s hs => bindAt_of_ne (h s hs)).trans (List.map_id ss)

/-- The nearest bindings on a way up, where one scope on it has got another binding for a name that it
binds. -/
theorem findSome?_map_bindAt (h : ∀ s ∈ ss, s.id = i → s.bindings.contains x = true) :
    (ss.map (bindAt i x v)).findSome? (·.bindings.find? y) =
      if y = x ∧ (nearest x ss).map Scope.id = some i then some v
      else ss.findSome? (·.bindings.find? y) := by
  induction ss with
  | nil => simp [nearest]
  | cons s ss ih =>
    obtain ⟨hs, hss⟩ := List.forall_mem_cons.1 h
    rw [List.map_cons, List.findSome?_cons, ih hss, List.findSome?_cons, nearest_cons]
    by_cases hid : s.id = i
    · by_cases hy : y = x
      · subst hy
        simp [bindAt, hid, hs hid, NameMap.find?_insert]
      · simp [bindAt, hid, hy, Ne.symm hy, NameMap.find?_insert]
    · rw [bindAt_of_ne hid]
      by_cases hy : y = x
      · subst hy
        cases hfind : s.bindings.find? y <;> simp [NameMap.contains, hfind, hid]
      · simp [hy]

end Scope

namespace Forest

open Scope

variable {t u : Forest R} {i j : ScopeId} {x y : Name} {v : Value R} {s : Scope R}
  {rest way way' : List (Scope R)}

/-! ### Ways up -/

/-- The scopes from one scope up through its parents, the scope itself first. -/
inductive Upward (t : Forest R) : ScopeId → List (Scope R) → Prop
  | last {i : ScopeId} {s : Scope R} : t.get? i = some s → s.parent = none → Upward t i [s]
  | step {i j : ScopeId} {s : Scope R} {way : List (Scope R)} : t.get? i = some s →
      s.parent = some j → Upward t j way → Upward t i (s :: way)

/-- A scope is made after its parent. -/
structure Ordered (t : Forest R) : Prop where
  sorted : t.scopes.Pairwise fun s u => u.id.index < s.id.index
  parent : ∀ s ∈ t.scopes, ∀ j, s.parent = some j → j.index < s.id.index ∧ ∃ u, t.get? j = some u

theorem get?_cons (s : Scope R) (rest : List (Scope R)) (i : ScopeId) :
    get? ⟨s :: rest⟩ i = if s.id = i then some s else get? ⟨rest⟩ i := by
  rw [get?, List.find?_cons]
  by_cases h : s.id = i
  · simp [h]
  · simp [h, get?]

theorem id_of_get? (h : t.get? i = some s) : s.id = i := by
  simpa using List.find?_some h

theorem mem_of_get? (h : t.get? i = some s) : s ∈ t.scopes := List.mem_of_find?_eq_some h

theorem get?_of_lt (h : i.index < s.id.index) : get? ⟨s :: rest⟩ i = get? ⟨rest⟩ i := by
  rw [get?_cons, if_neg]
  rintro rfl
  exact Nat.lt_irrefl _ h

theorem Upward.get?_of_mem (h : t.Upward i way) (hs : s ∈ way) : t.get? s.id = some s := by
  induction h with
  | last hget _ =>
    obtain rfl := List.mem_singleton.1 hs
    rw [id_of_get? hget]
    exact hget
  | step hget _ _ ih =>
    rcases List.mem_cons.1 hs with rfl | hs
    · rw [id_of_get? hget]
      exact hget
    · exact ih hs

namespace Ordered

theorem lt_of_mem (h : Ordered ⟨s :: rest⟩) {u : Scope R} (hu : u ∈ rest) :
    u.id.index < s.id.index :=
  List.rel_of_pairwise_cons h.sorted hu

theorem tail (h : Ordered ⟨s :: rest⟩) : Ordered ⟨rest⟩ := by
  refine ⟨h.sorted.tail, fun u hu j hj => ?_⟩
  obtain ⟨hlt, w, hw⟩ := h.parent u (List.mem_cons_of_mem s hu) j hj
  rw [get?_of_lt (Nat.lt_trans hlt (h.lt_of_mem hu))] at hw
  exact ⟨hlt, w, hw⟩

/-- The way up from an older scope does not lead through a newer one. -/
theorem upward_iff (h : Ordered ⟨s :: rest⟩) (hi : i.index < s.id.index) :
    Upward ⟨s :: rest⟩ i way ↔ Upward ⟨rest⟩ i way := by
  constructor
  · intro hway
    induction hway with
    | last hget hp => exact .last (get?_of_lt hi ▸ hget) hp
    | @step i j u way hget hp _ ih =>
      have hlt := (h.parent u (mem_of_get? hget) j hp).1
      rw [id_of_get? hget] at hlt
      exact .step (get?_of_lt hi ▸ hget) hp (ih (Nat.lt_trans hlt hi))
  · intro hway
    induction hway with
    | last hget hp => exact .last ((get?_of_lt hi).trans hget) hp
    | @step i j u way hget hp _ ih =>
      have hlt := (h.tail.parent u (mem_of_get? hget) j hp).1
      rw [id_of_get? hget] at hlt
      exact .step ((get?_of_lt hi).trans hget) hp (ih (Nat.lt_trans hlt hi))

/-- Every scope has a way up. -/
theorem exists_upward (h : t.Ordered) (hi : t.get? i = some s) : ∃ way, t.Upward i way := by
  obtain ⟨ss⟩ := t
  induction ss generalizing i s with
  | nil => cases hi
  | cons u rest ih =>
    by_cases hid : u.id = i
    · subst hid
      rw [get?_cons, if_pos rfl] at hi
      cases hi
      cases hp : u.parent with
      | none => exact ⟨[u], .last (by rw [get?_cons, if_pos rfl]) hp⟩
      | some j =>
        obtain ⟨hlt, w, hw⟩ := h.parent u List.mem_cons_self j hp
        obtain ⟨way, hway⟩ := ih h.tail (get?_of_lt hlt ▸ hw)
        exact ⟨u :: way, .step (by rw [get?_cons, if_pos rfl]) hp ((h.upward_iff hlt).2 hway)⟩
    · rw [get?_cons, if_neg hid] at hi
      obtain ⟨way, hway⟩ := ih h.tail hi
      have hlt : i.index < u.id.index := id_of_get? hi ▸ h.lt_of_mem (mem_of_get? hi)
      exact ⟨way, (h.upward_iff hlt).2 hway⟩

end Ordered

/-- A way up starts at the newest scope, and goes on in the others, or it is in the others. -/
theorem Upward.cons_cases (hway : Upward ⟨s :: rest⟩ i way) (h : Ordered ⟨s :: rest⟩) :
    (i = s.id ∧ s.parent = none ∧ way = [s]) ∨
      (∃ j way', i = s.id ∧ s.parent = some j ∧ way = s :: way' ∧ Upward ⟨rest⟩ j way') ∨
      s.id ≠ i ∧ Upward ⟨rest⟩ i way := by
  by_cases hid : s.id = i
  · subst hid
    cases hway with
    | last hget hp =>
      rw [get?_cons, if_pos rfl] at hget
      cases hget
      exact .inl ⟨rfl, hp, rfl⟩
    | @step i j u way' hget hp hrest =>
      rw [get?_cons, if_pos rfl] at hget
      cases hget
      have hlt := (h.parent s List.mem_cons_self j hp).1
      exact .inr (.inl ⟨j, way', rfl, hp, rfl, (h.upward_iff hlt).1 hrest⟩)
  · have hget : ∃ u, get? ⟨rest⟩ i = some u := by
      cases hway with
      | last hget _ | step hget _ _ => exact ⟨_, by rwa [get?_cons, if_neg hid] at hget⟩
    obtain ⟨u, hu⟩ := hget
    have hlt : i.index < s.id.index := id_of_get? hu ▸ h.lt_of_mem (mem_of_get? hu)
    exact .inr (.inr ⟨hid, (h.upward_iff hlt).1 hway⟩)

/-! ### Forests that are made step by step -/

theorem exists_get?_iff : (∃ s, t.get? i = some s) ↔ i ∈ t.scopes.map Scope.id := by
  rw [← Option.isSome_iff_exists, get?, List.find?_isSome, List.mem_map]
  simp

/-- Which scopes there are is a matter of the places only. -/
theorem exists_get?_congr (hp : u.scopes.map Scope.place = t.scopes.map Scope.place) :
    (∃ s, u.get? i = some s) ↔ ∃ s, t.get? i = some s := by
  have hids : u.scopes.map Scope.id = t.scopes.map Scope.id := by
    simpa [Scope.place, Function.comp_def] using congrArg (List.map Prod.fst) hp
  rw [exists_get?_iff, exists_get?_iff, hids]

namespace Ordered

theorem empty : (Forest.empty : Forest R).Ordered := ⟨.nil, fun _ hs => nomatch hs⟩

/-- The order is a matter of the places, too. -/
theorem congr (h : t.Ordered) (hp : u.scopes.map Scope.place = t.scopes.map Scope.place) :
    u.Ordered := by
  have hsorted : (u.scopes.map Scope.place).Pairwise fun p q => q.1.index < p.1.index :=
    hp ▸ List.pairwise_map.2 h.sorted
  refine ⟨List.pairwise_map.1 hsorted, fun s hs j hj => ?_⟩
  have hmem : s.place ∈ t.scopes.map Scope.place := hp ▸ List.mem_map_of_mem hs
  obtain ⟨s', hs', hplace⟩ := List.mem_map.1 hmem
  simp only [Scope.place, Prod.mk.injEq] at hplace
  obtain ⟨hid, hparent, -⟩ := hplace
  obtain ⟨hlt, hj'⟩ := h.parent s' hs' j (hparent.trans hj)
  exact ⟨hid ▸ hlt, (exists_get?_congr hp).2 hj'⟩

theorem lt_nextId (h : t.Ordered) (hs : s ∈ t.scopes) : s.id.index < t.nextId.index := by
  obtain ⟨ss⟩ := t
  cases ss with
  | nil => cases hs
  | cons u rest =>
    rcases List.mem_cons.1 hs with rfl | hs
    · exact Nat.lt_succ_self _
    · exact Nat.lt_succ_of_lt (h.lt_of_mem hs)

/-- A new scope is the newest one, and its parent is one of the others. -/
theorem add (h : t.Ordered) (m : NameMap (Value R)) (parent : Option ScopeId) (kind : ScopeKind)
    (hp : ∀ j, parent = some j → ∃ s, t.get? j = some s) : (t.add m parent kind).2.Ordered := by
  have hold {j : ScopeId} {s : Scope R} (hs : t.get? j = some s) :
      j.index < t.nextId.index ∧ ∃ u, (t.add m parent kind).2.get? j = some u := by
    have hlt : j.index < t.nextId.index := id_of_get? hs ▸ h.lt_nextId (mem_of_get? hs)
    exact ⟨hlt, s, (get?_of_lt hlt).trans hs⟩
  refine ⟨List.pairwise_cons.2 ⟨fun s hs => h.lt_nextId hs, h.sorted⟩, fun s hs j hj => ?_⟩
  rcases List.mem_cons.1 hs with rfl | hs
  · obtain ⟨u, hu⟩ := hp j hj
    exact hold hu
  · obtain ⟨hlt, u, hu⟩ := h.parent s hs j hj
    exact ⟨hlt, (hold hu).2⟩

end Ordered

/-! ### Lookups and updates -/

namespace Ordered

/-- **A lookup finds the nearest binding on the way up.** -/
theorem lookup_eq (h : t.Ordered) (hway : t.Upward i way) (x : Name) :
    t.lookup i x = way.findSome? (·.bindings.find? x) := by
  obtain ⟨ss⟩ := t
  rw [lookup]
  induction ss generalizing i way with
  | nil => cases hway <;> contradiction
  | cons s rest ih =>
    rw [lookupIn]
    rcases hway.cons_cases h with ⟨rfl, hp, rfl⟩ | ⟨j, way', rfl, hp, rfl, hrest⟩ | ⟨hid, hrest⟩
    · rw [if_pos rfl, hp]
      cases hx : s.bindings.find? x <;> simp [hx]
    · rw [if_pos rfl, hp, List.findSome?_cons]
      cases hx : s.bindings.find? x with
      | some v => rfl
      | none => exact ih h.tail hrest
    · rw [if_neg hid]
      exact ih h.tail hrest

/-- **An update writes the nearest scope of the frame that binds the name**, and no other. -/
theorem update?_eq (h : t.Ordered) (hway : t.Upward i way) (x : Name) (v : Value R) :
    t.update? i x v =
      (nearest x (inFrame way)).map fun s => ⟨t.scopes.map (bindAt s.id x v)⟩ := by
  obtain ⟨ss⟩ := t
  rw [update?]
  suffices hss : updateIn i x v ss =
      (nearest x (inFrame way)).map fun s => ss.map (bindAt s.id x v) by
    rw [hss, Option.map_map]
    rfl
  induction ss generalizing i way with
  | nil => cases hway <;> contradiction
  | cons s rest ih =>
    have hrest_ne : ∀ u ∈ rest, u.id ≠ s.id := fun u hu he =>
      Nat.lt_irrefl _ (he ▸ h.lt_of_mem hu)
    -- the newest scope itself is written, or it is left alone and the others are updated
    have hhere : (s :: rest).map (bindAt s.id x v) =
        { s with bindings := s.bindings.insert x v } :: rest := by
      rw [List.map_cons, bindAt, if_pos rfl, map_bindAt_of_ne hrest_ne]
    have hthere {j : ScopeId} {way' : List (Scope R)} (hway' : Upward ⟨rest⟩ j way') :
        (updateIn j x v rest).map (s :: ·) =
          (nearest x (inFrame way')).map fun u => (s :: rest).map (bindAt u.id x v) := by
      rw [ih h.tail hway', Option.map_map]
      cases hnear : nearest x (inFrame way') with
      | none => rfl
      | some u =>
        have hu : u ∈ way' := List.mem_of_mem_take (List.mem_of_find?_eq_some hnear)
        have hne : s.id ≠ u.id := (hrest_ne u (mem_of_get? (hway'.get?_of_mem hu))).symm
        simp [bindAt_of_ne hne]
    rw [updateIn]
    rcases hway.cons_cases h with ⟨rfl, hp, rfl⟩ | ⟨j, way', rfl, hp, rfl, hrest⟩ | ⟨hid, hrest⟩
    · rw [if_pos rfl, nearest_inFrame_cons]
      split
      · exact congrArg some hhere.symm
      · split
        · rfl
        · rw [hp]; rfl
    · rw [if_pos rfl, nearest_inFrame_cons]
      split
      · exact congrArg some hhere.symm
      · split
        · rfl
        · rw [hp]; exact hthere hrest
    · rw [if_neg hid]
      exact hthere hrest

end Ordered

theorem get?_map_bindAt (t : Forest R) (k : ScopeId) (x : Name) (v : Value R) (j : ScopeId) :
    get? ⟨t.scopes.map (bindAt k x v)⟩ j = (t.get? j).map (bindAt k x v) := by
  have hid : (fun s : Scope R => decide (s.id = j)) ∘ bindAt k x v = fun s => decide (s.id = j) :=
    funext fun s => by rw [Function.comp_apply, bindAt_id]
  rw [get?, get?, List.find?_map, hid]

theorem Upward.map_bindAt (h : t.Upward i way) (k : ScopeId) (x : Name) (v : Value R) :
    Upward ⟨t.scopes.map (bindAt k x v)⟩ i (way.map (bindAt k x v)) := by
  induction h with
  | last hget hp =>
    exact .last (by rw [get?_map_bindAt, hget, Option.map_some]) (bindAt_parent.trans hp)
  | step hget hp _ ih =>
    exact .step (by rw [get?_map_bindAt, hget, Option.map_some]) (bindAt_parent.trans hp) ih

theorem update_eq_ok : t.update i x v = .ok u ↔ t.update? i x v = some u := by
  rw [update]
  cases t.update? i x v <;> simp

namespace Ordered

theorem of_update (h : t.Ordered) (hu : t.update i x v = .ok u) : u.Ordered :=
  h.congr (map_place_update? (update_eq_ok.1 hu))

/-- An update hands its value back when no scope of the frame binds the name, and binds the name in the
nearest one otherwise. -/
theorem update_cases (h : t.Ordered) (hway : t.Upward i way) (x : Name) (v : Value R) :
    (nearest x (inFrame way) = none ∧ t.update i x v = .error v) ∨
      ∃ s ∈ way, nearest x (inFrame way) = some s ∧
        t.update i x v = .ok ⟨t.scopes.map (bindAt s.id x v)⟩ := by
  rw [update, h.update?_eq hway]
  cases hnear : nearest x (inFrame way) with
  | none => exact .inl ⟨rfl, rfl⟩
  | some s =>
    have hs : s ∈ way := List.mem_of_mem_take (List.mem_of_find?_eq_some hnear)
    exact .inr ⟨s, hs, rfl, rfl⟩

/-- **A new binding in place of another one is seen from where the other one was seen**, which is where
the nearest scope on the way up that binds the name is the one that was written. -/
theorem lookup_map_bindAt (h : t.Ordered) (hs : t.get? s.id = some s)
    (hx : s.bindings.contains x = true) (hway : t.Upward j way) (y : Name) :
    lookup ⟨t.scopes.map (bindAt s.id x v)⟩ j y =
      if y = x ∧ (nearest x way).map Scope.id = some s.id then some v else t.lookup j y := by
  have hbinds : ∀ u ∈ way, u.id = s.id → u.bindings.contains x = true := fun u hu hid => by
    have hget := hway.get?_of_mem hu
    rw [hid, hs] at hget
    cases hget
    exact hx
  have hord : Ordered ⟨t.scopes.map (bindAt s.id x v)⟩ := h.congr (by simp [Function.comp_def])
  rw [hord.lookup_eq (hway.map_bindAt s.id x v), h.lookup_eq hway, findSome?_map_bindAt hbinds]

end Ordered

/-- Every scope has a way up, and a lookup on it finds the nearest binding on that way. -/
def LooksUpNearest (t : Forest R) : Prop :=
  ∀ k s, t.get? k = some s →
    ∃ way, t.Upward k way ∧ ∀ y, t.lookup k y = way.findSome? (·.bindings.find? y)

theorem Ordered.looksUpNearest (h : t.Ordered) : t.LooksUpNearest := fun _ _ hs =>
  let ⟨way, hway⟩ := h.exists_upward hs
  ⟨way, hway, h.lookup_eq hway⟩

end Forest

end StagedGraph
