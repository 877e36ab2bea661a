import StagedGraph.Name

/-!
# Maps from names

A `NameMap` is a list of pairs with at most one pair for a name. Inserting a name that is
present replaces its value in place.
-/

namespace StagedGraph

/-- A finite map from names. -/
structure NameMap (α : Type) where
  entries : List (Name × α)
  /-- A name stands in one pair only. -/
  nodup : (entries.map Prod.fst).Nodup
deriving Repr, DecidableEq

namespace NameMap

variable {α : Type}

/-- The map without names. -/
def empty : NameMap α := ⟨[], List.nodup_nil⟩

/-- Replaces the value of a name, or adds the pair at the end. -/
def insertIn (x : Name) (v : α) : List (Name × α) → List (Name × α)
  | [] => [(x, v)]
  | (y, w) :: rest => if y = x then (x, v) :: rest else (y, w) :: insertIn x v rest

theorem map_fst_insertIn (x : Name) (v : α) (es : List (Name × α)) :
    (insertIn x v es).map Prod.fst =
      if x ∈ es.map Prod.fst then es.map Prod.fst else es.map Prod.fst ++ [x] := by
  induction es with
  | nil => rfl
  | cons e es ih =>
    obtain ⟨y, w⟩ := e
    by_cases h : y = x
    · simp [insertIn, h]
    · have hne : ¬ x = y := fun e => h e.symm
      rw [insertIn, if_neg h, List.map_cons, ih]
      simp only [List.map_cons, List.mem_cons, hne, false_or]
      split <;> rfl

theorem nodup_insertIn (x : Name) (v : α) {es : List (Name × α)} (h : (es.map Prod.fst).Nodup) :
    ((insertIn x v es).map Prod.fst).Nodup := by
  rw [map_fst_insertIn]
  split
  · exact h
  · next hx =>
    refine List.nodup_append.2 ⟨h, by simp, fun a ha b hb hab => hx ?_⟩
    rw [← List.mem_singleton.1 hb, ← hab]
    exact ha

theorem findIn_insertIn (x y : Name) (v : α) (es : List (Name × α)) :
    findIn y (insertIn x v es) = if x = y then some v else findIn y es := by
  induction es with
  | nil => rfl
  | cons e es ih =>
    obtain ⟨z, w⟩ := e
    by_cases hz : z = x
    · subst hz
      by_cases hy : z = y <;> simp [insertIn, findIn, hy]
    · by_cases hy : x = y
      · subst hy
        simp [insertIn, findIn, hz, ih]
      · simp [insertIn, findIn, hz, ih, hy]

theorem findIn_eq_none {x : Name} {es : List (Name × α)} (h : x ∉ es.map Prod.fst) :
    findIn x es = none := by
  induction es with
  | nil => rfl
  | cons e es ih =>
    obtain ⟨hne, hes⟩ := not_or.1 (mt List.mem_cons.2 h)
    rw [findIn, if_neg (Ne.symm hne), ih hes]

theorem findIn_eq_some {x : Name} {v : α} {es : List (Name × α)} (h : (es.map Prod.fst).Nodup) :
    findIn x es = some v ↔ (x, v) ∈ es := by
  induction es with
  | nil => simp [findIn]
  | cons e es ih =>
    obtain ⟨y, w⟩ := e
    obtain ⟨hy, hes⟩ := List.nodup_cons.1 h
    rw [findIn, List.mem_cons]
    by_cases hx : y = x
    · subst hx
      have hnot : (y, v) ∉ es := fun hmem => hy (List.mem_map.2 ⟨_, hmem, rfl⟩)
      simp [hnot, eq_comm]
    · simp [hx, Ne.symm hx, ih hes]

/-- The value of a name. -/
def find? (m : NameMap α) (x : Name) : Option α := findIn x m.entries

/-- Whether a name has a value. -/
def contains (m : NameMap α) (x : Name) : Bool := (m.find? x).isSome

/-- Gives a name a value, in place of the one it had. -/
def insert (m : NameMap α) (x : Name) (v : α) : NameMap α :=
  ⟨insertIn x v m.entries, nodup_insertIn x v m.nodup⟩

theorem find?_eq_some {m : NameMap α} {x : Name} {v : α} :
    m.find? x = some v ↔ (x, v) ∈ m.entries :=
  findIn_eq_some m.nodup

theorem find?_insert (m : NameMap α) (x y : Name) (v : α) :
    (m.insert x v).find? y = if x = y then some v else m.find? y :=
  findIn_insertIn x y v m.entries

theorem contains_insert (m : NameMap α) (x y : Name) (v : α) :
    (m.insert x v).contains y = (decide (x = y) || m.contains y) := by
  by_cases h : x = y <;> simp [contains, find?_insert, h]

end NameMap

end StagedGraph
