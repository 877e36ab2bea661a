import Mathlib.Data.List.Nodup
import StagedGraph.Proofs.Levels

/-!
# What a result shows

The result of an execution lists the bindings of the global scope under the strings of their
names, sorted by string. Reading a string in that list is reading the name behind it in the
scope, if the string is the string of one name only (`Interner.lookup_named`).
-/

namespace StagedGraph

variable {α : Type}

theorem lookup_cons_ite (j k : String) (v : α) (l : List (String × α)) :
    ((k, v) :: l).lookup j = if j = k then some v else l.lookup j := by
  by_cases h : j = k
  · simp [h]
  · rw [List.lookup_cons, beq_eq_false_iff_ne.2 h, if_neg h]

theorem lookup_insertSorted (j k : String) (v : α) (l : List (String × α)) :
    (sortByKey.insertSorted k v l).lookup j = if j = k then some v else l.lookup j := by
  induction l with
  | nil => exact lookup_cons_ite j k v []
  | cons e l ih =>
    obtain ⟨i, w⟩ := e
    rw [sortByKey.insertSorted]
    split
    · next hki => subst hki; by_cases h : j = k <;> simp [lookup_cons_ite, h]
    · next hki =>
      split
      · rw [lookup_cons_ite]
      · by_cases h : j = k
        · subst h
          simp [lookup_cons_ite, ih, hki]
        · simp [lookup_cons_ite, ih, h]

/-- Of several pairs with one key the last one counts. -/
theorem lookup_sortByKey (l : List (String × α)) (j : String) :
    (sortByKey l).lookup j = l.reverse.lookup j := by
  have hfold : ∀ acc : List (String × α),
      (l.foldl (fun sorted e => sortByKey.insertSorted e.1 e.2 sorted) acc).lookup j =
        (l.reverse.lookup j).or (acc.lookup j) := by
    induction l with
    | nil => exact fun acc => rfl
    | cons e l ih =>
      intro acc
      obtain ⟨k, v⟩ := e
      rw [List.foldl_cons, ih, lookup_insertSorted, List.reverse_cons, List.lookup_append,
        Option.or_assoc, lookup_cons_ite]
      by_cases h : j = k <;> simp [h]
  rw [sortByKey, hfold]
  simp

namespace Interner

/-- In an interner that holds no string twice, a string other than the empty one is the string of one
name only. -/
theorem lookup_eq_iff {t : Interner} {s : String} {x : Name} (hnodup : t.strings.Nodup)
    (hx : t.strings[x.index]? = some s) (hs : s ≠ "") (y : Name) : t.lookup y = s ↔ y = x := by
  have hlookup : t.lookup y = s ↔ t.strings[y.index]? = some s := by
    rw [lookup, List.getD_eq_getElem?_getD]
    cases t.strings[y.index]? with
    | none => simp [Ne.symm hs]
    | some r => simp
  rw [hlookup]
  constructor
  · intro hy
    have hlt := (List.getElem?_eq_some_iff.1 hy).1
    exact congrArg Name.mk ((List.getElem?_inj hlt hnodup).1 (hy.trans hx.symm))
  · rintro rfl
    exact hx

/-- What the result of an execution shows under a string is what its name is bound to. -/
theorem lookup_named {t : Interner} {s : String} {x : Name} (h : ∀ y, t.lookup y = s ↔ y = x)
    (m : NameMap α) : (t.named m.entries).lookup s = m.find? x := by
  obtain ⟨es, hnodup⟩ := m
  rw [named, lookup_sortByKey, NameMap.find?]
  induction es with
  | nil => rfl
  | cons e es ih =>
    obtain ⟨y, v⟩ := e
    obtain ⟨hy, hes⟩ := List.nodup_cons.1 hnodup
    rw [List.map_cons, List.reverse_cons, List.lookup_append, ih hes, findIn]
    by_cases hyx : y = x
    · subst hyx
      simp [NameMap.findIn_eq_none hy, (h y).2 rfl]
    · have hne : ¬ s = t.lookup y := fun e => hyx ((h y).1 e.symm)
      simp [lookup_cons_ite, hne, hyx]

end Interner

/-- **With no scope open but the global one, a result shows what the variables hold.** -/
theorem Environment.lookup_named_globals {R : Type} {env : Environment R} (hdepth : env.depth = 1)
    {t : Interner} {s : String} {x : Name} (h : ∀ y, t.lookup y = s ↔ y = x) :
    (t.named env.globals).lookup s = env.lookup x := by
  obtain ⟨l, hl⟩ := List.length_eq_one_iff.1 (env.length_levels.trans hdepth)
  rw [globals_eq (l := l) (by rw [hl]; rfl), Interner.lookup_named h, lookup_eq, hl]
  cases hx : l.bindings.find? x <;> simp [Level.lookup, hx]

end StagedGraph
