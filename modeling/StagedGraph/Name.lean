/-!
# Names

Variables, parameters and functions are called by interned names: small numbers that stand
for strings. An `Interner` gives equal strings equal names. The empty string is interned
from the start.

An interner keeps what it knows twice: a map finds the name of a string, and a list has the string of
a name. A new interner keeps them inverse to each other, and interning a string keeps them so
(`Coherent.intern`).
-/

namespace StagedGraph

/-- An interned string, by its position in the interner. -/
structure Name where
  index : Nat
deriving DecidableEq, Repr, Inhabited

namespace Name

/-- The name of the empty string in every interner. -/
def empty : Name := ⟨0⟩

/-- Names are ordered by their positions. -/
instance : LT Name := ⟨fun a b => a.index < b.index⟩

instance (a b : Name) : Decidable (a < b) := inferInstanceAs (Decidable (a.index < b.index))

/-- The text of a name as a number. -/
def dump (x : Name) : String := "Name(" ++ toString x.index ++ ")"

end Name

/-- The first value that a list of pairs holds for a key. -/
def findIn {κ α : Type} [DecidableEq κ] (k : κ) : List (κ × α) → Option α
  | [] => none
  | (l, v) :: rest => if l = k then some v else findIn k rest

/-- The strings that have names: a map from each string to its name, and the strings in the order in
which they were interned. -/
structure Interner where
  names : List (String × Name)
  strings : List String

namespace Interner

/-- The name of a string, if it was interned. -/
def find? (t : Interner) (s : String) : Option Name := findIn s t.names

/-- The name of a string, interned now if it was not before. -/
def intern (t : Interner) (s : String) : Name × Interner :=
  match t.find? s with
  | some x => (x, t)
  | none =>
    let x : Name := ⟨t.strings.length⟩
    (x, ⟨(s, x) :: t.names, t.strings ++ [s]⟩)

/-- The interner that knows the empty string only. -/
def empty : Interner := (intern ⟨[], []⟩ "").2

/-- The string behind a name; a name of another interner may have none here and then reads
as the empty string. -/
def lookup (t : Interner) (x : Name) : String := t.strings.getD x.index ""

/-- The number of strings, the empty one included. -/
def size (t : Interner) : Nat := t.strings.length

/-! ### The map and the list -/

/-- The map and the list are inverse to each other: a string has a name in the map where it stands in
the list. -/
def Coherent (t : Interner) : Prop := ∀ s x, t.find? s = some x ↔ t.strings[x.index]? = some s

variable {t : Interner} {s : String} {x : Name}

theorem find?_intern (t : Interner) (s : String) :
    (t.intern s).2.find? s = some (t.intern s).1 := by
  unfold intern
  split
  · next x hx => exact hx
  · simp [find?, findIn]

theorem Coherent.lookup_of_find? (ht : t.Coherent) (h : t.find? s = some x) : t.lookup x = s := by
  rw [lookup, List.getD_eq_getElem?_getD, (ht s x).1 h, Option.getD_some]

theorem Coherent.find?_eq_none_iff (ht : t.Coherent) : t.find? s = none ↔ s ∉ t.strings := by
  rw [Option.eq_none_iff_forall_ne_some, List.mem_iff_getElem?, not_exists]
  exact ⟨fun h i hi => h ⟨i⟩ ((ht s ⟨i⟩).2 hi), fun h x hx => h x.index ((ht s x).1 hx)⟩

theorem getElem?_concat_eq_some {l : List String} {a b : String} {i : Nat} :
    (l ++ [a])[i]? = some b ↔ l[i]? = some b ∨ i = l.length ∧ b = a := by
  rcases Nat.lt_trichotomy i l.length with hlt | rfl | hgt
  · simp [List.getElem?_append_left hlt, Nat.ne_of_lt hlt]
  · simp [eq_comm]
  · have hlen : (l ++ [a]).length ≤ i := by rw [List.length_append]; exact hgt
    simp [List.getElem?_eq_none hlen, Nat.le_of_lt hgt, Nat.ne_of_gt hgt]

/-- A string that had no name gets the next one, in the map and in the list. -/
theorem Coherent.intern (ht : t.Coherent) (s : String) : (t.intern s).2.Coherent := by
  intro r x
  rw [Interner.intern]
  split
  · exact ht r x
  · next hnone =>
    have hnew : ¬ t.strings[x.index]? = some s := fun h =>
      ht.find?_eq_none_iff.1 hnone (List.mem_of_getElem? h)
    rw [getElem?_concat_eq_some]
    by_cases hr : r = s
    · subst hr
      obtain ⟨i⟩ := x
      simp [find?, findIn, hnew, eq_comm]
    · simp [find?, findIn, hr, Ne.symm hr, ← ht r x]

theorem Coherent.lookup_intern (ht : t.Coherent) (s : String) :
    (t.intern s).2.lookup (t.intern s).1 = s :=
  (ht.intern s).lookup_of_find? (t.find?_intern s)

theorem coherent_empty : Interner.empty.Coherent :=
  Coherent.intern (t := ⟨[], []⟩) (fun s x => by simp [find?, findIn]) ""

/-- The text of an interner shows its size only. -/
def dump (t : Interner) : String := "StringInterner \x7b len: " ++ toString t.size ++ " \x7d"

end Interner

end StagedGraph
