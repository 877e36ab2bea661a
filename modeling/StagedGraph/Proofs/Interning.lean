import Mathlib.Data.Finset.Card
import StagedGraph.Proofs.BuilderHistory

/-!
# Names and strings

An interner may be asked for the name of a string, which is given to the string then if it has none,
for the name that a string has, and for the string behind a name, in any order (`Request`). It keeps a
map and a list, which stay inverse to each other whatever it is asked for (`Coherent.after`): only a
string that had no name changes them, and it is put behind the others in the list and into the map with
its place there. So the map finds in every string's case what a search in the list would find
(`Coherent.find?_eq_idxOf?`), and finding the name of a string and looking up the string of a name undo
each other (`Coherent.find?_eq_some_iff`).

Later requests leave what is there in its place (`lookup_after`). By induction on the requests a new
interner is exact for the strings that were interned (`exact_after`).
-/

namespace StagedGraph

namespace Interner

/-- What an interner may be asked for. -/
inductive Request where
  /-- The name of a string, which gets one now if it has none. -/
  | intern (s : String)
  /-- The name that a string has, if it has one. -/
  | find (s : String)
  /-- The string behind a name. -/
  | lookup (x : Name)
deriving DecidableEq

/-- The string that a request interns. -/
def Request.interned? : Request → Option String
  | intern s => some s
  | find _ => none
  | lookup _ => none

/-- The interner after one request. -/
def next (t : Interner) : Request → Interner
  | .intern s => (t.intern s).2
  | .find _ => t
  | .lookup _ => t

/-- The interner after these requests. -/
def after (t : Interner) : List Request → Interner
  | [] => t
  | r :: rs => (t.next r).after rs

/-- The strings that these requests to a new interner give names to, and the empty one. -/
def Request.strings (rs : List Request) : Finset String := insert "" (rs.filterMap interned?).toFinset

/-- What an interner answers that has names for just these strings. -/
structure Exact (t : Interner) (strings : Finset String) : Prop where
  coherent : t.Coherent
  /-- The name of a string is looked up as the string, whatever was asked for in between. -/
  lookup_eq : ∀ s later, ((t.intern s).2.after later).lookup (t.intern s).1 = s
  /-- Strings have the same name only if they are the same, whenever they are interned. -/
  intern_eq_iff : ∀ s later r, (((t.intern s).2.after later).intern r).1 = (t.intern s).1 ↔ r = s
  /-- The name of a string is found from then on. -/
  find?_eq_some : ∀ s later, ((t.intern s).2.after later).find? s = some (t.intern s).1
  /-- A name is found for these strings and for no other. -/
  find?_eq : ∀ s, t.find? s = if s ∈ strings then some (t.intern s).1 else none
  size_eq : t.size = strings.card
  /-- As long as there are fewer strings than numbers of 32 bits, every name fits in 32 bits. -/
  index_lt : strings.card < UInt32.size → ∀ s, (t.intern s).1.index < UInt32.size

variable {t : Interner} {s : String} {x : Name}

/-! ### One request -/

/-- **Finding a name and looking it up undo each other.** -/
theorem Coherent.find?_eq_some_iff (ht : t.Coherent) :
    t.find? s = some x ↔ x.index < t.size ∧ t.lookup x = s := by
  rw [ht s x, List.getElem?_eq_some_iff, size, lookup]
  constructor
  · rintro ⟨hlt, hs⟩
    exact ⟨hlt, (List.getD_eq_getElem _ _ hlt).trans hs⟩
  · rintro ⟨hlt, hs⟩
    exact ⟨hlt, (List.getD_eq_getElem _ _ hlt).symm.trans hs⟩

/-- No string stands twice in the list, as the map has one name for it. -/
theorem Coherent.nodup (ht : t.Coherent) : t.strings.Nodup := by
  refine List.nodup_iff_getElem?_ne_getElem?.2 fun i j hij hj heq => ?_
  have hgetj : t.strings[j]? = some t.strings[j] := List.getElem?_eq_getElem hj
  have hi := (ht _ ⟨i⟩).2 (heq.trans hgetj)
  have hj := (ht _ ⟨j⟩).2 hgetj
  cases hi.symm.trans hj
  exact Nat.lt_irrefl _ hij

/-- The map finds what a search in the list would find. -/
theorem Coherent.find?_eq_idxOf? (ht : t.Coherent) (s : String) :
    t.find? s = (t.strings.idxOf? s).map Name.mk := by
  cases hidx : t.strings.idxOf? s with
  | none => exact ht.find?_eq_none_iff.2 (List.idxOf?_eq_none_iff.1 hidx)
  | some i =>
    obtain ⟨hlt, hs, -⟩ := List.idxOf?_eq_some_iff.1 hidx
    exact (ht s ⟨i⟩).2 (List.getElem?_eq_some_iff.2 ⟨hlt, hs⟩)

theorem mem_strings_intern (ht : t.Coherent) {r : String} :
    r ∈ (t.intern s).2.strings ↔ r ∈ t.strings ∨ r = s := by
  rw [intern]
  split
  · next x hx =>
    have hs : s ∈ t.strings := List.mem_of_getElem? ((ht s x).1 hx)
    refine ⟨.inl, ?_⟩
    rintro (hr | rfl)
    · exact hr
    · exact hs
  · simp

/-! ### Many requests -/

/-- **The map and the list stay inverse to each other**, whatever the interner is asked for. -/
theorem Coherent.after (ht : t.Coherent) (rs : List Request) : (t.after rs).Coherent := by
  induction rs generalizing t with
  | nil => exact ht
  | cons r rs ih =>
    cases r with
    | intern s => exact ih (ht.intern s)
    | find | lookup => exact ih ht

/-- A name stands for the same string whatever is asked for later. -/
theorem lookup_after (hx : x.index < t.size) (rs : List Request) :
    x.index < (t.after rs).size ∧ (t.after rs).lookup x = t.lookup x := by
  induction rs generalizing t with
  | nil => exact ⟨hx, rfl⟩
  | cons r rs ih =>
    cases r with
    | intern s =>
      obtain ⟨hlt, heq⟩ := ih (Nat.lt_of_lt_of_le hx (t.size_le_intern s))
      exact ⟨hlt, heq.trans (t.lookup_intern_of_lt s hx)⟩
    | find | lookup => exact ih hx

theorem mem_strings_after (ht : t.Coherent) {rs : List Request} :
    s ∈ (t.after rs).strings ↔ s ∈ t.strings ∨ s ∈ rs.filterMap Request.interned? := by
  induction rs generalizing t with
  | nil => simp [after]
  | cons r rs ih =>
    cases r with
    | intern r => simp [after, next, ih (ht.intern r), mem_strings_intern ht, Request.interned?, or_assoc]
    | find | lookup => simp [after, next, ih ht, Request.interned?]

/-- A string that was interned is found under its name from then on. -/
theorem Coherent.find?_after_intern (ht : t.Coherent) (s : String) (later : List Request) :
    ((t.intern s).2.after later).find? s = some (t.intern s).1 := by
  obtain ⟨hlt, heq⟩ := lookup_after (ht.intern_lt s) later
  exact ((ht.intern s).after later).find?_eq_some_iff.2 ⟨hlt, heq.trans (ht.lookup_intern s)⟩

theorem intern_of_find? (h : t.find? s = some x) : t.intern s = (x, t) := by
  rw [intern, h]

theorem Coherent.index_intern_le (ht : t.Coherent) (s : String) : (t.intern s).1.index ≤ t.size := by
  rw [Interner.intern]
  split
  · next x hx => exact Nat.le_of_lt (ht.find?_eq_some_iff.1 hx).1
  · exact Nat.le_refl _

/-- An interner with just these strings is exact for them. -/
theorem Coherent.exact {strings : Finset String} (ht : t.Coherent)
    (hmem : ∀ s, s ∈ t.strings ↔ s ∈ strings) : t.Exact strings := by
  have hsize : t.size = strings.card := by
    rw [size, ← List.toFinset_card_of_nodup ht.nodup]
    exact congrArg Finset.card (Finset.ext fun s => List.mem_toFinset.trans (hmem s))
  refine ⟨ht, fun s later => ?_, fun s later r => ?_, ht.find?_after_intern, fun s => ?_, hsize,
    fun hcard s => ?_⟩
  · exact ((ht.intern s).after later).lookup_of_find? (ht.find?_after_intern s later)
  · have hfind := ht.find?_after_intern s later
    have hu := (ht.intern s).after later
    generalize (t.intern s).2.after later = u at hfind hu
    constructor
    · intro heq
      have hlt : (t.intern s).1.index < u.size := (hu.find?_eq_some_iff.1 hfind).1
      calc r = (u.intern r).2.lookup (u.intern r).1 := (hu.lookup_intern r).symm
        _ = u.lookup (t.intern s).1 := by rw [heq, u.lookup_intern_of_lt r hlt]
        _ = s := hu.lookup_of_find? hfind
    · rintro rfl
      rw [intern_of_find? hfind]
  · cases hfind : t.find? s with
    | none => rw [if_neg (mt (hmem s).2 (ht.find?_eq_none_iff.1 hfind))]
    | some x =>
      have hs : s ∈ strings := (hmem s).1 (List.mem_of_getElem? ((ht s x).1 hfind))
      rw [if_pos hs, intern_of_find? hfind]
  · exact Nat.lt_of_le_of_lt (ht.index_intern_le s) (hsize ▸ hcard)

/-- **An interner is exact for the strings that were interned**, whatever it was asked for. -/
theorem exact_after (rs : List Request) : (Interner.empty.after rs).Exact (Request.strings rs) := by
  refine (coherent_empty.after rs).exact fun s => ?_
  rw [mem_strings_after coherent_empty, Request.strings, Finset.mem_insert, List.mem_toFinset]
  exact or_congr_left List.mem_singleton

end Interner

/-- The names of a program have different strings. -/
theorem Program.Built.text_injective {R H : Type} {p : Program R H} (hp : p.Built) {x y : Name}
    (hx : p.HasName x) (hy : p.HasName y) (h : p.text x = p.text y) : x = y := by
  have hfind := hp.interner_coherent.find?_eq_some_iff.2 ⟨hx, h⟩
  exact Option.some.inj (hfind.symm.trans (hp.interner_coherent.find?_eq_some_iff.2 ⟨hy, rfl⟩))

end StagedGraph
