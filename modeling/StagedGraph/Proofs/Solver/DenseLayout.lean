import Mathlib.Data.List.OfFn
import StagedGraph.Solver.Operator

/-!
# The layout of dense matrices

A dense matrix keeps its rows one behind the other. Cutting the list up gives the rows back
(`cutRows_flatten`, `flatten_cutRows`), so a matrix is what its rows make (`ofRows?_rows`), and a product
has one entry for each of them.

A tridiagonal matrix is not made of rows: a loop writes its diagonals into a list of zeros, at places
that are numbers of 64 bits. As long as the square of the dimension is one, the places are those that
are meant, and the entries exist (`writeRow?_eq`). Then what carries the proof is that entry `(i, j)` has
the place `i * dim + j` and shares it with no other (`place_inj`): after the first `n` steps of the loop
the list holds the diagonals as far as row `n` (`getElem?_foldl_writeRow`).
-/

namespace StagedGraph

namespace Scalar

variable {R : Type} [Scalar R]

/-- The sum of products, entry by entry from the left. -/
theorem dot_eq_foldl_range {xs ys : List R} {n : Nat} (hx : xs.length = n) (hy : ys.length = n) (d : R) :
    dot xs ys =
      (List.range n).foldl (fun acc j => acc + xs.getD j d * ys.getD j d) sumStart := by
  have hzip : List.zipWith (· * ·) xs ys =
      (List.range n).map fun j => xs.getD j d * ys.getD j d := by
    refine List.ext_getElem (by simp [hx, hy]) fun j hj hj' => ?_
    have hjn : j < n := by simpa using hj'
    simp [hx, hy, hjn]
  rw [dot, sum, hzip, List.foldl_map]

end Scalar

namespace DenseMatrix

variable {R : Type} {dim i j p q : Nat}

/-! ### Places of entries -/

theorem place_lt (hi : i < dim) (hj : j < dim) : i * dim + j < dim * dim :=
  calc i * dim + j < i * dim + dim := Nat.add_lt_add_left hj _
    _ = (i + 1) * dim := (Nat.succ_mul i dim).symm
    _ ≤ dim * dim := Nat.mul_le_mul_right dim hi

/-- Entries at the same place are the same entry. -/
theorem place_inj (hj : j < dim) (hq : q < dim) : i * dim + j = p * dim + q ↔ i = p ∧ j = q := by
  refine ⟨fun h => ?_, fun ⟨hip, hjq⟩ => by rw [hip, hjq]⟩
  have hdim : 0 < dim := Nat.zero_lt_of_lt hj
  have hrow : i = p := by
    have hdiv := congrArg (· / dim) h
    simpa [Nat.mul_comm _ dim, Nat.mul_add_div hdim, Nat.div_eq_of_lt, hj, hq] using hdiv
  subst hrow
  exact ⟨rfl, Nat.add_left_cancel h⟩

/-! ### Rows -/

/-- As many rows as each row has entries. -/
def Square (rows : List (List R)) : Prop := ∀ row ∈ rows, row.length = rows.length

theorem ofRows?_eq_some_iff {rows : List (List R)} {m : DenseMatrix R} :
    ofRows? rows = some m ↔ Square rows ∧ m.dim = rows.length ∧ m.entries = rows.flatten := by
  obtain ⟨dim, entries, hentries⟩ := m
  rw [ofRows?]
  split
  · next h =>
    have hsquare : Square rows := h
    simp [hsquare, eq_comm (b := dim), eq_comm (b := entries)]
  · next h =>
    have hsquare : ¬ Square rows := h
    simp [hsquare]

theorem ofRows?_eq_none_iff {rows : List (List R)} : ofRows? rows = none ↔ ¬ Square rows := by
  rw [ofRows?, dite_eq_right_iff, Square]
  simp

theorem length_cutRows (dim count : Nat) (xs : List R) : (cutRows dim count xs).length = count := by
  induction count generalizing xs with
  | zero => rfl
  | succ count ih => rw [cutRows, List.length_cons, ih]

theorem getElem?_cutRows {count : Nat} (hi : i < count) (xs : List R) :
    (cutRows dim count xs)[i]? = some ((xs.drop (i * dim)).take dim) := by
  induction count generalizing xs i with
  | zero => exact absurd hi (Nat.not_lt_zero i)
  | succ count ih =>
    rw [cutRows]
    cases i with
    | zero => simp
    | succ i =>
      rw [List.getElem?_cons_succ, ih (by omega), List.drop_drop, Nat.succ_mul, Nat.add_comm]

theorem flatten_cutRows {count : Nat} {xs : List R} (h : xs.length = count * dim) :
    (cutRows dim count xs).flatten = xs := by
  induction count generalizing xs with
  | zero => simpa [cutRows] using h
  | succ count ih =>
    rw [Nat.succ_mul] at h
    rw [cutRows, List.flatten_cons, ih (by simp; omega), List.take_append_drop]

theorem cutRows_flatten {rows : List (List R)} (h : ∀ row ∈ rows, row.length = dim) :
    cutRows dim rows.length rows.flatten = rows := by
  induction rows with
  | nil => rfl
  | cons row rows ih =>
    obtain ⟨hrow, hrows⟩ := List.forall_mem_cons.1 h
    rw [List.length_cons, cutRows, List.flatten_cons, List.take_left' hrow, List.drop_left' hrow,
      ih hrows]

theorem length_of_mem_rows (m : DenseMatrix R) {row : List R} (h : row ∈ m.rows) :
    row.length = m.dim := by
  obtain ⟨i, hi⟩ := List.mem_iff_getElem?.1 h
  have hlt : i < m.dim := by
    simpa [rows, length_cutRows] using (List.getElem?_eq_some_iff.1 hi).1
  have hend : (i + 1) * m.dim ≤ m.dim * m.dim := Nat.mul_le_mul_right _ hlt
  rw [rows, getElem?_cutRows hlt, Option.some.injEq] at hi
  rw [← hi, List.length_take, List.length_drop, m.length_entries]
  rw [Nat.succ_mul] at hend
  omega

/-- **A matrix is what its rows make.** -/
theorem ofRows?_rows (m : DenseMatrix R) : ofRows? m.rows = some m := by
  have hlength : m.rows.length = m.dim := length_cutRows _ _ _
  refine ofRows?_eq_some_iff.2 ⟨fun row hrow => ?_, hlength.symm, (flatten_cutRows m.length_entries).symm⟩
  rw [hlength, m.length_of_mem_rows hrow]

theorem rows_eq {rows : List (List R)} {m : DenseMatrix R} (h : ofRows? rows = some m) :
    m.rows = rows := by
  obtain ⟨hsquare, hdim, hentries⟩ := ofRows?_eq_some_iff.1 h
  rw [DenseMatrix.rows, hdim, hentries, cutRows_flatten hsquare]

/-! ### Products -/

theorem overwrite_of_length {vs out : List R} (h : vs.length = out.length) : overwrite vs out = vs := by
  induction vs generalizing out with
  | nil => cases out with
    | nil => rfl
    | cons x out => cases h
  | cons v vs ih => cases out with
    | nil => cases h
    | cons x out => rw [overwrite, ih (Nat.succ.inj h)]

/-- A product has an entry for each row, whatever it is written over. -/
theorem applyTo_eq [Scalar R] {rows : List (List R)} {m : DenseMatrix R} (h : ofRows? rows = some m)
    (hne : rows ≠ []) (x : List R) {out : List R} (hout : out.length = rows.length) :
    m.applyTo x out = some (rows.map fun row => Scalar.dot row x) := by
  obtain ⟨-, hdim, -⟩ := ofRows?_eq_some_iff.1 h
  have hpos : m.dim ≠ 0 := by rwa [hdim, Ne, List.length_eq_zero_iff]
  rw [applyTo, if_neg hpos, rows_eq h, overwrite_of_length (by rw [List.length_map, hout])]

/-! ### The loop that writes the diagonals -/

section Tridiagonal

variable {diag off : R} {a : Array R}

/-- Writes row `i` of a tridiagonal matrix at the places that are meant. -/
def writeRow (dim : Nat) (diag off : R) (a : Array R) (i : Nat) : Array R :=
  let a := a.setIfInBounds (i * dim + i) diag
  if i + 1 < dim then
    (a.setIfInBounds (i * dim + i + 1) off).setIfInBounds ((i + 1) * dim + i) off
  else a

theorem size_writeRow (dim : Nat) (diag off : R) (a : Array R) (i : Nat) :
    (writeRow dim diag off a i).size = a.size := by
  unfold writeRow
  split <;> simp

theorem size_foldl_writeRow (dim : Nat) (diag off : R) (is : List Nat) (a : Array R) :
    (is.foldl (writeRow dim diag off) a).size = a.size := by
  induction is generalizing a with
  | nil => rfl
  | cons i is ih => rw [List.foldl_cons, ih, size_writeRow]

theorem write?_of_lt {k : UInt64} (h : k.toNat < a.size) (v : R) :
    write? a k v = some (a.setIfInBounds k.toNat v) := by
  rw [write?, dif_pos h, Array.setIfInBounds, dif_pos h]

section Words

variable {dim : UInt64} (hdim : dim.toNat * dim.toNat < UInt64.size)
include hdim

/-- As long as the square of the dimension has a place in 64 bits, the three entries that a row writes
exist, and are those that are meant. -/
theorem writeRow?_eq (hi : i < dim.toNat) (ha : a.size = dim.toNat * dim.toNat) :
    writeRow? dim diag off a (UInt64.ofNat i) = some (writeRow dim.toNat diag off a i) := by
  have hnat {k : Nat} (hk : k < dim.toNat) : (UInt64.ofNat k).toNat = k :=
    UInt64.toNat_ofNat_of_lt' (Nat.lt_trans hk dim.toNat_lt)
  have hplace {k l : Nat} (hk : k < dim.toNat) (hl : l < dim.toNat) :
      (UInt64.ofNat k * dim + UInt64.ofNat l).toNat = k * dim.toNat + l := by
    have hfits := Nat.lt_trans (place_lt hk hl) hdim
    rw [toNat_place (by rwa [hnat hk, hnat hl]), hnat hk, hnat hl]
  have hdiag : i * dim.toNat + i < a.size := ha ▸ place_lt hi hi
  have hsucc : UInt64.ofNat i + 1 = UInt64.ofNat (i + 1) := (UInt64.ofNat_add i 1).symm
  rw [writeRow?, writeRow, write?_of_lt (by rwa [hplace hi hi]), hplace hi hi]
  simp only [Option.bind_eq_bind, Option.bind_some]
  by_cases hnext : i + 1 < dim.toNat
  · have hright : i * dim.toNat + (i + 1) < a.size := ha ▸ place_lt hi hnext
    have hbelow : (i + 1) * dim.toNat + i < a.size := ha ▸ place_lt hnext hi
    have hword : UInt64.ofNat i + 1 < dim := by
      rw [hsucc, UInt64.lt_iff_toNat_lt, hnat hnext]
      exact hnext
    rw [if_pos hword, if_pos hnext, UInt64.add_assoc, hsucc,
      write?_of_lt (by rw [hplace hi hnext]; simpa using hright), Option.bind_some,
      write?_of_lt (by rw [hplace hnext hi]; simpa using hbelow), hplace hi hnext, hplace hnext hi]
    rfl
  · have hword : ¬ UInt64.ofNat i + 1 < dim := by
      rw [UInt64.lt_iff_toNat_lt, UInt64.toNat_add, hnat hi, UInt64.toNat_one,
        Nat.mod_eq_of_lt (Nat.lt_of_le_of_lt hi dim.toNat_lt)]
      exact hnext
    rw [if_neg hword, if_neg hnext]

theorem writeRows?_eq {count : Nat} (hi : i + count ≤ dim.toNat) (ha : a.size = dim.toNat * dim.toNat) :
    writeRows? dim diag off count (UInt64.ofNat i) a =
      some ((List.range' i count).foldl (writeRow dim.toNat diag off) a) := by
  induction count generalizing i a with
  | zero => rfl
  | succ count ih =>
    rw [writeRows?, writeRow?_eq hdim (by omega) ha, Option.bind_eq_bind, Option.bind_some,
      List.range'_succ, List.foldl_cons, ← ih (by omega) (by rw [size_writeRow, ha]), UInt64.ofNat_add]
    rfl

end Words

/-- Row `i` writes the entry on the diagonal, the one to its right and the one below it. -/
theorem getElem?_writeRow (hi : i < dim) (ha : a.size = dim * dim) (hp : p < dim) (hq : q < dim) :
    (writeRow dim diag off a i)[p * dim + q]? =
      if i = p ∧ i = q then some diag
      else if i = p ∧ i + 1 = q ∨ i + 1 = p ∧ i = q then some off
      else a[p * dim + q]? := by
  have hdiag : i * dim + i < a.size := ha ▸ place_lt hi hi
  rw [writeRow]
  by_cases hnext : i + 1 < dim
  · have hright : i * dim + (i + 1) < a.size := ha ▸ place_lt hi hnext
    have hbelow : (i + 1) * dim + i < a.size := ha ▸ place_lt hnext hi
    rw [if_pos hnext, Nat.add_assoc]
    simp only [Array.getElem?_setIfInBounds, Array.size_setIfInBounds, place_inj hi hq,
      place_inj hnext hq, hdiag, hright, hbelow, if_true]
    -- no two of the three entries are the same
    split_ifs <;> first | rfl | omega
  · have hout : ¬ (i = p ∧ i + 1 = q ∨ i + 1 = p ∧ i = q) := by omega
    rw [if_neg hnext, if_neg hout]
    simp only [Array.getElem?_setIfInBounds, place_inj hi hq, hdiag, if_true]

variable [Scalar R]

/-- Entry `(i, j)` of a tridiagonal matrix. -/
def band (diag off : R) (i j : Nat) : R :=
  if i = j then diag else if i + 1 = j ∨ j + 1 = i then off else Scalar.zero

/-- After `n` rows, the diagonals reach as far as row `n`. -/
theorem getElem?_foldl_writeRow {n : Nat} (hn : n ≤ dim) (hp : p < dim) (hq : q < dim) :
    ((List.range n).foldl (writeRow dim diag off) (Array.replicate (dim * dim) Scalar.zero))[p * dim + q]? =
      some (if p < n ∨ q < n then band diag off p q else Scalar.zero) := by
  induction n with
  | zero => simp [place_lt hp hq]
  | succ n ih =>
    rw [List.range_succ, List.foldl_append, List.foldl_cons, List.foldl_nil,
      getElem?_writeRow hn (by rw [size_foldl_writeRow, Array.size_replicate]) hp hq,
      ih (Nat.le_of_succ_le hn)]
    simp only [band]
    split_ifs <;> first | rfl | omega

theorem tridiagonal?_of_diagonals? {dim : UInt64} (h : diagonals? dim diag off = some a) :
    tridiagonal? dim diag off = some ⟨dim.toNat, a.toList, length_diagonals? h⟩ := by
  rw [tridiagonal?, Option.pmap_eq_some_iff]
  exact ⟨a, length_diagonals? h, h, rfl⟩

theorem size_lt_of_diagonals? {dim : UInt64} (h : diagonals? dim diag off = some a) :
    a.size < entryLimit := by
  rw [diagonals?] at h
  split at h
  · cases h
  · next hsize =>
    rw [size_writeRows? h, Array.size_replicate]
    exact Nat.lt_of_not_le hsize

/-- **The rows of a tridiagonal matrix.** As long as its entries can be kept, no write of the loop falls
outside of them. -/
theorem rows_tridiagonal? {dim : UInt64} (hdim : dim.toNat * dim.toNat < entryLimit) (diag off : R) :
    ∃ m, tridiagonal? dim diag off = some m ∧
      m.rows = List.ofFn fun i : Fin dim.toNat => List.ofFn fun j : Fin dim.toNat => band diag off i j := by
  have hfits : dim.toNat * dim.toNat < UInt64.size :=
    Nat.lt_trans hdim (Nat.div_lt_self (by decide) (by decide))
  have hsize : (dim * dim).toNat = dim.toNat * dim.toNat :=
    (UInt64.toNat_mul _ _).trans (Nat.mod_eq_of_lt hfits)
  have hentries : diagonals? dim diag off =
      some ((List.range dim.toNat).foldl (writeRow dim.toNat diag off)
        (Array.replicate (dim.toNat * dim.toNat) Scalar.zero)) := by
    rw [diagonals?, hsize, if_neg (Nat.not_le.2 hdim), List.range_eq_range']
    exact writeRows?_eq (i := 0) hfits (Nat.le_of_eq (Nat.zero_add _)) Array.size_replicate
  refine ⟨_, tridiagonal?_of_diagonals? hentries, List.ext_getElem? fun i => ?_⟩
  by_cases hi : i < dim.toNat
  · rw [rows, getElem?_cutRows hi, List.getElem?_ofFn, dif_pos hi, Option.some.injEq]
    refine List.ext_getElem? fun j => ?_
    by_cases hj : j < dim.toNat
    · rw [List.getElem?_take_of_lt hj, List.getElem?_drop, List.getElem?_ofFn, dif_pos hj,
        Array.getElem?_toList]
      exact (getElem?_foldl_writeRow (Nat.le_refl _) hi hj).trans (by rw [if_pos (.inl hi)])
    · rw [List.getElem?_ofFn, dif_neg hj]
      exact List.getElem?_take_eq_none (Nat.le_of_not_lt hj)
  · rw [List.getElem?_ofFn, dif_neg hi, List.getElem?_eq_none]
    rw [rows, length_cutRows]
    exact Nat.le_of_not_lt hi

/-- A tridiagonal matrix whose entries cannot be kept is not made: where the number of entries wraps
around, a write of the loop falls outside. -/
theorem tridiagonal?_eq_none {dim : UInt64} (hdim : entryLimit ≤ dim.toNat * dim.toNat) (diag off : R) :
    tridiagonal? dim diag off = none := by
  cases hentries : diagonals? dim diag off with
  | none => rw [tridiagonal?, Option.pmap_eq_none_iff, hentries]
  | some a =>
    have hlength := length_diagonals? hentries
    have hlt := size_lt_of_diagonals? hentries
    rw [Array.length_toList] at hlength
    exact absurd (hlength ▸ hlt) (Nat.not_lt.2 hdim)

end Tridiagonal

/-! ### Matrices of doubles -/

/-- **The layout of matrices of doubles.** A tridiagonal matrix whose entries can be kept is made without
a write to an entry that does not exist, and it is the matrix of the rows that hold `diag` on the
diagonal, `off` beside it and zero elsewhere; no other tridiagonal matrix is made. Rows make a matrix
exactly when they are square. If there are any, the product with a vector has the sum of the products of
row `i` with the vector, from the left, in slot `i` of what it is written over, and no other slots; a
product with no rows aborts. -/
theorem doubles_layout (dim : UInt64) (diag off : Float) (rows : List (List Float)) :
    ((dim.toNat * dim.toNat < entryLimit → ∃ m, tridiagonal? dim diag off = some m ∧
        ofRows? (List.ofFn fun i : Fin dim.toNat => List.ofFn fun j : Fin dim.toNat =>
          if i.val = j.val then diag else if i.val + 1 = j.val ∨ j.val + 1 = i.val then off else 0.0) =
            some m) ∧
      (entryLimit ≤ dim.toNat * dim.toNat → tridiagonal? dim diag off = none)) ∧
      (Square rows → ∃ m, ofRows? rows = some m ∧ m.dim = rows.length ∧
        ∀ x out : List Float, x.length = rows.length → out.length = rows.length →
          (rows = [] → m.applyTo x out = none) ∧
          (rows ≠ [] → ∃ y, m.applyTo x out = some y ∧ y.length = out.length ∧
            ∀ i, i < rows.length → y[i]? = some ((List.range rows.length).foldl
              (fun acc j => acc + (rows.getD i []).getD j 0.0 * x.getD j 0.0) (-0.0)))) ∧
      (¬ Square rows → ofRows? rows = none) := by
  refine ⟨⟨fun hdim => ?_, fun hdim => tridiagonal?_eq_none hdim diag off⟩, fun hsquare => ?_,
    ofRows?_eq_none_iff.2⟩
  · obtain ⟨m, hm, hrows⟩ := rows_tridiagonal? hdim diag off
    exact ⟨m, hm, (congrArg ofRows? hrows.symm).trans (ofRows?_rows m)⟩
  · obtain ⟨m, hm⟩ := Option.ne_none_iff_exists'.1 (mt ofRows?_eq_none_iff.1 (not_not.2 hsquare))
    have hdim : m.dim = rows.length := (ofRows?_eq_some_iff.1 hm).2.1
    refine ⟨m, hm, hdim, fun x out hx hout => ⟨fun hnil => ?_, fun hne => ?_⟩⟩
    · rw [applyTo, if_pos (by rw [hdim, hnil]; rfl)]
    · refine ⟨_, applyTo_eq hm hne x hout, by rw [List.length_map, hout], fun i hi => ?_⟩
      have hrow : rows[i].length = rows.length := hsquare _ (List.getElem_mem hi)
      rw [List.getElem?_map, List.getElem?_eq_getElem hi, Option.map_some,
        Scalar.dot_eq_foldl_range hrow hx 0.0, List.getD_eq_getElem?_getD, List.getElem?_eq_getElem hi]
      rfl

/-- A tridiagonal matrix of three rows is made of them; the product of two rows is written over both
slots; and rows of different lengths make no matrix. -/
theorem doubles_layout_threeMatrices :
    (∃ m, tridiagonal? 3 4.0 (-1.0) = some m ∧
      ofRows? [[4.0, -1.0, 0.0], [-1.0, 4.0, -1.0], [0.0, -1.0, (4.0 : Float)]] = some m) ∧
      (∃ m, ofRows? [[2.0, 1.0], [1.0, 3.0]] = some m ∧
        m.applyTo [1.0, 2.0] [9.0, 9.0] = some [(4.0 : Float), 7.0]) ∧
      ofRows? [[(1.0 : Float), 2.0], [3.0]] = none := by
  have hsquare : Square [[(2.0 : Float), 1.0], [1.0, 3.0]] := by simp [Square]
  have hragged : ¬ Square [[(1.0 : Float), 2.0], [3.0]] := by simp [Square]
  obtain ⟨⟨hbanded, -⟩, hproduct, -⟩ := doubles_layout 3 4.0 (-1.0) [[2.0, 1.0], [1.0, 3.0]]
  obtain ⟨m, hm, -, hproduct⟩ := hproduct hsquare
  obtain ⟨y, hy, hlength, hslots⟩ := (hproduct [1.0, 2.0] [9.0, 9.0] rfl rfl).2 (by simp)
  refine ⟨hbanded (by decide), ⟨m, hm, hy.trans (congrArg some (List.ext_getElem? fun i => ?_))⟩,
    (doubles_layout 3 4.0 (-1.0) _).2.2 hragged⟩
  match i with
  | 0 => exact hslots 0 (by simp)
  | 1 => exact hslots 1 (by simp)
  | i + 2 => rw [List.getElem?_eq_none (by simp [hlength])]; rfl

/-- No rows make a matrix of dimension zero, and its product with the empty vector aborts. A tridiagonal
matrix of a dimension with a square that wraps around to zero is not made, as its first entry has no
place. -/
theorem noRows_and_wrappedSquare_abort :
    (Square ([] : List (List Float)) ∧ ∃ m : DenseMatrix Float, ofRows? [] = some m ∧ m.dim = 0 ∧
      m.applyTo [] [] = none) ∧
      (4294967296 * 4294967296 : UInt64) = 0 ∧
      tridiagonal? 4294967296 (4.0 : Float) (-1.0) = none :=
  ⟨⟨by simp [Square], _, rfl, rfl, rfl⟩, by decide, tridiagonal?_eq_none (by decide) _ _⟩

end DenseMatrix

end StagedGraph
