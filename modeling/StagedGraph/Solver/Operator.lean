import StagedGraph.Scalar

/-!
# Linear operators

A linear operator takes a vector of its dimension to a vector of its dimension. A dense
matrix keeps its entries row by row in one list; each entry of a product is the sum of the
products of a row with the vector, from the left.

A matrix without rows cannot be cut into rows of its dimension, and applying it aborts.

The number of entries of a tridiagonal matrix and their places are computed from its dimension in 64 bits,
where the square of a large dimension wraps around. A list of so few entries would be no matrix. But it
is never made: some row writes behind its end (`exists_row_outside`), which aborts.
-/

namespace StagedGraph

/-- An operator on vectors. Applied to a vector it may abort, but not if its dimension is
positive and the vector has that dimension. -/
structure LinearOperator (R : Type) where
  dim : Nat
  apply : List R → Option (List R)
  apply_some : ∀ x, 0 < dim → x.length = dim → ∃ y, apply x = some y ∧ y.length = dim

/-- A square matrix, its entries row by row. -/
structure DenseMatrix (R : Type) where
  dim : Nat
  entries : List R
  length_entries : entries.length = dim * dim

namespace DenseMatrix

variable {R : Type}

/-- The matrix with these rows, if there are as many rows as each row has entries. -/
def ofRows? (rows : List (List R)) : Option (DenseMatrix R) :=
  if h : ∀ row ∈ rows, row.length = rows.length then
    some ⟨rows.length, rows.flatten, by
      have key : ∀ (n : Nat) (l : List (List R)), (∀ row ∈ l, row.length = n) →
          l.flatten.length = l.length * n := by
        intro n l hl
        induction l with
        | nil => simp
        | cons r rs ih =>
          rw [List.flatten_cons, List.length_append, hl r (by simp),
            ih fun row hr => hl row (by simp [hr]), List.length_cons, Nat.succ_mul, Nat.add_comm]
      exact key rows.length rows h⟩
  else none

/-! ### Tridiagonal matrices -/

/-- A list of this many entries cannot be made: eight bytes an entry fill half of a 64-bit address
space. -/
def entryLimit : Nat := UInt64.size / 16

/-- Writes an entry of a list; there is no result if it has no such entry. -/
def write? (a : Array R) (k : UInt64) (v : R) : Option (Array R) :=
  if h : k.toNat < a.size then some (a.set k.toNat v) else none

/-- Writes row `i` of a tridiagonal matrix: the entry on the diagonal and, unless the row is
the last, the two entries that join it to the next row. Their places are numbers of 64 bits. -/
def writeRow? (dim : UInt64) (diag off : R) (a : Array R) (i : UInt64) : Option (Array R) := do
  let a ← write? a (i * dim + i) diag
  if i + 1 < dim then
    let a ← write? a (i * dim + i + 1) off
    write? a ((i + 1) * dim + i) off
  else some a

/-- Writes as many rows from row `i` on. -/
def writeRows? (dim : UInt64) (diag off : R) : Nat → UInt64 → Array R → Option (Array R)
  | 0, _, a => some a
  | count + 1, i, a => do
    let a ← writeRow? dim diag off a i
    writeRows? dim diag off count (i + 1) a

/-- The entries of a tridiagonal matrix: the diagonals are written into a list of zeros, whose length is
a number of 64 bits. -/
def diagonals? [Scalar R] (dim : UInt64) (diag off : R) : Option (Array R) :=
  let size := (dim * dim).toNat
  if entryLimit ≤ size then none
  else writeRows? dim diag off dim.toNat 0 (Array.replicate size Scalar.zero)

theorem size_write? {a b : Array R} {k : UInt64} {v : R} (h : write? a k v = some b) :
    b.size = a.size := by
  rw [write?] at h
  split at h
  · cases h
    exact Array.size_set _
  · cases h

theorem size_writeRow? {dim i : UInt64} {diag off : R} {a b : Array R}
    (h : writeRow? dim diag off a i = some b) : b.size = a.size := by
  obtain ⟨a₁, h₁, h⟩ := Option.bind_eq_some_iff.1 h
  split at h
  · obtain ⟨a₂, h₂, h₃⟩ := Option.bind_eq_some_iff.1 h
    rw [size_write? h₃, size_write? h₂, size_write? h₁]
  · cases h
    exact size_write? h₁

theorem size_writeRows? {dim i : UInt64} {diag off : R} {count : Nat} {a b : Array R}
    (h : writeRows? dim diag off count i a = some b) : b.size = a.size := by
  induction count generalizing i a with
  | zero =>
    cases h
    rfl
  | succ count ih =>
    obtain ⟨a₁, h₁, h⟩ := Option.bind_eq_some_iff.1 h
    rw [ih h, size_writeRow? h₁]

/-- A row that is not the last writes the entry below the diagonal. -/
theorem lt_size_of_writeRow? {dim i : UInt64} {diag off : R} {a b : Array R}
    (h : writeRow? dim diag off a i = some b) (hi : i + 1 < dim) :
    ((i + 1) * dim + i).toNat < a.size := by
  obtain ⟨a₁, h₁, h⟩ := Option.bind_eq_some_iff.1 h
  rw [if_pos hi] at h
  obtain ⟨a₂, h₂, h₃⟩ := Option.bind_eq_some_iff.1 h
  rw [write?] at h₃
  split at h₃
  · next hlt => rwa [size_write? h₂, size_write? h₁] at hlt
  · cases h₃

/-- If the loop ends, each of its rows was written. -/
theorem writeRow?_of_writeRows? {dim i : UInt64} {diag off : R} {count k : Nat} {a b : Array R}
    (h : writeRows? dim diag off count i a = some b) (hk : k < count) :
    ∃ a' b', a'.size = a.size ∧ writeRow? dim diag off a' (i + UInt64.ofNat k) = some b' := by
  induction count generalizing i a k with
  | zero => exact absurd hk (Nat.not_lt_zero k)
  | succ count ih =>
    obtain ⟨a₁, h₁, h⟩ := Option.bind_eq_some_iff.1 h
    cases k with
    | zero => exact ⟨a, a₁, rfl, by simpa using h₁⟩
    | succ k =>
      obtain ⟨a', b', hsize, hrow⟩ := ih h (Nat.lt_of_succ_lt_succ hk)
      refine ⟨a', b', hsize.trans (size_writeRow? h₁), ?_⟩
      rw [UInt64.ofNat_add, UInt64.add_comm (UInt64.ofNat k), ← UInt64.add_assoc]
      exact hrow

/-- A place is the one that is meant, if it is a number of 64 bits. -/
theorem toNat_place {dim i j : UInt64} (h : i.toNat * dim.toNat + j.toNat < UInt64.size) :
    (i * dim + j).toNat = i.toNat * dim.toNat + j.toNat := by
  rw [UInt64.toNat_add, UInt64.toNat_mul, Nat.mod_add_mod]
  exact Nat.mod_eq_of_lt h

/-- Where the square of a dimension has no place in 64 bits, some row writes behind the end of a list
that can be made. -/
theorem exists_row_outside {d size : Nat} (hd : d < UInt64.size) (hsize : size < entryLimit)
    (hbig : UInt64.size ≤ d * d) :
    ∃ k, k + 1 < d ∧ size ≤ (k + 1) * d + k ∧ (k + 1) * d + k < UInt64.size := by
  obtain ⟨k, r, hr, hrow⟩ : ∃ k r, r < d + 1 ∧ (d + 1) * k + r = size :=
    ⟨_, _, Nat.mod_lt size (Nat.succ_pos d), Nat.div_add_mod size (d + 1)⟩
  have hplace : (k + 1) * d + k = (d + 1) * k + d := by
    rw [Nat.succ_mul, Nat.succ_mul, Nat.mul_comm d k]
    omega
  rw [entryLimit, UInt64.size] at hsize
  rw [UInt64.size] at hd hbig ⊢
  refine ⟨k, Nat.lt_of_not_le fun hle => ?_, by omega, ?_⟩
  · have hsquare : d * (d + 1) ≤ (k + 1) * (d + 1) := Nat.mul_le_mul_right _ hle
    rw [Nat.mul_succ, Nat.mul_succ (k + 1)] at hsquare
    omega
  · cases k with
    | zero => simpa using hd
    | succ k =>
      rw [Nat.mul_succ] at hrow hplace
      omega

/-- **If the diagonals can be written, the square of the dimension has a place in 64 bits.** -/
theorem length_diagonals? [Scalar R] {dim : UInt64} {diag off : R} {a : Array R}
    (h : diagonals? dim diag off = some a) : a.toList.length = dim.toNat * dim.toNat := by
  rw [diagonals?] at h
  split at h
  · cases h
  · next hsize =>
    rw [Array.length_toList, size_writeRows? h, Array.size_replicate]
    rw [UInt64.toNat_mul] at hsize ⊢
    refine Nat.mod_eq_of_lt (Nat.lt_of_not_le fun hbig => ?_)
    obtain ⟨k, hk, hout, hlt⟩ :=
      exists_row_outside dim.toNat_lt (Nat.lt_of_not_le hsize) hbig
    obtain ⟨a', b', ha', hrow⟩ := writeRow?_of_writeRows? h (Nat.lt_of_succ_lt hk)
    have hnat : (0 + UInt64.ofNat k).toNat = k := by
      rw [UInt64.zero_add, UInt64.toNat_ofNat_of_lt' (Nat.lt_trans (Nat.lt_of_succ_lt hk) dim.toNat_lt)]
    have hsucc : (0 + UInt64.ofNat k + 1).toNat = k + 1 := by
      rw [UInt64.toNat_add, hnat]
      exact Nat.mod_eq_of_lt (Nat.lt_trans hk dim.toNat_lt)
    have hinside := lt_size_of_writeRow? hrow (UInt64.lt_iff_toNat_lt.2 (hsucc ▸ hk))
    rw [toNat_place (by rw [hsucc, hnat]; exact hlt), hsucc, hnat, ha', Array.size_replicate,
      UInt64.toNat_mul] at hinside
    exact Nat.not_lt.2 hout hinside

/-- The matrix with `diag` on the diagonal, `off` beside it and zero elsewhere; there is none if a write
falls outside of its entries. -/
def tridiagonal? [Scalar R] (dim : UInt64) (diag off : R) : Option (DenseMatrix R) :=
  (diagonals? dim diag off).pmap (fun a h => ⟨dim.toNat, a.toList, h⟩) fun _ => length_diagonals?

/-- The first `count` rows of `dim` entries each. -/
def cutRows (dim : Nat) : Nat → List R → List (List R)
  | 0, _ => []
  | count + 1, xs => xs.take dim :: cutRows dim count (xs.drop dim)

/-- The rows of a matrix. -/
def rows (m : DenseMatrix R) : List (List R) := cutRows m.dim m.dim m.entries

/-- Writes values over the front of a list, which keeps its length. -/
def overwrite : List R → List R → List R
  | v :: vs, _ :: out => v :: overwrite vs out
  | [], out => out
  | _ :: _, [] => []

theorem length_overwrite (vs out : List R) : (overwrite vs out).length = out.length := by
  induction vs generalizing out with
  | nil => cases out <;> rfl
  | cons v vs ih => cases out <;> simp [overwrite, ih]

/-- The product with `x`, written over `out`: an entry a row, as far as both reach. -/
def applyTo [Scalar R] (m : DenseMatrix R) (x out : List R) : Option (List R) :=
  if m.dim = 0 then none else some (overwrite (m.rows.map fun row => Scalar.dot row x) out)

/-- A matrix as an operator: the product written over a vector of zeros. -/
def toOperator [Scalar R] (m : DenseMatrix R) : LinearOperator R where
  dim := m.dim
  apply x := m.applyTo x (List.replicate m.dim Scalar.zero)
  apply_some x hdim _ :=
    ⟨overwrite (m.rows.map fun row => Scalar.dot row x) (List.replicate m.dim Scalar.zero),
      by rw [applyTo, if_neg (Nat.ne_of_gt hdim)],
      by rw [length_overwrite, List.length_replicate]⟩

/-- Two matrices of doubles are equal if their entries are equal as numbers. -/
def same [Scalar R] (m k : DenseMatrix R) : Bool :=
  m.dim == k.dim && (List.zipWith Scalar.equal m.entries k.entries).all id

end DenseMatrix

end StagedGraph
