/-!
# Buffers

A buffer is a mutable list of numbers with an identity. A `Heap` holds the contents of all
buffers; whoever holds a `BufferId` shares the buffer with everybody else who holds it.
-/

namespace StagedGraph

/-- The identity of a buffer. -/
structure BufferId where
  index : Nat
deriving DecidableEq, Repr, Inhabited

/-- The contents of all buffers, by identity. -/
structure Heap (R : Type) where
  contents : Array (List R)
deriving DecidableEq

namespace Heap

variable {R : Type}

/-- The heap without buffers. -/
def empty : Heap R := ⟨#[]⟩

/-- The contents of a buffer; an identity that was never allocated has none. -/
def read (h : Heap R) (b : BufferId) : List R := h.contents.getD b.index []

/-- The number of entries of a buffer. -/
def length (h : Heap R) (b : BufferId) : Nat := (h.read b).length

/-- Replaces the contents of a buffer; its length may change. -/
def write (h : Heap R) (b : BufferId) (xs : List R) : Heap R :=
  ⟨h.contents.setIfInBounds b.index xs⟩

/-- A new buffer with these contents. -/
def alloc (h : Heap R) (xs : List R) : BufferId × Heap R :=
  (⟨h.contents.size⟩, ⟨h.contents.push xs⟩)

/-- The heap whose buffers are numbered from zero in the order of the list. -/
def ofList (buffers : List (List R)) : Heap R := ⟨buffers.toArray⟩

/-- Whether a buffer was allocated in this heap. -/
def Allocated (h : Heap R) (b : BufferId) : Prop := b.index < h.contents.size

instance (h : Heap R) (b : BufferId) : Decidable (h.Allocated b) :=
  inferInstanceAs (Decidable (b.index < h.contents.size))

theorem read_write_self (h : Heap R) (b : BufferId) (xs : List R) (hb : h.Allocated b) :
    (h.write b xs).read b = xs := by
  have hb' : b.index < h.contents.size := hb
  simp [read, write, Array.getD, hb']

theorem read_write_of_ne (h : Heap R) {b c : BufferId} (xs : List R) (hne : b ≠ c) :
    (h.write b xs).read c = h.read c := by
  have hi : b.index ≠ c.index := fun e => hne (by cases b; cases c; simp_all)
  simp only [read, write, Array.getD_eq_getD_getElem?]
  rw [Array.getElem?_setIfInBounds_ne hi]

theorem read_alloc_self (h : Heap R) (xs : List R) : (h.alloc xs).2.read (h.alloc xs).1 = xs := by
  simp [read, alloc, Array.getD]

end Heap

end StagedGraph
