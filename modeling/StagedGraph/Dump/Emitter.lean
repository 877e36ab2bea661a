/-!
# Emitting text

An emitter collects text and only ever adds to its end, except that it can go back to an
earlier length. Lengths are counted in bytes of UTF-8, so a length may fall inside a
character; then there is nothing to go back to.
-/

namespace StagedGraph

/-- The text emitted so far. -/
structure Emitter where
  text : String
deriving DecidableEq, Repr

namespace Emitter

/-- The emitter that has emitted nothing. -/
def empty : Emitter := ⟨""⟩

/-- Adds a text. -/
def emit (e : Emitter) (s : String) : Emitter := ⟨e.text ++ s⟩

/-- Adds a line end. -/
def newline (e : Emitter) : Emitter := e.emit "\n"

/-- Adds spaces. -/
def indent (e : Emitter) (spaces : Nat) : Emitter := e.emit (String.ofList (List.replicate spaces ' '))

/-- The length of the text in bytes. -/
def mark (e : Emitter) : Nat := e.text.utf8ByteSize

/-- The characters that fill the first `n` bytes, put behind those in `kept`, which are in
reverse; all of them if there are fewer bytes, and `none` if the cut falls inside a
character. -/
def cut (kept : List Char) : Nat → List Char → Option (List Char)
  | _, [] => some kept.reverse
  | n, c :: cs =>
    if n = 0 then some kept.reverse
    else if c.utf8Size ≤ n then cut (c :: kept) (n - c.utf8Size) cs
    else none

/-- Goes back to a length of `n` bytes. -/
def rewind (e : Emitter) (n : Nat) : Option Emitter :=
  (cut [] n e.text.toList).map fun cs => ⟨String.ofList cs⟩

/-- The bytes that characters fill. -/
def byteSize : List Char → Nat
  | [] => 0
  | c :: cs => c.utf8Size + byteSize cs

theorem utf8ByteSize_eq (s : String) : s.utf8ByteSize = byteSize s.toList := by
  have key : ∀ cs : List Char, (String.ofList cs).utf8ByteSize = byteSize cs := by
    intro cs
    induction cs with
    | nil => rfl
    | cons c cs ih =>
      rw [String.ofList_cons, String.utf8ByteSize_append, String.utf8ByteSize_singleton, ih]
      rfl
  rw [← key, String.ofList_toList]

theorem cut_append (kept xs ys : List Char) :
    cut kept (byteSize xs) (xs ++ ys) = some (kept.reverse ++ xs) := by
  induction xs generalizing kept with
  | nil => cases ys <;> simp [cut, byteSize]
  | cons c cs ih =>
    have hpos := c.utf8Size_pos
    rw [List.cons_append, cut, byteSize, if_neg (by omega), if_pos (by omega),
      Nat.add_sub_cancel_left, ih]
    simp

/-- Going back to a mark undoes what was emitted after it. -/
theorem rewind_emit (e : Emitter) (s : String) : (e.emit s).rewind e.mark = some e := by
  simp only [rewind, emit, mark, String.toList_append, utf8ByteSize_eq, cut_append]
  simp

end Emitter

end StagedGraph
