import StagedGraph.Scalar
import StagedGraph.Heap
import StagedGraph.Decimal.Layout

/-!
# Values

What the variables of a program hold: nothing, a truth value, a 64-bit integer, a number
or a buffer. A buffer value holds an identity, so that copies of it share their contents.
-/

namespace StagedGraph

/-- A value of a running program. -/
inductive Value (R : Type) where
  | void
  | bool (b : Bool)
  | int (n : Int64)
  | float (x : R)
  | buffer (b : BufferId)
deriving Repr, DecidableEq

instance (R : Type) : Inhabited (Value R) := ⟨.void⟩

namespace Value

variable {R : Type}

/-- The name of a value's kind, as messages write it. -/
def kind : Value R → String
  | void => "void"
  | bool _ => "bool"
  | int _ => "int"
  | float _ => "float"
  | buffer _ => "buffer"

/-- A truth value counts as one or zero; neither `void` nor a buffer is a number. -/
def toScalar? [Scalar R] : Value R → Option R
  | int n => some (Scalar.ofInt64 n)
  | float x => some x
  | bool b => some (Scalar.ofInt64 (if b then 1 else 0))
  | void => none
  | buffer _ => none

/-- Only an integer value is an integer. -/
def toInt64? : Value R → Option Int64
  | int n => some n
  | _ => none

/-- The buffer that a value names. -/
def toBuffer? : Value R → Option BufferId
  | buffer b => some b
  | _ => none

/-- Whether a value is `void`. -/
def isVoid : Value R → Bool
  | void => true
  | _ => false

/-- Equality of values: of the same kind, numbers as numbers, buffers by identity. -/
def same [Scalar R] : Value R → Value R → Bool
  | void, void => true
  | bool a, bool b => a == b
  | int a, int b => a == b
  | float x, float y => Scalar.equal x y
  | buffer a, buffer b => a == b
  | _, _ => false

/-- The text of a value. A buffer shows its length only. -/
def text (h : Heap Float) : Value Float → String
  | void => "void"
  | bool b => if b then "true" else "false"
  | int n => toString n.toInt
  | float x => Layout.plain.float x
  | buffer b => "<buffer of " ++ toString (h.length b) ++ ">"

/-- The text of a value under the name of its kind, as it stands in a dump of a literal. -/
def dump (h : Heap Float) : Value Float → String
  | void => "Void"
  | bool b => "Bool(" ++ (if b then "true" else "false") ++ ")"
  | int n => "Int(" ++ toString n.toInt ++ ")"
  | float x => "Float(" ++ Layout.plain.float x ++ ")"
  | buffer b => "Buffer(len=" ++ toString (h.length b) ++ ")"

end Value

/-- The text of a vector: its entries with a point or an exponent each, in brackets. -/
def vectorText (xs : List Float) : String :=
  "[" ++ String.intercalate ", " (xs.map Layout.pointed.float) ++ "]"

/-- The text of a buffer with its contents. -/
def Heap.dump (h : Heap Float) (b : BufferId) : String :=
  "Buffer(" ++ vectorText (h.read b) ++ ")"

end StagedGraph
