/-!
# Scalars

The numbers that programs compute with. Everything that runs a program is generic in its
scalars: it uses the operations of `Scalar` and no law about them, so that a program run on
doubles and the same program read over the rationals are one definition.
-/

namespace StagedGraph

/-- A type of numbers for programs to compute with. -/
class Scalar (R : Type) extends Add R, Sub R, Mul R, Div R, Neg R where
  /-- The number nearest to an integer. -/
  ofInt64 : Int64 → R
  /-- The number that a sum starts from. -/
  sumStart : R
  /-- The order of two numbers; `none` if they have none. -/
  compare? : R → R → Option Ordering

namespace Scalar

variable {R : Type} [Scalar R]

/-- The number zero. -/
def zero : R := ofInt64 0

/-- Two numbers are equal if the order says so; a number without an order to itself is not
equal to itself. -/
def equal (x y : R) : Bool := compare? x y == some .eq

/-- Equality with zero. -/
def isZero (x : R) : Bool := equal x (zero : R)

/-- The sum of a list from the left, starting at `sumStart`. -/
def sum (xs : List R) : R := xs.foldl (· + ·) sumStart

/-- The products of the entries of two lists, summed from the left. -/
def dot (xs ys : List R) : R := sum (List.zipWith (· * ·) xs ys)

end Scalar

/-- Doubles: a sum starts at negative zero, the neutral element of their addition, and a
NaN has no order. -/
instance : Scalar Float where
  ofInt64 n := Float.ofInt n.toInt
  sumStart := -0.0
  compare? x y := if x < y then some .lt else if x == y then some .eq else if y < x then some .gt else none

end StagedGraph
