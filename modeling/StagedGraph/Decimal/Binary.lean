/-!
# Doubles in binary

The pattern of a double is a sign in one bit, an exponent in eleven and a fraction in 52.
A finite double is `significand * 2 ^ exponent`, up to its sign.
-/

namespace StagedGraph

/-- A finite non-negative double, `significand * 2 ^ exponent`. -/
structure Binary where
  significand : Nat
  exponent : Int
  /-- The next smaller double is half as far away as the next larger one. -/
  narrowBelow : Bool
deriving DecidableEq, Repr

namespace Binary

/-- The number of fractions: so many doubles share a sign and an exponent. -/
def fractions : Nat := Nat.pow 2 52

/-- The number of exponents. The greatest of them is that of the infinities and the NaNs. -/
def exponents : Nat := 2048

/-- Whether the sign bit is set. -/
def isNegative (b : UInt64) : Bool := exponents * fractions ≤ b.toNat

/-- The exponent of a pattern. -/
def exponentField (b : UInt64) : Nat := b.toNat / fractions % exponents

/-- The fraction of a pattern. -/
def fractionField (b : UInt64) : Nat := b.toNat % fractions

/-- The pattern of positive infinity, which is greater than that of every finite double
without a sign. -/
def infinityBits : Nat := (exponents - 1) * fractions

/-- The magnitude that the pattern of a finite double stands for. -/
def ofBits (b : UInt64) : Binary :=
  let fraction := fractionField b
  match exponentField b with
  | 0 => ⟨fraction, -1074, false⟩
  | biased + 1 => ⟨fractions + fraction, (biased : Int) - 1074, fraction = 0 ∧ 0 < biased⟩

end Binary

end StagedGraph
