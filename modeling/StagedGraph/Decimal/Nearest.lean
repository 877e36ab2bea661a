import StagedGraph.Decimal.Binary

/-!
# Decimal: the double nearest to a fraction

`nearestFloat` rounds a fraction of natural numbers to a double by exact arithmetic. It
finds the last binary place that a double of that size has, counts the fraction in units of
that place, and rounds the count to the nearest natural number, a half to the even one. The
pattern of a double counts the doubles from zero upwards, so a count that reaches the next
power of two needs no care of its own.
-/

namespace StagedGraph.Decimal

/-- The natural number nearest to `num / den`, the even one of two that are equally near. -/
def roundHalfEven (num den : Nat) : Nat :=
  let below := num / den
  let rest := num % den
  if 2 * rest < den ∨ (2 * rest = den ∧ below % 2 = 0) then below else below + 1

/-- Whether `num / den` is less than `2 ^ k`. -/
def belowPower (num den : Nat) (k : Int) : Bool :=
  num * Nat.pow 2 (-k).toNat < den * Nat.pow 2 k.toNat

/-- The exponent of the last binary place of a double of the size of `num / den`: there are
53 places from the leading one down, but none below `2 ^ -1074`. -/
def lastPlace (num den : Nat) : Int :=
  let lead : Int := (Nat.log2 num : Int) - Nat.log2 den
  let lead := if belowPower num den lead then lead - 1 else lead
  max (lead - 52) (-1074)

/-- The pattern of the double nearest to `num / den`; a fraction too large for a finite
double is infinite. -/
def nearestBits (num den : Nat) : Nat :=
  if num = 0 then 0
  else
    let k := lastPlace num den
    let count := roundHalfEven (num * Nat.pow 2 (-k).toNat) (den * Nat.pow 2 k.toNat)
    min ((k + 1074).toNat * Binary.fractions + count) Binary.infinityBits

/-- The double nearest to `num / den`, where `den` is positive. -/
def nearestFloat (num den : Nat) : Float := Float.ofBits (UInt64.ofNat (nearestBits num den))

/-- Positive infinity. -/
def infinity : Float := Float.ofBits (UInt64.ofNat Binary.infinityBits)

end StagedGraph.Decimal
