import StagedGraph.Decimal.Binary

/-!
# Decimal: the shortest digits of a double

The reals that round to a double form an interval: it reaches halfway to the neighbour on
each side, and its ends belong to it exactly when the significand is even.
`Binary.shortest` finds the decimal with the fewest digits in that interval, and of those
with that many digits the nearest, by exact arithmetic on natural numbers.
-/

namespace StagedGraph

/-- The number `digits * 10 ^ exponent`. -/
structure Decimal where
  digits : Nat
  exponent : Int
deriving DecidableEq, Repr

namespace Decimal

/-- The number of decimal digits of `n`; zero has one. -/
def digitCount (n : Nat) : Nat := (Nat.toDigits 10 n).length

/-- Takes trailing zeros of the digits into the exponent, at most `limit` of them. -/
def strip : Nat → Decimal → Decimal
  | 0, d => d
  | limit + 1, d =>
    if d.digits ≠ 0 ∧ d.digits % 10 = 0 then strip limit ⟨d.digits / 10, d.exponent + 1⟩ else d

/-- The exponent of the leading digit: `d` is at least `10 ^ d.leading` and less than ten times that. -/
def leading (d : Decimal) : Int := d.exponent + (digitCount d.digits - 1 : Nat)

end Decimal

namespace Binary

/-- The double counted in steps of `10 ^ k`, as a fraction `x.significand * step / unit`:
the pair is `(step, unit)`. -/
def grid (x : Binary) (k : Int) : Nat × Nat :=
  (Nat.pow 2 x.exponent.toNat * Nat.pow 10 (-k).toNat,
    Nat.pow 2 (-x.exponent).toNat * Nat.pow 10 k.toNat)

/-- Whether `n * 10 ^ k` rounds to the double `x`, ties going to the even significand. -/
def readsBack (x : Binary) (k : Int) (n : Nat) : Bool :=
  let (step, unit) := x.grid k
  let low := (4 * x.significand - if x.narrowBelow then 1 else 2) * step
  let high := (4 * x.significand + 2) * step
  let here := 4 * n * unit
  if x.significand % 2 = 0 then low ≤ here ∧ here ≤ high else low < here ∧ here < high

/-- The multiple of `10 ^ k` nearest to `x` among its two neighbours on that grid that
read back, the larger one if both are equally near; `none` if neither reads back. -/
def nearestOn (x : Binary) (k : Int) : Option Nat :=
  let (step, unit) := x.grid k
  let below := x.significand * step / unit
  match x.readsBack k below, x.readsBack k (below + 1) with
  | true, true =>
    if 2 * (x.significand * step) < (2 * below + 1) * unit then some below else some (below + 1)
  | true, false => some below
  | false, true => some (below + 1)
  | false, false => none

/-- The least `k` with `x < 10 ^ k`, for a double that is not zero: no double but zero is
below `10 ^ -340`. -/
def scale (x : Binary) : Int :=
  let (step, unit) := x.grid (-340)
  (Decimal.digitCount (x.significand * step / unit) : Int) - 340

/-- The double itself as a decimal. -/
def exact (x : Binary) : Decimal :=
  if 0 ≤ x.exponent then ⟨x.significand * Nat.pow 2 x.exponent.toNat, 0⟩
  else ⟨x.significand * Nat.pow 5 (-x.exponent).toNat, x.exponent⟩

/-- The shortest decimal that reads back as `x`, tried with one digit, then two, up to
seventeen; the exact value should none of these read back. -/
def shortest (x : Binary) : Decimal :=
  if x.significand = 0 then ⟨0, 0⟩
  else
    let found := (List.range 17).findSome? fun i =>
      let k := x.scale - (i + 1 : Nat)
      (x.nearestOn k).map fun n => (⟨n, k⟩ : Decimal)
    (found.getD x.exact).strip 400

end Binary

end StagedGraph
