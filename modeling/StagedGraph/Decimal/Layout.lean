import StagedGraph.Decimal.Shortest

/-!
# Decimal: how a double is written

Every text of a double uses its shortest digits. What differs is the layout: a `Layout`
says which magnitudes are written positionally and whether a whole number keeps `.0`. The
library uses three of them: `Layout.plain`, `Layout.pointed` and `Layout.scientific`.
-/

namespace StagedGraph

/-- The decisions of a number's layout. -/
structure Layout where
  /-- Whether a number whose leading digit has this exponent is written positionally. -/
  positional : Int → Bool
  /-- Whether a whole number, written positionally, ends in `.0`. -/
  pointZero : Bool

namespace Layout

/-- Never an exponent, and no point in a whole number. -/
def plain : Layout where
  positional _ := true
  pointZero := false

/-- Positional from `10 ^ -4` to below `10 ^ 16`, and a whole number ends in `.0`. -/
def pointed : Layout where
  positional e := -4 ≤ e ∧ e < 16
  pointZero := true

/-- Always an exponent. -/
def scientific : Layout where
  positional _ := false
  pointZero := false

/-- The digits of `d` with the point where its exponent puts it. -/
def positionalText (pointZero : Bool) (d : Decimal) : List Char :=
  let digits := Nat.toDigits 10 d.digits
  if 0 ≤ d.exponent then
    digits ++ List.replicate d.exponent.toNat '0' ++ (if pointZero then ['.', '0'] else [])
  else
    let places := (-d.exponent).toNat
    if places < digits.length then
      digits.take (digits.length - places) ++ '.' :: digits.drop (digits.length - places)
    else
      '0' :: '.' :: (List.replicate (places - digits.length) '0' ++ digits)

/-- The leading digit of `d`, a point and its other digits if it has any, and the exponent. -/
def exponentText (d : Decimal) : List Char :=
  match Nat.toDigits 10 d.digits with
  | [] => []
  | [digit] => digit :: 'e' :: (toString d.leading).toList
  | digit :: rest => digit :: '.' :: (rest ++ 'e' :: (toString d.leading).toList)

/-- The text of a decimal in this layout. -/
def decimal (l : Layout) (d : Decimal) : String :=
  String.ofList <|
    if l.positional d.leading then positionalText l.pointZero d else exponentText d

/-- The text of a double in this layout. A minus sign stands before every double whose sign
bit is set, zero and infinity included; a NaN has no sign. -/
def float (l : Layout) (x : Float) : String :=
  if x.isNaN then "NaN"
  else
    let bits := x.toBits
    let sign := if Binary.isNegative bits then "-" else ""
    let magnitude :=
      if Binary.exponentField bits = Binary.exponents - 1 then "inf"
      else l.decimal (Binary.ofBits bits).shortest
    sign ++ magnitude

end Layout

end StagedGraph
