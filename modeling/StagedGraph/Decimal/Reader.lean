import StagedGraph.Decimal.Nearest

/-!
# Decimal: reading numbers

`readNat?` reads a bounded natural number and `readFloat?` a double. Both take the whole
text: blanks, digit separators and digits outside ASCII are refused.
-/

namespace StagedGraph.Decimal

/-- The value of one ASCII digit. -/
def digit? (c : Char) : Option Nat :=
  if '0' ≤ c ∧ c ≤ '9' then some (c.toNat - '0'.toNat) else none

/-- Splits off the longest run of ASCII digits at the front, as their values. -/
def spanDigits : List Char → List Nat × List Char
  | [] => ([], [])
  | c :: cs =>
    match digit? c with
    | some d => let (ds, rest) := spanDigits cs; (d :: ds, rest)
    | none => ([], c :: cs)

/-- The number that a list of decimal digits stands for, the leading digit first. -/
def value (ds : List Nat) : Nat := ds.foldl (fun n d => 10 * n + d) 0

/-- Reads a natural number up to `limit`: at least one digit, with an optional plus sign
in front. -/
def readNat? (limit : Nat) (s : String) : Option Nat :=
  let body := match s.toList with
    | '+' :: cs => cs
    | cs => cs
  match spanDigits body with
  | ([], _) => none
  | (ds, []) => if value ds ≤ limit then some (value ds) else none
  | (_, _ :: _) => none

/-- The double nearest to `n * 10 ^ e`. A number of 311 or more digits before the point is
infinite, and one that starts 330 or more places after it is zero, however large its
exponent is. -/
def nearest (n : Nat) (e : Int) : Float :=
  let magnitude := e + (Nat.toDigits 10 n).length
  if n = 0 ∨ magnitude < -330 then 0
  else if 310 < magnitude then infinity
  else nearestFloat (n * Nat.pow 10 e.toNat) (Nat.pow 10 (-e).toNat)

/-- Reads an exponent: a sign if there is one, then at least one digit, then nothing. -/
def readExponent? (cs : List Char) : Option Int :=
  let (negative, body) := match cs with
    | '+' :: cs => (false, cs)
    | '-' :: cs => (true, cs)
    | cs => (false, cs)
  match spanDigits body with
  | ([], _) => none
  | (ds, []) => some (if negative then -(value ds : Int) else value ds)
  | (_, _ :: _) => none

/-- Reads an unsigned decimal: digits before or after an optional point, at least one of
them, then an exponent behind `e` or `E` if there is one. -/
def readUnsigned? (cs : List Char) : Option Float :=
  let (whole, rest) := spanDigits cs
  let (fraction, rest) := match rest with
    | '.' :: cs => spanDigits cs
    | cs => ([], cs)
  let digits := value (whole ++ fraction)
  match whole ++ fraction, rest with
  | [], _ => none
  | _ :: _, [] => some (nearest digits (-fraction.length))
  | _ :: _, c :: cs =>
    if c = 'e' ∨ c = 'E' then
      (readExponent? cs).map fun e => nearest digits (e - fraction.length)
    else none

/-- Reads a double: a sign if there is one, then a decimal or, in letters of either case,
`inf`, `infinity` or `nan`. -/
def readFloat? (s : String) : Option Float :=
  let (negative, body) := match s.toList with
    | '+' :: cs => (false, cs)
    | '-' :: cs => (true, cs)
    | cs => (false, cs)
  let word := String.ofList (body.map Char.toLower)
  let magnitude :=
    if word = "inf" ∨ word = "infinity" then some infinity
    else if word = "nan" then some (0 / 0)
    else readUnsigned? body
  magnitude.map fun x => if negative then -x else x

end StagedGraph.Decimal
