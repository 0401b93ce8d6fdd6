import Ingest.Number.Shortest

/-!
The text of a binary64 value.

The digits are the shortest ones that read back (`Binary64.shortest`); a `Notation` decides the
rest: which decimal exponents are written positionally, whether an integral value keeps `.0`,
how the exponent is marked, signed and padded, and how infinities and not-a-number are spelled.
`Notation.standard` is the text of a number in messages and views, `Notation.json` the text of a
number inside JSON text.
-/

namespace Ingest

/-- How a binary64 value is written once its shortest digits are known. -/
structure Notation where
  /-- The smallest decimal exponent of the leading digit that is written positionally. -/
  lowestPositional : Int
  /-- The largest decimal exponent of the leading digit that is written positionally. -/
  highestPositional : Int
  /-- Whether a positional integral value is written with `.0`. -/
  pointZero : Bool
  /-- The letter between the digits and the exponent. -/
  exponentMark : String
  /-- Whether a non-negative exponent carries `+`. -/
  exponentPlus : Bool
  /-- The least number of exponent digits. -/
  exponentWidth : Nat
  /-- The text of positive infinity; negative infinity has `-` in front. -/
  infinity : String
  /-- The text of not-a-number. -/
  nan : String

namespace Notation

/-- Leading-digit exponents from `-4` to `15` are positional, an integral value keeps `.0`, and
an exponent has a sign and at least two digits: `1e-05`, `1.5e+300`. -/
def standard : Notation :=
  ⟨-4, 15, true, "e", true, 2, "inf", "nan"⟩

/-- As `standard`, with infinities and not-a-number spelled as JSON readers expect. -/
def json : Notation :=
  { standard with infinity := "Infinity", nan := "NaN" }

/-- `k` zeros. -/
def zeros (k : Nat) : String :=
  String.ofList (List.replicate k '0')

/-- The exponent `e` with its sign and padding. -/
def exponentText (n : Notation) (e : Int) : String :=
  let digits := toString e.natAbs
  let sign := if e < 0 then "-" else if n.exponentPlus then "+" else ""
  n.exponentMark ++ sign ++ zeros (n.exponentWidth - digits.length) ++ digits

/-- The text of the positive decimal `0.d₁d₂… · 10^point`, given its digits. -/
def decimalText (n : Notation) (digits : List Char) (point : Int) : String :=
  let len : Int := digits.length
  let text := String.ofList
  if point - 1 < n.lowestPositional ∨ point - 1 > n.highestPositional then
    let rest := digits.drop 1
    let mantissa := if rest.isEmpty then text (digits.take 1) else text (digits.take 1 ++ '.' :: rest)
    mantissa ++ n.exponentText (point - 1)
  else if point ≤ 0 then "0." ++ zeros (-point).toNat ++ text digits
  else if point < len then text (digits.take point.toNat ++ '.' :: digits.drop point.toNat)
  else text digits ++ zeros (point - len).toNat ++ (if n.pointZero then ".0" else "")

/-- The text of a binary64 value. -/
def write (n : Notation) (x : Binary64) : String :=
  let sign := if x.negative then "-" else ""
  if x.isNaN then n.nan
  else if x.isInfinite then sign ++ n.infinity
  else if x.isZero then sign ++ "0" ++ (if n.pointZero then ".0" else "")
  else
    let (a, t) := x.shortest
    let digits := Nat.toDigits 10 a
    sign ++ n.decimalText digits (digits.length + t)

end Notation

end Ingest
