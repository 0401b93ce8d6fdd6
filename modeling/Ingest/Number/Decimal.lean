import Ingest.Number.Binary64

/-!
Reading decimal numerals.

A numeral is an optional sign, then digits with an optional point (at least one digit on one
side of it), then an optional exponent: `e` or `E`, an optional sign and at least one digit. Its
value is `digits · 10^exp` with the fraction digits moved into the exponent, read to the nearest
binary64 value. Only ASCII digits count.
-/

namespace Ingest.Decimal

/-- The value of a list of ASCII digits, most significant first. -/
def digitsValue (ds : List Char) : Nat :=
  ds.foldl (fun acc c => 10 * acc + (c.toNat - 48)) 0

/-- Splits off the leading ASCII digits. -/
def spanDigits (cs : List Char) : List Char × List Char :=
  (cs.takeWhile Char.isDigit, cs.dropWhile Char.isDigit)

/-- Splits off a leading sign: `true` for `-`. -/
def spanSign (cs : List Char) : Bool × List Char :=
  match cs with
  | '-' :: rest => (true, rest)
  | '+' :: rest => (false, rest)
  | _ => (false, cs)

/-- A numeral split into its parts: sign, the digits with the point removed, and the power of
ten that they are scaled by. -/
structure Numeral where
  negative : Bool
  digits : Nat
  exponent : Int

/-- Reads the optional exponent part that ends a numeral; nothing may follow it. -/
def readExponent? (cs : List Char) : Option Int :=
  match cs with
  | [] => some 0
  | c :: rest =>
    if c = 'e' ∨ c = 'E' then
      let (neg, rest) := spanSign rest
      let (ds, tail) := spanDigits rest
      if ds.isEmpty ∨ !tail.isEmpty then none
      else some (if neg then -(digitsValue ds : Int) else digitsValue ds)
    else none

/-- Reads a whole text as a numeral. -/
def Numeral.read? (cs : List Char) : Option Numeral :=
  let (neg, rest) := spanSign cs
  let (whole, rest) := spanDigits rest
  let (frac, rest) := match rest with
    | '.' :: more => spanDigits more
    | _ => ([], rest)
  if whole.isEmpty ∧ frac.isEmpty then none
  else
    (readExponent? rest).map fun e =>
      ⟨neg, digitsValue (whole ++ frac), e - frac.length⟩

/-- The binary64 value nearest to a numeral. -/
def Numeral.toBinary64 (n : Numeral) : Binary64 :=
  Binary64.ofDecimal n.negative n.digits n.exponent

/-- A floating point text: a numeral, or `inf`, `infinity` or `nan` in any letter case, each
with an optional sign. -/
def readFloat? (s : String) : Option Binary64 :=
  let (neg, rest) := spanSign s.toList
  let word := String.ofList (rest.map Char.toLower)
  if word = "inf" ∨ word = "infinity" then some (Binary64.infinity neg)
  else if word = "nan" then some Binary64.nan
  else (Numeral.read? s.toList).map Numeral.toBinary64

/-- An integer text: an optional sign and ASCII digits. -/
def readInt? (s : String) : Option Int :=
  let (neg, digits) := spanSign s.toList
  if digits.isEmpty ∨ !digits.all Char.isDigit then none
  else
    let n : Int := digitsValue digits
    some (if neg then -n else n)

end Ingest.Decimal
