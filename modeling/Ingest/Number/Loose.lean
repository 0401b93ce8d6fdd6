import Ingest.Number.Decimal
import Ingest.Text.Blank
import Ingest.Text.Digit

/-!
Numbers typed loosely.

Numbers given to the loader by a person, such as the row limit of the command line, are read as
they may be typed: blanks around the number are dropped, a decimal digit of any script stands
for its ASCII digit, and underscores may group digits. In a text of ASCII characters only the
six ASCII blanks count as blanks; once any other character is in it, every blank character
does. An underscore stands between two digits; anywhere else it makes the text no number. An
integer of more than 4300 digits, leading zeros included, is refused, as reading one takes time
that grows faster than its length.

`Loose.int?` reads an optional sign and digits; `Loose.float?` reads what `Decimal.readFloat?`
reads once the digits are ASCII and the underscores are gone.
-/

namespace Ingest.Loose

open Ingest.Text

/-- The most digits of an integer that are read. -/
def intDigitLimit : Nat := 4300

/-- Whether a character is one of the six ASCII blanks: space, tab, line feed, vertical tab,
form feed and carriage return. -/
def isAsciiBlank (c : Char) : Bool :=
  c = ' ' ∨ c = '\t' ∨ c = '\n' ∨ c = '\x0b' ∨ c = '\x0c' ∨ c = '\r'

/-- A number's text without the blanks around it: the ASCII blanks in an ASCII text, and every
blank character in any other. -/
def trimNumber (cs : List Char) : List Char :=
  if cs.all (·.toNat < 128) then
    ((cs.dropWhile isAsciiBlank).reverse.dropWhile isAsciiBlank).reverse
  else trimChars cs

/-- The ASCII digit of a decimal digit of any script; other characters stay. -/
def asciiDigit (c : Char) : Char :=
  match digitValue? c with
  | some d => Char.ofNat (48 + d)
  | none => c

/-- Whether a character is a decimal digit of some script. -/
def isAnyDigit (c : Char) : Bool :=
  (digitValue? c).isSome

/-- A text without its grouping underscores, each of which must stand between two digits;
`none` when one does not. -/
def ungroup? (cs : List Char) : Option (List Char) :=
  go ' ' cs
where
  /-- The rest of the text after the character `prev`. -/
  go (prev : Char) : List Char → Option (List Char)
    | [] => if prev = '_' then none else some []
    | c :: rest =>
      if c = '_' then
        if isAnyDigit prev then go c rest else none
      else if prev = '_' ∧ !isAnyDigit c then none
      else (go c rest).map (c :: ·)

/-- The integer of a loosely typed text: an optional sign and decimal digits. -/
def int? (s : String) : Option Int := do
  let cs ← ungroup? (trimNumber s.toList)
  let (neg, digits) := Decimal.spanSign (cs.map asciiDigit)
  if digits.isEmpty ∨ !digits.all Char.isDigit ∨ digits.length > intDigitLimit then none
  else
    let n : Int := Decimal.digitsValue digits
    some (if neg then -n else n)

/-- The floating point number of a loosely typed text. -/
def float? (s : String) : Option Binary64 := do
  let cs ← ungroup? (trimNumber s.toList)
  Decimal.readFloat? (String.ofList (cs.map asciiDigit))

example : int? " 1_000 " = some 1000 ∧ int? "\x1c1" = none ∧ int? "\x1c1\u3000" = some 1 ∧
    int? "١٢" = some 12 ∧ int? "1__0" = none ∧ int? "_1" = none ∧ int? "-1_" = none := by
  decide +kernel

end Ingest.Loose
