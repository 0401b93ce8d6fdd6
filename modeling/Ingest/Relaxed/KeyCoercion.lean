import Ingest.Value.Basic
import Ingest.Number.Decimal
import Ingest.Number.Loose

/-!
Coercing map keys to the scalar they spell.

The first rule that applies wins:

1. `true` or `false` in any letter case is a boolean;
2. an optional sign and ASCII digits, with at most 19 digits once leading zeros are dropped,
   is an integer if it lies in the signed 64-bit range;
3. a decimal numeral (`Decimal.Numeral.read?`) is the nearest floating point number;
4. anything else stays the text it is.

Rule 2 converts the digits with a host whose integer conversion refuses more than 4300 digits,
leading zeros included; such a key is not coerced but refused (`DigitLimit`).
-/

namespace Ingest.Relaxed

/-- A key whose integer digits are more than the host converts. -/
structure DigitLimit where
  /-- The number of digits of the key. -/
  digits : Nat

/-- The message of the refusal. -/
def DigitLimit.message (e : DigitLimit) : String :=
  "Exceeds the limit (" ++ toString Loose.intDigitLimit ++
    " digits) for integer string conversion: value has " ++ toString e.digits ++
    " digits; use sys.set_int_max_str_digits() to increase the limit"

/-- The ASCII lower case of a character. -/
def lowerAscii (c : Char) : Char :=
  if 'A' ≤ c ∧ c ≤ 'Z' then Char.ofNat (c.toNat + 32) else c

/-- The sign and the digits of an integer key, when the key is one. -/
def integerParts? (cs : List Char) : Option (Bool × List Char) :=
  let (neg, digits) := Decimal.spanSign cs
  if !digits.isEmpty ∧ digits.all Char.isDigit then some (neg, digits) else none

/-- The scalar that a key spells. A key that holds a lone surrogate spells no number and no
boolean, so it stays the text it is. -/
def coerceKey (key : Text.Str) : Except DigitLimit Scalar :=
  match key.toChars? with
  | none => .ok (.str key)
  | some cs =>
    let lowered := cs.map lowerAscii
    if lowered = ['t', 'r', 'u', 'e'] then .ok (.bool true)
    else if lowered = ['f', 'a', 'l', 's', 'e'] then .ok (.bool false)
    else
      let viaFloat : Scalar :=
        match Decimal.Numeral.read? cs with
        | some n => .float n.toBinary64
        | none => .str key
      match integerParts? cs with
      | some (neg, digits) =>
        if (digits.dropWhile (· = '0')).length ≤ 19 then
          if digits.length > Loose.intDigitLimit then .error ⟨digits.length⟩
          else
            let n : Int :=
              if neg then -(Decimal.digitsValue digits : Int) else Decimal.digitsValue digits
            if -Int.pow 2 63 ≤ n ∧ n ≤ Int.pow 2 63 - 1 then .ok (.int n) else .ok viaFloat
        else .ok viaFloat
      | none => .ok viaFloat

end Ingest.Relaxed
