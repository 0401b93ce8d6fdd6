/-!
Binary64 floating point numbers, held by their bits.

A value is its 64-bit pattern: sign, 11 exponent bits and 52 fraction bits. A finite value is
`± m · 2^q` with the significand `m` and exponent `q` read off the fields (`significand`,
`exponent`). Holding bits keeps equality decidable and lets `-0.0` differ from `0.0` where a
value is shown, while `sameValue` says when two numbers are equal as numbers.

Reading a fraction `num / den` rounds to the nearest value, a tie going to the even significand,
and a value too large for the format becomes an infinity (`ofRatio`). Reading a decimal
`digits · 10^exp` is that rounding of the exact fraction (`ofDecimal`).
-/

namespace Ingest

/-- A binary64 floating point number, held by its bit pattern. -/
structure Binary64 where
  bits : UInt64
deriving DecidableEq, Inhabited

namespace Binary64

/-- Number of fraction bits. -/
def fractionWidth : Nat := 52

/-- The significand of the smallest normal value, `2^52`. -/
def hiddenBit : Nat := Nat.pow 2 52

/-- Whether the sign bit is set. -/
def negative (x : Binary64) : Bool :=
  x.bits.toNat ≥ Nat.pow 2 63

/-- The biased exponent field. -/
def exponentField (x : Binary64) : Nat :=
  x.bits.toNat / Nat.pow 2 52 % Nat.pow 2 11

/-- The fraction field. -/
def fractionField (x : Binary64) : Nat :=
  x.bits.toNat % Nat.pow 2 52

/-- Infinities and not-a-number have the largest exponent field. -/
def isFinite (x : Binary64) : Bool :=
  x.exponentField != 2047

/-- Whether a value is an infinity. -/
def isInfinite (x : Binary64) : Bool :=
  x.exponentField == 2047 && x.fractionField == 0

/-- Whether a value is not a number. -/
def isNaN (x : Binary64) : Bool :=
  x.exponentField == 2047 && x.fractionField != 0

/-- Whether a value is `0.0` or `-0.0`. -/
def isZero (x : Binary64) : Bool :=
  x.exponentField == 0 && x.fractionField == 0

/-- The significand `m` of a finite value `± m · 2^q`; the hidden bit is added for normals. -/
def significand (x : Binary64) : Nat :=
  if x.exponentField = 0 then x.fractionField else x.fractionField + hiddenBit

/-- The exponent `q` of a finite value `± m · 2^q`. -/
def exponent (x : Binary64) : Int :=
  if x.exponentField = 0 then -1074 else (x.exponentField : Int) - 1075

/-- The value with the given sign, exponent field and fraction field. -/
def ofFields (neg : Bool) (field fraction : Nat) : Binary64 :=
  ⟨UInt64.ofNat ((if neg then Nat.pow 2 63 else 0) + field % Nat.pow 2 11 * Nat.pow 2 52 +
    fraction % Nat.pow 2 52)⟩

/-- Zero of the given sign. -/
def zero (neg : Bool) : Binary64 :=
  ofFields neg 0 0

/-- Infinity of the given sign. -/
def infinity (neg : Bool) : Binary64 :=
  ofFields neg 2047 0

/-- The quiet not-a-number value. -/
def nan : Binary64 :=
  ofFields false 2047 (Nat.pow 2 51)

/-- The value with the opposite sign. -/
def neg (x : Binary64) : Binary64 :=
  ofFields (!x.negative) x.exponentField x.fractionField

/-- `2^n` for an integer `n`, as a numerator and a denominator. -/
def powTwo (n : Int) : Nat × Nat :=
  if 0 ≤ n then (Nat.pow 2 n.toNat, 1) else (1, Nat.pow 2 (-n).toNat)

/-- `n / d` rounded to the nearest natural number, a tie going to the even one. -/
def roundHalfEven (n d : Nat) : Nat :=
  let q := n / d
  let r := n % d
  if 2 * r > d ∨ (2 * r = d ∧ q % 2 = 1) then q + 1 else q

/-- The exponent `e` with `2^e ≤ num / den < 2^(e+1)`, for positive `num` and `den`. -/
def floorLog2 (num den : Nat) : Int :=
  let e : Int := (Nat.log2 num : Int) - (Nat.log2 den : Int)
  let (a, b) := powTwo e
  -- `num / den ≥ 2^e` iff `num · b ≥ den · a`; otherwise the estimate is one too large
  if num * b ≥ den * a then e else e - 1

/-- A finite positive value `s · 2^q`, placed in the format: a significand of `2^53` moves to
the next binade, and an exponent past the largest binade gives infinity. -/
def place (neg : Bool) (s : Nat) (q : Int) : Binary64 :=
  let (s, q) := if s = 2 * hiddenBit then (hiddenBit, q + 1) else (s, q)
  if s < hiddenBit then ofFields neg 0 s
  else if q + 1075 ≥ 2047 then infinity neg
  else ofFields neg (q + 1075).toNat (s - hiddenBit)

/-- The value nearest to `num / den`, a tie going to the even significand. -/
def ofRatio (neg : Bool) (num den : Nat) : Binary64 :=
  if num = 0 ∨ den = 0 then zero neg
  else
    let e := floorLog2 num den
    if e > 1023 then infinity neg
    else
      -- the unit in the last place: 2^(e-52) for normals, 2^-1074 below them
      let q : Int := max (e - 52) (-1074)
      let (a, b) := powTwo q
      place neg (roundHalfEven (num * b) (den * a)) q

/-- Number of decimal digits of a positive natural number. -/
def decimalLength (n : Nat) : Nat :=
  (Nat.toDigits 10 n).length

/-- The value nearest to `digits · 10^exp`. Far beyond the range of the format the fraction is
not formed: at `10^310` and above the value is infinite, below `10^-330` it is zero. -/
def ofDecimal (neg : Bool) (digits : Nat) (exp : Int) : Binary64 :=
  if digits = 0 then zero neg
  else
    let size := (decimalLength digits : Int) + exp
    if size > 310 then infinity neg
    else if size < -330 then zero neg
    else if 0 ≤ exp then ofRatio neg (digits * Nat.pow 10 exp.toNat) 1
    else ofRatio neg digits (Nat.pow 10 (-exp).toNat)

/-- The exact value of a finite number as a numerator over a power of two. -/
def toRatio (x : Binary64) : Nat × Nat :=
  let (a, b) := powTwo x.exponent
  (x.significand * a, b)

/-- Whether a finite number equals an integer as a number. -/
def eqInt (x : Binary64) (n : Int) : Bool :=
  if !x.isFinite then false
  else if x.isZero then n == 0
  else
    let (num, den) := x.toRatio
    x.negative == decide (n < 0) && num % den == 0 && num / den == n.natAbs

/-- Whether two numbers are equal as numbers: `0.0` equals `-0.0`, and not-a-number equals
nothing. -/
def sameValue (x y : Binary64) : Bool :=
  !x.isNaN && !y.isNaN && (x == y || (x.isZero && y.isZero))

example : ofDecimal false 1 0 = ⟨0x3FF0000000000000⟩ := by decide +kernel

example : ofDecimal false 1 (-1) = ⟨0x3FB999999999999A⟩ := by decide +kernel

end Binary64

end Ingest
