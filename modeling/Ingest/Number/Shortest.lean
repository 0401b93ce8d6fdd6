import Ingest.Number.Binary64

/-!
The shortest decimal that reads back as a given binary64 value.

A positive finite value `m · 2^q` is read back from every real in its rounding interval: from
halfway to its predecessor up to halfway to its successor, both ends included when `m` is even
(a tie is read to the even significand). The gap below is half as wide at the bottom of a binade.

`Binary64.shortest` tries the decimal grids `10^t` from the value's own decade downwards. On each
grid only the two neighbours of the value can lie in the interval; the first grid with a hit
gives the fewest digits, of two hits the nearer wins, and a tie goes to the even one. Seventeen
digits always suffice, so the search has a fixed bound. The result has no trailing zero.
-/

namespace Ingest.Binary64

/-- Compares `a · 10^t` with `b · 2^p` exactly. -/
def compareScaled (a : Nat) (t : Int) (b : Nat) (p : Int) : Ordering :=
  compare (a * Nat.pow 10 t.toNat * Nat.pow 2 (-p).toNat)
    (b * Nat.pow 2 p.toNat * Nat.pow 10 (-t).toNat)

/-- The gap from a value down to the low end of its rounding interval, in quarters of the unit
in the last place: a quarter at the bottom of a binade, half a unit elsewhere. -/
def lowGap (x : Binary64) : Nat :=
  if x.significand = hiddenBit ∧ x.exponentField > 1 then 1 else 2

/-- Whether the decimal `a · 10^t` reads back as the positive finite value `x`. -/
def readsBack (x : Binary64) (a : Nat) (t : Int) : Bool :=
  let m := x.significand
  let p := x.exponent - 2
  let low := compareScaled a t (4 * m - lowGap x) p
  let high := compareScaled a t (4 * m + 2) p
  if m % 2 = 0 then low != .lt && high != .gt else low == .gt && high == .lt

/-- `⌊x / 10^t⌋` for a positive finite value `x`. -/
def floorScaled (x : Binary64) (t : Int) : Nat :=
  let q := x.exponent
  x.significand * Nat.pow 2 q.toNat * Nat.pow 10 (-t).toNat /
    (Nat.pow 2 (-q).toNat * Nat.pow 10 t.toNat)

/-- Moves an estimate `d` of the decade of a positive finite value to the exact one, the `d`
with `10^d ≤ x < 10^(d+1)`; each step moves by one. -/
def fixDecade (x : Binary64) : Nat → Int → Int
  | 0, d => d
  | fuel + 1, d =>
    if compareScaled 1 d x.significand x.exponent == .gt then fixDecade x fuel (d - 1)
    else if compareScaled 1 (d + 1) x.significand x.exponent != .gt then fixDecade x fuel (d + 1)
    else d

/-- The decade of a positive finite value: `10^d ≤ x < 10^(d+1)`. -/
def decade (x : Binary64) : Int :=
  let binade : Int := (Nat.log2 x.significand : Int) + x.exponent
  fixDecade x 4 (binade * 30103 / 100000)

/-- Of two decimals `a · 10^t` and `(a+1) · 10^t` around `x`, the nearer; a tie goes to the even
one. -/
def nearer (x : Binary64) (a : Nat) (t : Int) : Nat :=
  match compareScaled (2 * a + 1) t (2 * x.significand) x.exponent with
  | .gt => a
  | .lt => a + 1
  | .eq => if a % 2 = 0 then a else a + 1

/-- Searches the grids `10^(d-n)`, `10^(d-n-1)`, … for a decimal that reads back. -/
def searchGrids (x : Binary64) (d : Int) : Nat → Nat → Nat × Int
  | 0, n => (floorScaled x (d - n), d - n)
  | fuel + 1, n =>
    let t := d - n
    let a := floorScaled x t
    match readsBack x a t, readsBack x (a + 1) t with
    | true, true => (nearer x a t, t)
    | true, false => (a, t)
    | false, true => (a + 1, t)
    | false, false => searchGrids x d fuel (n + 1)

/-- Removes trailing zeros of `a · 10^t`, keeping its value. -/
def dropTrailingZeros : Nat → Nat → Int → Nat × Int
  | 0, a, t => (a, t)
  | fuel + 1, a, t =>
    if a ≠ 0 ∧ a % 10 = 0 then dropTrailingZeros fuel (a / 10) (t + 1) else (a, t)

/-- The shortest decimal `a · 10^t` that reads back as the positive finite value `x`, nearest to
it among those, with no trailing zero in `a`. -/
def shortest (x : Binary64) : Nat × Int :=
  let (a, t) := searchGrids x x.decade 17 0
  dropTrailingZeros (decimalLength a) a t

example : shortest (ofDecimal false 1 (-1)) = (1, -1) := by decide +kernel

example : shortest (ofDecimal false 123 (-2)) = (123, -2) := by decide +kernel

end Ingest.Binary64
