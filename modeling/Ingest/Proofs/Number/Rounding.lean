import Mathlib
import Ingest.Number.Shortest

/-!
Contract: reading a fraction back gives the binary64 value whose rounding interval holds it.

Owns: the fields of a value and how `place` rebuilds a value from its significand and exponent;
`floorLog2` and `roundHalfEven` as exact statements over the rationals; the rounding interval
`RoundsTo` of a finite value, from `lowGap` quarter units below it to half a unit above, closed
for an even significand; and the two reading theorems built on it: `ofRatio` and `ofDecimal`
give back every value from every fraction in its interval.

Does not own: how the shortest decimal in an interval is found, which is
`Number.ShortestDigits`, or the text of a number.
-/

namespace Ingest.Binary64

variable {x : Binary64}

/-! ### Fields -/

theorem hiddenBit_eq : hiddenBit = 4503599627370496 := rfl

theorem exponentField_lt (x : Binary64) : x.exponentField < 2048 := by
  unfold exponentField
  exact Nat.mod_lt _ (by decide)

theorem fractionField_lt (x : Binary64) : x.fractionField < hiddenBit := by
  unfold fractionField
  exact Nat.mod_lt _ (by decide)

/-- **Every value is its fields.** -/
theorem ofFields_fields (x : Binary64) :
    ofFields x.negative x.exponentField x.fractionField = x := by
  have bound := x.bits.toNat_lt
  unfold ofFields negative exponentField fractionField
  simp only [Nat.pow_eq, Nat.reducePow] at bound ⊢
  congr 1
  apply UInt64.toNat_inj.mp
  rw [UInt64.toNat_ofNat']
  by_cases high : 9223372036854775808 ≤ x.bits.toNat
  · simp only [high, decide_true, if_true]
    omega
  · simp only [high, decide_false, Bool.false_eq_true, if_false]
    omega

theorem significand_lt (x : Binary64) : x.significand < 2 * hiddenBit := by
  have := x.fractionField_lt
  unfold significand
  split <;> omega

theorem hiddenBit_le_significand (normal : x.exponentField ≠ 0) : hiddenBit ≤ x.significand := by
  simp [significand, normal]

theorem significand_pos (nonzero : x.isZero = false) :
    0 < x.significand := by
  have := hiddenBit_eq
  simp only [significand, isZero, Bool.and_eq_false_iff, beq_eq_false_iff_ne] at nonzero ⊢
  split <;> omega

theorem exponent_ge (x : Binary64) : -1074 ≤ x.exponent := by
  unfold exponent
  split <;> omega

theorem isNaN_of_isFinite (finite : x.isFinite = true) : x.isNaN = false := by
  simp only [isFinite, bne_iff_ne, ne_eq] at finite
  simp [isNaN, finite]

theorem isInfinite_of_isFinite (finite : x.isFinite = true) : x.isInfinite = false := by
  simp only [isFinite, bne_iff_ne, ne_eq] at finite
  simp [isInfinite, finite]

theorem exponent_le (finite : x.isFinite = true) : x.exponent ≤ 971 := by
  have := x.exponentField_lt
  simp only [isFinite, bne_iff_ne, ne_eq] at finite
  unfold exponent
  split <;> omega

/-! ### Placing a significand -/

theorem place_of_lt {s : ℕ} (neg : Bool) (q : ℤ) (small : s < hiddenBit) :
    place neg s q = ofFields neg 0 s := by
  have : s ≠ 2 * hiddenBit := by omega
  simp [place, this, small]

theorem place_of_normal {s : ℕ} (neg : Bool) {q : ℤ} (low : hiddenBit ≤ s) (high : s < 2 * hiddenBit)
    (inRange : q + 1075 < 2047) :
    place neg s q = ofFields neg (q + 1075).toNat (s - hiddenBit) := by
  have : s ≠ 2 * hiddenBit := by omega
  simp [place, this, Nat.not_lt.mpr low, Int.not_le.mpr inRange]

theorem place_carry (neg : Bool) (q : ℤ) :
    place neg (2 * hiddenBit) q = place neg hiddenBit (q + 1) := by
  simp [place, hiddenBit_eq]

/-- A finite value is placed back from its own significand and exponent. -/
theorem place_significand (finite : x.isFinite = true) :
    place x.negative x.significand x.exponent = x := by
  have fieldBound := x.exponentField_lt
  have fracBound := x.fractionField_lt
  simp only [isFinite, bne_iff_ne, ne_eq] at finite
  by_cases sub : x.exponentField = 0
  · have : x.significand = x.fractionField := by simp [significand, sub]
    rw [this, place_of_lt _ _ fracBound, ← sub, ofFields_fields]
  · have m := hiddenBit_le_significand sub
    rw [place_of_normal _ m x.significand_lt (by simp [exponent, sub]; omega)]
    have field : (x.exponent + 1075).toNat = x.exponentField := by simp [exponent, sub]
    have frac : x.significand - hiddenBit = x.fractionField := by simp [significand, sub]
    rw [field, frac, ofFields_fields]

/-! ### Powers of two and rounding to an integer -/

theorem powTwo_fst_div_snd (n : ℤ) : ((powTwo n).1 : ℚ) / (powTwo n).2 = 2 ^ n := by
  unfold powTwo
  split
  · rename_i nonneg
    simp only [Nat.pow_eq, Nat.cast_pow, Nat.cast_ofNat, Nat.cast_one, div_one]
    rw [← zpow_natCast, Int.toNat_of_nonneg nonneg]
  · rename_i neg
    simp only [Nat.pow_eq, Nat.cast_one, Nat.cast_pow, Nat.cast_ofNat, one_div]
    rw [← zpow_natCast, Int.toNat_of_nonneg (by omega), zpow_neg, inv_inv]

theorem powTwo_pos (n : ℤ) : 0 < (powTwo n).1 ∧ 0 < (powTwo n).2 := by
  unfold powTwo
  split <;> simp [Nat.pow_eq]

/-- `2^log2 n ≤ n < 2^(log2 n + 1)`, over the rationals. -/
theorem log2_bounds {n : ℕ} (pos : 0 < n) :
    (2 : ℚ) ^ (n.log2 : ℤ) ≤ n ∧ (n : ℚ) < 2 ^ ((n.log2 : ℤ) + 1) := by
  have below := Nat.log2_self_le (Nat.pos_iff_ne_zero.mp pos)
  have above := Nat.lt_log2_self (n := n)
  constructor
  · rw [zpow_natCast]; exact_mod_cast below
  · rw [← Nat.cast_one, ← Nat.cast_add, zpow_natCast]; exact_mod_cast above

theorem floorLog2_spec {num den : ℕ} (numPos : 0 < num) (denPos : 0 < den) :
    (2 : ℚ) ^ floorLog2 num den ≤ num / den ∧ (num / den : ℚ) < 2 ^ (floorLog2 num den + 1) := by
  obtain ⟨numLow, numHigh⟩ := log2_bounds numPos
  obtain ⟨denLow, denHigh⟩ := log2_bounds denPos
  have denQ : (0 : ℚ) < den := by exact_mod_cast denPos
  set e : ℤ := (num.log2 : ℤ) - den.log2 with he
  have ratioHigh : (num / den : ℚ) < 2 ^ (e + 1) := by
    rw [div_lt_iff₀ denQ]
    calc (num : ℚ) < 2 ^ ((num.log2 : ℤ) + 1) := numHigh
      _ = 2 ^ (e + 1) * 2 ^ (den.log2 : ℤ) := by rw [← zpow_add₀ two_ne_zero]; congr 1; omega
      _ ≤ 2 ^ (e + 1) * den := by gcongr
  have ratioLow : (2 : ℚ) ^ (e - 1) < num / den := by
    rw [lt_div_iff₀ denQ]
    calc (2 : ℚ) ^ (e - 1) * den < 2 ^ (e - 1) * 2 ^ ((den.log2 : ℤ) + 1) := by gcongr
      _ = 2 ^ (num.log2 : ℤ) := by rw [← zpow_add₀ two_ne_zero]; congr 1; omega
      _ ≤ num := numLow
  obtain ⟨aPos, bPos⟩ := powTwo_pos e
  have test : (den * (powTwo e).1 ≤ num * (powTwo e).2) ↔ (2 : ℚ) ^ e ≤ num / den := by
    rw [← powTwo_fst_div_snd, div_le_div_iff₀ (by exact_mod_cast bPos) denQ]
    constructor
    · intro h; rw [mul_comm]; exact_mod_cast h
    · intro h; rw [mul_comm] at h; exact_mod_cast h
  unfold floorLog2
  simp only [← he]
  split
  · rename_i atLeast
    exact ⟨test.mp atLeast, ratioHigh⟩
  · rename_i below
    refine ⟨ratioLow.le, ?_⟩
    rw [sub_add_cancel]
    exact lt_of_not_ge (fun h => below (test.mpr h))

theorem roundHalfEven_eq_of_near {n d m : ℕ} (hd : 0 < d)
    (low : 2 * m * d ≤ 2 * n + d) (high : 2 * n ≤ 2 * m * d + d)
    (lowTie : 2 * m * d = 2 * n + d → m % 2 = 0)
    (highTie : 2 * n = 2 * m * d + d → m % 2 = 0) :
    roundHalfEven n d = m := by
  have split := Nat.div_add_mod n d
  have rem := Nat.mod_lt n hd
  generalize n / d = q at split
  generalize n % d = r at split rem
  subst split
  have upper : m ≤ q + 1 := by
    by_contra! tooBig
    have : d * (2 * q + 4) ≤ d * (2 * m) := Nat.mul_le_mul_left d (by omega)
    nlinarith
  have lower : q ≤ m := by
    by_contra! tooSmall
    have : d * (2 * m + 2) ≤ d * (2 * q) := Nat.mul_le_mul_left d (by omega)
    nlinarith
  unfold roundHalfEven
  rw [Nat.mul_add_div hd, Nat.div_eq_of_lt rem, Nat.mul_add_mod, Nat.mod_eq_of_lt rem]
  simp only [add_zero]
  rcases Nat.eq_or_lt_of_le upper with above | within
  · subst above
    have : d ≤ 2 * r := by nlinarith
    rcases Nat.eq_or_lt_of_le this with tie | more
    · have := lowTie (by nlinarith)
      rw [if_pos (Or.inr ⟨tie.symm, by omega⟩)]
    · rw [if_pos (Or.inl more)]
  · have same : q = m := by omega
    subst same
    have : 2 * r ≤ d := by nlinarith
    rcases Nat.eq_or_lt_of_le this with tie | less
    · have := highTie (by nlinarith)
      rw [if_neg (by omega)]
    · rw [if_neg (by omega)]

theorem roundHalfEven_eq_of_near_rat {n d m : ℕ} (hd : 0 < d)
    (low : (m - 1 / 2 : ℚ) ≤ n / d) (high : (n / d : ℚ) ≤ m + 1 / 2)
    (lowTie : (n / d : ℚ) = m - 1 / 2 → m % 2 = 0) (highTie : (n / d : ℚ) = m + 1 / 2 → m % 2 = 0) :
    roundHalfEven n d = m := by
  have dQ : (0 : ℚ) < d := by exact_mod_cast hd
  rw [le_div_iff₀ dQ] at low
  rw [div_le_iff₀ dQ] at high
  apply roundHalfEven_eq_of_near hd
  · have : (2 * m * d : ℚ) ≤ 2 * n + d := by linarith
    exact_mod_cast this
  · have : (2 * n : ℚ) ≤ 2 * m * d + d := by linarith
    exact_mod_cast this
  · intro tie
    have tie : (2 * m * d : ℚ) = 2 * n + d := by exact_mod_cast tie
    exact lowTie (by field_simp; linarith)
  · intro tie
    have tie : (2 * n : ℚ) = 2 * m * d + d := by exact_mod_cast tie
    exact highTie (by field_simp; linarith)

/-- `num / den` rounded at the unit `2^q`. -/
theorem roundHalfEven_scaled {num den m : ℕ} (q : ℤ) (denPos : 0 < den)
    (low : (m - 1 / 2 : ℚ) * 2 ^ q ≤ num / den) (high : (num / den : ℚ) ≤ (m + 1 / 2) * 2 ^ q)
    (lowTie : (num / den : ℚ) = (m - 1 / 2) * 2 ^ q → m % 2 = 0)
    (highTie : (num / den : ℚ) = (m + 1 / 2) * 2 ^ q → m % 2 = 0) :
    roundHalfEven (num * (powTwo q).2) (den * (powTwo q).1) = m := by
  obtain ⟨aPos, bPos⟩ := powTwo_pos q
  have unit : (0 : ℚ) < 2 ^ q := zpow_pos two_pos q
  have scaled : ((num * (powTwo q).2 : ℕ) : ℚ) / (den * (powTwo q).1 : ℕ) = num / den / 2 ^ q := by
    rw [← powTwo_fst_div_snd]
    have : ((powTwo q).2 : ℚ) ≠ 0 := by exact_mod_cast bPos.ne'
    have : ((powTwo q).1 : ℚ) ≠ 0 := by exact_mod_cast aPos.ne'
    have : (den : ℚ) ≠ 0 := by exact_mod_cast denPos.ne'
    push_cast
    field_simp
  apply roundHalfEven_eq_of_near_rat (Nat.mul_pos denPos aPos) <;> rw [scaled]
  · rwa [le_div_iff₀ unit]
  · rwa [div_le_iff₀ unit]
  · intro tie; exact lowTie (by rw [div_eq_iff unit.ne'] at tie; exact tie)
  · intro tie; exact highTie (by rw [div_eq_iff unit.ne'] at tie; exact tie)

/-! ### The rounding interval -/

/-- The rationals that round to the positive finite value `x`: from `lowGap` quarters of a unit
in the last place below `x` up to half a unit above it, both ends included when the significand
is even, since a tie goes to the even significand. -/
def RoundsTo (r : ℚ) (x : Binary64) : Prop :=
  let low := ((x.significand : ℚ) - x.lowGap / 4) * 2 ^ x.exponent
  let high := ((x.significand : ℚ) + 1 / 2) * 2 ^ x.exponent
  if x.significand % 2 = 0 then low ≤ r ∧ r ≤ high else low < r ∧ r < high

theorem lowGap_cases (x : Binary64) :
    (x.lowGap = 1 ∧ x.significand = hiddenBit ∧ 1 < x.exponentField) ∨
      (x.lowGap = 2 ∧ ¬(x.significand = hiddenBit ∧ 1 < x.exponentField)) := by
  unfold lowGap
  split
  · exact .inl ⟨rfl, ‹_›⟩
  · exact .inr ⟨rfl, ‹_›⟩

theorem lowGap_le_two (x : Binary64) : x.lowGap ≤ 2 := by
  rcases lowGap_cases x with ⟨g, -⟩ | ⟨g, -⟩ <;> omega

/-- The ends of the interval, each reached only by an even significand. -/
theorem RoundsTo.bounds {r : ℚ} (rounds : RoundsTo r x) :
    ((x.significand : ℚ) - x.lowGap / 4) * 2 ^ x.exponent ≤ r ∧
      r ≤ ((x.significand : ℚ) + 1 / 2) * 2 ^ x.exponent ∧
      (r = ((x.significand : ℚ) - x.lowGap / 4) * 2 ^ x.exponent → x.significand % 2 = 0) ∧
      (r = ((x.significand : ℚ) + 1 / 2) * 2 ^ x.exponent → x.significand % 2 = 0) := by
  unfold RoundsTo at rounds
  split at rounds
  · rename_i even
    exact ⟨rounds.1, rounds.2, fun _ => even, fun _ => even⟩
  · obtain ⟨low, high⟩ := rounds
    exact ⟨low.le, high.le, fun same => absurd same low.ne', fun same => absurd same high.ne⟩

/-- A rational strictly inside the interval rounds to `x` whatever the parity. -/
theorem roundsTo_of_lt_of_lt {r : ℚ} (low : ((x.significand : ℚ) - x.lowGap / 4) * 2 ^ x.exponent < r)
    (high : r < ((x.significand : ℚ) + 1 / 2) * 2 ^ x.exponent) : RoundsTo r x := by
  unfold RoundsTo
  split
  · exact ⟨low.le, high.le⟩
  · exact ⟨low, high⟩

/-- Every rational that rounds to a nonzero value is positive. -/
theorem RoundsTo.pos {r : ℚ} (rounds : RoundsTo r x) (nonzero : x.isZero = false) : 0 < r := by
  obtain ⟨low, -⟩ := rounds.bounds
  have mPos : (1 : ℚ) ≤ x.significand := by exact_mod_cast significand_pos nonzero
  have gapLe : (x.lowGap : ℚ) ≤ 2 := by exact_mod_cast x.lowGap_le_two
  have unit : (0 : ℚ) < 2 ^ x.exponent := zpow_pos two_pos _
  nlinarith

/-- A ratio in the rounding interval of `x` rounds to the significand of `x` at the unit of
`x`. -/
theorem roundHalfEven_of_roundsTo {num den : ℕ} (denPos : 0 < den)
    (rounds : RoundsTo (num / den) x) :
    roundHalfEven (num * (powTwo x.exponent).2) (den * (powTwo x.exponent).1) = x.significand := by
  obtain ⟨low, high, lowTie, highTie⟩ := rounds.bounds
  have unit : (0 : ℚ) < 2 ^ x.exponent := zpow_pos two_pos _
  have gapLe : (x.lowGap : ℚ) ≤ 2 := by exact_mod_cast x.lowGap_le_two
  refine roundHalfEven_scaled x.exponent denPos (by nlinarith) high (fun tie => lowTie ?_) highTie
  -- a ratio half a unit below `x` is the low end, which is then half a unit away too
  have : ((x.significand : ℚ) - x.lowGap / 4) ≤ x.significand - 1 / 2 :=
    le_of_mul_le_mul_right (tie ▸ low) unit
  have gapTwo : (x.lowGap : ℚ) = 2 := by linarith
  rw [tie, gapTwo]
  ring

/-- Every rational that rounds to `x` lies below the binade above that of `x`. -/
theorem RoundsTo.lt_two_zpow {r : ℚ} (rounds : RoundsTo r x) : r < 2 ^ (x.exponent + 53) := by
  obtain ⟨-, high, -, -⟩ := rounds.bounds
  have mBound : (x.significand : ℚ) + 1 / 2 < 2 ^ 53 := by
    have : (x.significand : ℚ) + 1 ≤ 2 * hiddenBit := by exact_mod_cast x.significand_lt
    rw [hiddenBit_eq] at this; norm_num at this ⊢; linarith
  rw [zpow_add₀ two_ne_zero, mul_comm]
  calc r ≤ (x.significand + 1 / 2) * 2 ^ x.exponent := high
    _ < 2 ^ (53 : ℤ) * 2 ^ x.exponent := by gcongr; norm_num; exact mBound

/-- The binade of `x` starts at the hidden bit in units of `x`. -/
theorem two_zpow_binade (x : Binary64) :
    (2 : ℚ) ^ (x.exponent + 52) = hiddenBit * 2 ^ x.exponent := by
  rw [zpow_add₀ two_ne_zero, hiddenBit_eq]; norm_num; ring

/-- A rational that rounds to `x` from below the binade of `x`, above the subnormals, rounds to
the bottom of that binade, whose gap below is half as wide. -/
theorem RoundsTo.bottom_of_lt {r : ℚ} (rounds : RoundsTo r x) (normal : x.exponent ≠ -1074)
    (below : r < 2 ^ (x.exponent + 52)) : x.significand = hiddenBit ∧ x.lowGap = 1 := by
  have fieldGt : 1 < x.exponentField := by
    by_contra small
    apply normal
    unfold exponent
    split <;> omega
  rcases lowGap_cases x with ⟨g, m, -⟩ | ⟨g, notBottom⟩
  · exact ⟨m, g⟩
  -- above the bottom, the interval starts three quarters of a unit above the binade
  exfalso
  obtain ⟨low, -, -, -⟩ := rounds.bounds
  have above : hiddenBit + 1 ≤ x.significand := by
    have := hiddenBit_le_significand (x := x) (by omega)
    have : x.significand ≠ hiddenBit := fun same => notBottom ⟨same, fieldGt⟩
    omega
  have aboveQ : (hiddenBit : ℚ) + 1 ≤ x.significand := by exact_mod_cast above
  have unit : (0 : ℚ) < 2 ^ x.exponent := zpow_pos two_pos _
  have start : ((hiddenBit : ℚ) + 1 - 2 / 4) * 2 ^ x.exponent ≤ r := by
    rw [g] at low
    calc ((hiddenBit : ℚ) + 1 - 2 / 4) * 2 ^ x.exponent
        ≤ (x.significand - ((2 : ℕ) : ℚ) / 4) * 2 ^ x.exponent := by
          gcongr; push_cast; linarith
      _ ≤ r := low
  rw [two_zpow_binade] at below
  nlinarith

/-- **Reading a ratio back.** A ratio in the rounding interval of a nonzero finite value rounds
to that value: its binary exponent is the value's, or one lower at the bottom of a binade where
the rounding carries into the value's significand. -/
theorem ofRatio_eq_of_roundsTo (finite : x.isFinite = true) {num den : ℕ} (numPos : 0 < num) (denPos : 0 < den) (rounds : RoundsTo (num / den) x) :
    ofRatio x.negative num den = x := by
  obtain ⟨eLow, eHigh⟩ := floorLog2_spec numPos denPos
  set e := floorLog2 num den with he
  have eLe : e ≤ x.exponent + 52 := by
    have := (zpow_lt_zpow_iff_right₀ one_lt_two).mp (lt_of_le_of_lt eLow rounds.lt_two_zpow)
    omega
  have qLe := exponent_le finite
  have qGe := exponent_ge x
  unfold ofRatio
  rw [if_neg (by omega), ← he, if_neg (by omega)]
  dsimp only
  by_cases sameUnit : max (e - 52) (-1074) = x.exponent
  · rw [sameUnit, roundHalfEven_of_roundsTo denPos rounds]
    exact place_significand finite
  -- below the binade of `x`: only the bottom of a binade reaches there, half as far down
  have rBelow : (num / den : ℚ) < 2 ^ (x.exponent + 52) :=
    lt_of_lt_of_le eHigh (zpow_le_zpow_right₀ one_le_two (by omega))
  obtain ⟨m, g⟩ := rounds.bottom_of_lt (by omega) rBelow
  obtain ⟨low, -, -, -⟩ := rounds.bounds
  rw [m, g] at low
  have eEq : e = x.exponent + 51 := by
    have : (2 : ℚ) ^ (x.exponent + 51) < 2 ^ (e + 1) := by
      calc (2 : ℚ) ^ (x.exponent + 51) < (hiddenBit - ((1 : ℕ) : ℚ) / 4) * 2 ^ x.exponent := by
            rw [zpow_add₀ two_ne_zero, hiddenBit_eq, mul_comm]; gcongr; norm_num
        _ ≤ num / den := low
        _ < 2 ^ (e + 1) := eHigh
    have := (zpow_lt_zpow_iff_right₀ one_lt_two).mp this
    omega
  have unitEq : max (e - 52) (-1074) = x.exponent - 1 := by omega
  have unit : (0 : ℚ) < 2 ^ x.exponent := zpow_pos two_pos _
  have halfUnit : (2 : ℚ) ^ (x.exponent - 1) = 2 ^ x.exponent / 2 := by
    rw [zpow_sub₀ two_ne_zero]; norm_num
  have carried : roundHalfEven (num * (powTwo (x.exponent - 1)).2)
      (den * (powTwo (x.exponent - 1)).1) = 2 * hiddenBit := by
    apply roundHalfEven_scaled (x.exponent - 1) denPos
    · rw [halfUnit]; push_cast at low ⊢; linarith
    · rw [halfUnit]; rw [two_zpow_binade] at rBelow; push_cast; nlinarith
    · intro; simp
    · intro; simp
  rw [unitEq, carried, place_carry, sub_add_cancel, ← m]
  exact place_significand finite

theorem lt_pow_decimalLength (n : ℕ) : n < 10 ^ decimalLength n :=
  (Nat.length_toDigits_le_iff (by norm_num) Nat.length_toDigits_pos).mp le_rfl

theorem pow_decimalLength_le {n : ℕ} (pos : 0 < n) : 10 ^ (decimalLength n - 1) ≤ n := by
  unfold decimalLength
  have lenPos : 0 < (Nat.toDigits 10 n).length := Nat.length_toDigits_pos
  rcases Nat.lt_or_ge (Nat.toDigits 10 n).length 2 with short | long
  · rw [show (Nat.toDigits 10 n).length - 1 = 0 by omega]
    exact pos
  · by_contra small
    have := (Nat.length_toDigits_le_iff (b := 10) (n := n) (by norm_num)
      (by omega : 0 < (Nat.toDigits 10 n).length - 1)).mpr (by omega)
    omega

/-- Every rational that rounds to a finite value lies below `2^1024 < 10^310`, and every one
that rounds to a nonzero value lies above `2^-1075 > 10^-331`. -/
theorem RoundsTo.lt_pow_ten {r : ℚ} (rounds : RoundsTo r x) (finite : x.isFinite = true) :
    r < 10 ^ (310 : ℤ) := by
  have binadeLe : (2 : ℚ) ^ (x.exponent + 53) ≤ 2 ^ (1024 : ℤ) :=
    zpow_le_zpow_right₀ one_le_two (by have := exponent_le finite; omega)
  have twoPow : (2 : ℚ) ^ (1024 : ℤ) < 10 ^ (310 : ℤ) := by
    have := (by decide +kernel : (2 : ℕ) ^ 1024 < 10 ^ 310)
    exact_mod_cast this
  calc r < 2 ^ (x.exponent + 53) := rounds.lt_two_zpow
    _ ≤ 2 ^ (1024 : ℤ) := binadeLe
    _ < 10 ^ (310 : ℤ) := twoPow

theorem RoundsTo.pow_ten_lt {r : ℚ} (rounds : RoundsTo r x) (nonzero : x.isZero = false) :
    10 ^ (-331 : ℤ) < r := by
  obtain ⟨low, -, -, -⟩ := rounds.bounds
  have mGe : (1 : ℚ) ≤ x.significand := by exact_mod_cast significand_pos nonzero
  have gapLe : (x.lowGap : ℚ) ≤ 2 := by exact_mod_cast x.lowGap_le_two
  have unitGe : (2 : ℚ) ^ (-1074 : ℤ) ≤ 2 ^ x.exponent :=
    zpow_le_zpow_right₀ one_le_two (exponent_ge x)
  have twoPow : (10 : ℚ) ^ (-331 : ℤ) < 2 ^ (-1075 : ℤ) := by
    rw [zpow_neg, zpow_neg, inv_lt_inv₀ (by positivity) (by positivity)]
    have := (by decide +kernel : (2 : ℕ) ^ 1075 < 10 ^ 331)
    exact_mod_cast this
  have half : (2 : ℚ) ^ (-1075 : ℤ) = 1 / 2 * 2 ^ (-1074 : ℤ) := by
    rw [show (-1075 : ℤ) = -1 + -1074 by norm_num, zpow_add₀ two_ne_zero, zpow_neg_one, one_div]
  calc (10 : ℚ) ^ (-331 : ℤ) < 2 ^ (-1075 : ℤ) := twoPow
    _ = 1 / 2 * 2 ^ (-1074 : ℤ) := half
    _ ≤ (x.significand - x.lowGap / 4) * 2 ^ x.exponent := by
          gcongr
          · nlinarith
          · linarith
    _ ≤ r := low

/-- **Reading a decimal back.** A decimal in the rounding interval of a nonzero finite value
reads as that value: it lies well inside the range where `ofDecimal` forms the fraction, and the
fraction rounds to the value. -/
theorem ofDecimal_eq_of_roundsTo (finite : x.isFinite = true) (nonzero : x.isZero = false)
    {digits : ℕ} {exp : ℤ} (rounds : RoundsTo (digits * 10 ^ exp) x) :
    ofDecimal x.negative digits exp = x := by
  have valuePos := rounds.pos nonzero
  have digitsPos : 0 < digits := by
    rcases Nat.eq_zero_or_pos digits with zero | pos
    · simp [zero] at valuePos
    · exact pos
  have below := rounds.lt_pow_ten finite
  have above := rounds.pow_ten_lt nonzero
  have lenPos : 0 < decimalLength digits := Nat.length_toDigits_pos
  have sizeLe : (decimalLength digits : ℤ) + exp ≤ 310 := by
    by_contra big
    have leading : (10 : ℚ) ^ (((decimalLength digits - 1 : ℕ) : ℤ) + exp) ≤ digits * 10 ^ exp := by
      rw [zpow_add₀ (by norm_num), zpow_natCast]
      gcongr
      exact_mod_cast pow_decimalLength_le digitsPos
    have : (10 : ℚ) ^ (310 : ℤ) ≤ 10 ^ (((decimalLength digits - 1 : ℕ) : ℤ) + exp) :=
      zpow_le_zpow_right₀ (by norm_num) (by omega)
    linarith
  have sizeGe : -330 ≤ (decimalLength digits : ℤ) + exp := by
    by_contra small
    have bounded : (digits : ℚ) * 10 ^ exp < 10 ^ ((decimalLength digits : ℤ) + exp) := by
      rw [zpow_add₀ (by norm_num), zpow_natCast]
      gcongr
      exact_mod_cast lt_pow_decimalLength digits
    have : (10 : ℚ) ^ ((decimalLength digits : ℤ) + exp) ≤ 10 ^ (-331 : ℤ) :=
      zpow_le_zpow_right₀ (by norm_num) (by omega)
    linarith
  unfold ofDecimal
  rw [if_neg digitsPos.ne']
  dsimp only
  rw [if_neg (by omega), if_neg (by omega)]
  split
  · rename_i nonneg
    apply ofRatio_eq_of_roundsTo finite (Nat.mul_pos digitsPos (Nat.pow_pos (by norm_num)))
      one_pos
    convert rounds using 1
    rw [Nat.cast_one, div_one, Nat.cast_mul, Nat.cast_pow, ← zpow_natCast,
      Int.toNat_of_nonneg nonneg]
    norm_num
  · rename_i negative
    apply ofRatio_eq_of_roundsTo finite digitsPos (Nat.pow_pos (by norm_num))
    convert rounds using 1
    rw [Nat.cast_pow, ← zpow_natCast, Int.toNat_of_nonneg (by omega), zpow_neg,
      div_eq_mul_inv]
    norm_num

end Ingest.Binary64
