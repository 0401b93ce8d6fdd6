import Ingest.Proofs.Number.Rounding

/-!
Contract: the shortest digits of a finite value lie in its rounding interval.

Owns: `compareScaled` as an exact comparison of `a · 10^t` with `b · 2^p`, so that `readsBack`
decides membership in the interval `RoundsTo`; `floorScaled` as a floor; the decade estimate,
which is never more than four decades too high and which `fixDecade` moves down until it is not
above the value; the grid `10^(d - 16)`, finer than every rounding interval, where the search
must hit; and the trailing zeros that `dropTrailingZeros` removes without changing the value.

Does not own: the rounding interval itself and why a decimal in it reads back, which are
`Number.Rounding`, or how the digits are written.
-/

namespace Ingest.Binary64

variable {x : Binary64}

/-! ### Exact comparison -/

theorem zpow_eq_div_toNat {b : ℚ} (nonzero : b ≠ 0) (t : ℤ) :
    b ^ t = b ^ t.toNat / b ^ (-t).toNat := by
  rw [← zpow_natCast, ← zpow_natCast, ← zpow_sub₀ nonzero]
  congr 1
  omega

/-- The two sides that `compareScaled` compares are `a · 10^t` and `b · 2^p`, both multiplied
by `10^-t · 2^-p` made whole. -/
theorem compareScaled_sides (a b : ℕ) (t p : ℤ) :
    ((a * Nat.pow 10 t.toNat * Nat.pow 2 (-p).toNat : ℕ) : ℚ) =
        a * 10 ^ t * (10 ^ (-t).toNat * 2 ^ (-p).toNat) ∧
      ((b * Nat.pow 2 p.toNat * Nat.pow 10 (-t).toNat : ℕ) : ℚ) =
        b * 2 ^ p * (10 ^ (-t).toNat * 2 ^ (-p).toNat) := by
  rw [zpow_eq_div_toNat (by norm_num) t, zpow_eq_div_toNat (by norm_num) p]
  have ten : (10 : ℚ) ^ (-t).toNat ≠ 0 := pow_ne_zero _ (by norm_num)
  have two : (2 : ℚ) ^ (-p).toNat ≠ 0 := pow_ne_zero _ (by norm_num)
  constructor <;> (push_cast [Nat.pow_eq]; field_simp)

theorem compareScaled_eq_lt_iff (a b : ℕ) (t p : ℤ) :
    compareScaled a t b p = .lt ↔ (a : ℚ) * 10 ^ t < b * 2 ^ p := by
  obtain ⟨left, right⟩ := compareScaled_sides a b t p
  have scale : (0 : ℚ) < 10 ^ (-t).toNat * 2 ^ (-p).toNat := by positivity
  rw [compareScaled, Nat.compare_eq_lt, ← Nat.cast_lt (α := ℚ), left, right,
    mul_lt_mul_iff_left₀ scale]

theorem compareScaled_eq_gt_iff (a b : ℕ) (t p : ℤ) :
    compareScaled a t b p = .gt ↔ (b : ℚ) * 2 ^ p < a * 10 ^ t := by
  obtain ⟨left, right⟩ := compareScaled_sides a b t p
  have scale : (0 : ℚ) < 10 ^ (-t).toNat * 2 ^ (-p).toNat := by positivity
  rw [compareScaled, Nat.compare_eq_gt, ← Nat.cast_lt (α := ℚ), left, right,
    mul_lt_mul_iff_left₀ scale]

/-- **What `readsBack` decides.** The decimal `a · 10^t` reads back as `x` exactly when it lies in
the rounding interval of `x`. -/
theorem readsBack_iff (nonzero : x.isZero = false) (a : ℕ) (t : ℤ) :
    x.readsBack a t = true ↔ RoundsTo (a * 10 ^ t) x := by
  have mPos := significand_pos nonzero
  have gap := x.lowGap_le_two
  have quarter : (2 : ℚ) ^ (x.exponent - 2) = 2 ^ x.exponent / 4 := by
    rw [zpow_sub₀ two_ne_zero]; norm_num
  have lowEq : (((4 * x.significand - x.lowGap : ℕ) : ℚ) * 2 ^ (x.exponent - 2)) =
      ((x.significand : ℚ) - x.lowGap / 4) * 2 ^ x.exponent := by
    rw [quarter, Nat.cast_sub (by omega)]; push_cast; ring
  have highEq : (((4 * x.significand + 2 : ℕ) : ℚ) * 2 ^ (x.exponent - 2)) =
      ((x.significand : ℚ) + 1 / 2) * 2 ^ x.exponent := by
    rw [quarter]; push_cast; ring
  unfold readsBack RoundsTo
  dsimp only
  split
  · simp only [Bool.and_eq_true, bne_iff_ne, ne_eq, compareScaled_eq_lt_iff,
      compareScaled_eq_gt_iff, not_lt, lowEq, highEq]
  · simp only [Bool.and_eq_true, beq_iff_eq, compareScaled_eq_lt_iff, compareScaled_eq_gt_iff,
      lowEq, highEq]

theorem floorScaled_eq (x : Binary64) (t : ℤ) :
    x.floorScaled t = ⌊(x.significand * 2 ^ x.exponent / 10 ^ t : ℚ)⌋₊ := by
  unfold floorScaled
  dsimp only
  rw [← Nat.floor_div_eq_div (K := ℚ)]
  congr 1
  rw [zpow_eq_div_toNat (by norm_num) x.exponent, zpow_eq_div_toNat (by norm_num) t]
  have : (10 : ℚ) ^ (-t).toNat ≠ 0 := pow_ne_zero _ (by norm_num)
  have : (2 : ℚ) ^ (-x.exponent).toNat ≠ 0 := pow_ne_zero _ (by norm_num)
  have : (10 : ℚ) ^ t.toNat ≠ 0 := pow_ne_zero _ (by norm_num)
  push_cast [Nat.pow_eq]
  field_simp

/-! ### The decade -/

/-- The decade estimate `⌊b · 0.30103⌋` is at most four above the decade of `2^b`, over the
whole range of binades: `2^10 ≥ 10^3` above `1`, `2^250 ≤ 10^76` below. -/
theorem decadeEstimate_le {b : ℤ} (low : -1300 ≤ b) (high : b ≤ 3800) :
    (10 : ℚ) ^ (b * 30103 / 100000 - 4) ≤ 2 ^ b := by
  have floorLe := Int.ediv_mul_le (b * 30103) (by norm_num : (100000 : ℤ) ≠ 0)
  rcases le_or_gt 0 b with up | down
  · -- `10 · (E - 4) ≤ 3 · b`, and `10^3 ≤ 2^10`
    rcases lt_or_ge (b * 30103 / 100000 - 4) 0 with neg | nonneg
    · calc (10 : ℚ) ^ (b * 30103 / 100000 - 4) ≤ 1 := zpow_le_one_of_nonpos₀ (by norm_num) neg.le
        _ ≤ 2 ^ b := one_le_zpow₀ one_le_two up
    obtain ⟨k, hk⟩ := Int.eq_ofNat_of_zero_le nonneg
    obtain ⟨c, rfl⟩ := Int.eq_ofNat_of_zero_le up
    rw [hk, zpow_natCast, zpow_natCast]
    have tenth : 10 * k ≤ 3 * c := by omega
    have : (10 ^ k) ^ 10 ≤ (2 ^ c) ^ 10 :=
      calc (10 ^ k) ^ 10 = 10 ^ (10 * k) := by rw [← pow_mul, mul_comm]
        _ ≤ 10 ^ (3 * c) := Nat.pow_le_pow_right (by norm_num) tenth
        _ = (10 ^ 3) ^ c := by rw [pow_mul]
        _ ≤ (2 ^ 10) ^ c := Nat.pow_le_pow_left (by norm_num) c
        _ = (2 ^ c) ^ 10 := by rw [← pow_mul, ← pow_mul, mul_comm]
    exact_mod_cast (Nat.pow_le_pow_iff_left (by norm_num)).mp this
  · -- `2^c ≤ 10^f` with `f = 4 - E`, from `76 · c ≤ 250 · f` and `2^250 ≤ 10^76`
    obtain ⟨c, hc⟩ := Int.eq_ofNat_of_zero_le (show 0 ≤ -b by omega)
    obtain ⟨f, hf⟩ := Int.eq_ofNat_of_zero_le (show 0 ≤ 4 - b * 30103 / 100000 by omega)
    have scaled : 76 * c ≤ 250 * f := by omega
    have : (2 ^ c) ^ 250 ≤ (10 ^ f) ^ 250 :=
      calc (2 ^ c) ^ 250 = (2 ^ 250) ^ c := by rw [← pow_mul, ← pow_mul, mul_comm]
        _ ≤ (10 ^ 76) ^ c := Nat.pow_le_pow_left (by norm_num) c
        _ = 10 ^ (76 * c) := by rw [← pow_mul, mul_comm]
        _ ≤ 10 ^ (250 * f) := Nat.pow_le_pow_right (by norm_num) scaled
        _ = (10 ^ f) ^ 250 := by rw [← pow_mul, mul_comm]
    have whole : (2 : ℚ) ^ c ≤ 10 ^ f := by
      exact_mod_cast (Nat.pow_le_pow_iff_left (by norm_num)).mp this
    have : b * 30103 / 100000 - 4 = -(f : ℤ) := by omega
    rw [this, show b = -(c : ℤ) by omega, zpow_neg, zpow_neg, zpow_natCast, zpow_natCast]
    exact inv_anti₀ (by positivity) whole

/-- Each step of `fixDecade` keeps `10^(d - fuel) ≤ x`, and the step that stops has `10^d ≤ x`. -/
theorem pow_fixDecade_le :
    ∀ (fuel : ℕ) (d : ℤ), (10 : ℚ) ^ (d - fuel) ≤ x.significand * 2 ^ x.exponent →
      (10 : ℚ) ^ x.fixDecade fuel d ≤ x.significand * 2 ^ x.exponent
  | 0, d, start => by simpa [fixDecade] using start
  | fuel + 1, d, start => by
      unfold fixDecade
      split
      · rename_i tooHigh
        exact pow_fixDecade_le fuel (d - 1) (by rw [show d - 1 - fuel = d - (fuel + 1 : ℕ) by omega]; exact start)
      · rename_i notHigh
        have atMost : (10 : ℚ) ^ d ≤ x.significand * 2 ^ x.exponent := by
          simpa [beq_iff_eq, compareScaled_eq_gt_iff] using notHigh
        split
        · rename_i nextFits
          have nextLe : (10 : ℚ) ^ (d + 1) ≤ x.significand * 2 ^ x.exponent := by
            simpa [bne_iff_ne, compareScaled_eq_gt_iff] using nextFits
          refine pow_fixDecade_le fuel (d + 1) (le_trans ?_ nextLe)
          exact zpow_le_zpow_right₀ (by norm_num) (by omega)
        · exact atMost

/-- **The decade is not above `x`.** `10^(decade x) ≤ x`: the estimate from the binade is at most
four decades too high, and each of the four steps moves one decade down when it is too high. -/
theorem pow_decade_le (nonzero : x.isZero = false) :
    (10 : ℚ) ^ x.decade ≤ x.significand * 2 ^ x.exponent := by
  have mPos := significand_pos nonzero
  have mLt := x.significand_lt
  have logLt : Nat.log2 x.significand < 53 := by
    rw [Nat.log2_lt (by omega)]; rw [hiddenBit_eq] at mLt; omega
  have qGe := exponent_ge x
  have qLe : x.exponent ≤ 2047 := by unfold exponent; split <;> have := x.exponentField_lt <;> omega
  unfold decade
  apply pow_fixDecade_le
  obtain ⟨binadeLow, -⟩ := log2_bounds mPos
  calc (10 : ℚ) ^ ((Nat.log2 x.significand + x.exponent) * 30103 / 100000 - (4 : ℕ))
      ≤ 2 ^ (Nat.log2 x.significand + x.exponent : ℤ) := decadeEstimate_le (by omega) (by omega)
    _ = 2 ^ (Nat.log2 x.significand : ℤ) * 2 ^ x.exponent := zpow_add₀ two_ne_zero _ _
    _ ≤ x.significand * 2 ^ x.exponent := by gcongr

/-! ### The search -/

/-- One of the two neighbours of `x` on a grid finer than its rounding interval reads back. -/
theorem readsBack_floorScaled (nonzero : x.isZero = false) {t : ℤ}
    (fine : (10 : ℚ) ^ t * 10 ^ 16 ≤ x.significand * 2 ^ x.exponent) :
    x.readsBack (x.floorScaled t) t = true ∨ x.readsBack (x.floorScaled t + 1) t = true := by
  rw [readsBack_iff nonzero, readsBack_iff nonzero]
  set v : ℚ := x.significand * 2 ^ x.exponent with hv
  have grid : (0 : ℚ) < 10 ^ t := zpow_pos (by norm_num) t
  have unit : (0 : ℚ) < 2 ^ x.exponent := zpow_pos two_pos _
  have floorLe : (x.floorScaled t : ℚ) * 10 ^ t ≤ v := by
    rw [floorScaled_eq, ← le_div_iff₀ grid]
    exact Nat.floor_le (by positivity)
  have ltFloor : v < ((x.floorScaled t : ℚ) + 1) * 10 ^ t := by
    rw [floorScaled_eq, ← div_lt_iff₀ grid]
    exact Nat.lt_floor_add_one _
  have mLt : (x.significand : ℚ) < 2 ^ 53 := by
    have := x.significand_lt; rw [hiddenBit_eq] at this; exact_mod_cast this
  -- the grid step is below the width `(gap/4 + 1/2) · 2^q` of the interval
  have narrow : (10 : ℚ) ^ t < (x.lowGap / 4 + 1 / 2) * 2 ^ x.exponent := by
    rcases lowGap_cases x with ⟨g, m, -⟩ | ⟨g, -⟩
    · have fine' : (10 : ℚ) ^ t * 10 ^ 16 ≤ 4503599627370496 * 2 ^ x.exponent := by
        rw [hv, m, hiddenBit_eq] at fine; exact_mod_cast fine
      rw [g]
      push_cast
      nlinarith
    · rw [g]
      push_cast
      nlinarith
  have gapPos : (1 : ℚ) ≤ x.lowGap := by
    rcases lowGap_cases x with ⟨g, -⟩ | ⟨g, -⟩ <;> rw [g] <;> norm_num
  by_cases above : ((x.significand : ℚ) - x.lowGap / 4) * 2 ^ x.exponent < x.floorScaled t * 10 ^ t
  · left
    exact roundsTo_of_lt_of_lt above (by nlinarith)
  · right
    push_cast
    exact roundsTo_of_lt_of_lt (by nlinarith) (by nlinarith)

theorem nearer_cases (x : Binary64) (a : ℕ) (t : ℤ) : x.nearer a t = a ∨ x.nearer a t = a + 1 := by
  unfold nearer
  split
  · exact .inl rfl
  · exact .inr rfl
  · split
    · exact .inl rfl
    · exact .inr rfl

/-- **The search ends on a decimal that reads back.** Started at a decade `d` with `10^d ≤ x`,
the grid `10^(d - 16)` is finer than the rounding interval, so the search stops there at the
latest, and it stops only on a hit. -/
theorem readsBack_searchGrids (nonzero : x.isZero = false) {d : ℤ}
    (decadeLe : (10 : ℚ) ^ d ≤ x.significand * 2 ^ x.exponent) :
    ∀ (fuel n : ℕ), n + fuel = 17 → 0 < fuel →
      x.readsBack (x.searchGrids d fuel n).1 (x.searchGrids d fuel n).2 = true
  | fuel + 1, n, budget, _ => by
      unfold searchGrids
      dsimp only
      cases below : x.readsBack (x.floorScaled (d - n)) (d - n) <;>
        cases above : x.readsBack (x.floorScaled (d - n) + 1) (d - n)
      · -- a miss: the last grid always hits, so fuel is left
        have more : 0 < fuel := by
          rcases Nat.eq_zero_or_pos fuel with none | some
          · have last : n = 16 := by omega
            have fine : (10 : ℚ) ^ (d - n) * 10 ^ 16 ≤ x.significand * 2 ^ x.exponent := by
              rw [last, ← zpow_natCast, ← zpow_add₀ (by norm_num)]; simpa using decadeLe
            rcases readsBack_floorScaled nonzero fine with hit | hit
            · rw [below] at hit; contradiction
            · rw [above] at hit; contradiction
          · exact some
        exact readsBack_searchGrids nonzero decadeLe fuel (n + 1) (by omega) more
      · exact above
      · exact below
      · rcases nearer_cases x (x.floorScaled (d - n)) (d - n) with same | same <;> rw [same]
        · exact below
        · exact above

/-- Dropping trailing zeros keeps the value of a decimal. -/
theorem dropTrailingZeros_value :
    ∀ (fuel a : ℕ) (t : ℤ),
      ((dropTrailingZeros fuel a t).1 : ℚ) * 10 ^ (dropTrailingZeros fuel a t).2 = a * 10 ^ t
  | 0, a, t => rfl
  | fuel + 1, a, t => by
      unfold dropTrailingZeros
      split
      · rename_i zeros
        rw [dropTrailingZeros_value fuel (a / 10) (t + 1), zpow_add₀ (by norm_num)]
        have : a = a / 10 * 10 := (Nat.div_mul_cancel (Nat.dvd_of_mod_eq_zero zeros.2)).symm
        conv_rhs => rw [this]
        push_cast
        ring
      · rfl

/-- **The shortest digits read back.** The decimal that `shortest` gives lies in the rounding
interval of the nonzero finite value it was computed from. -/
theorem shortest_roundsTo (nonzero : x.isZero = false) :
    RoundsTo (x.shortest.1 * 10 ^ x.shortest.2) x := by
  have hit := readsBack_searchGrids nonzero (pow_decade_le nonzero) 17 0 rfl (by norm_num)
  rw [readsBack_iff nonzero] at hit
  unfold shortest
  generalize x.searchGrids x.decade 17 0 = found at hit ⊢
  obtain ⟨a, t⟩ := found
  dsimp only at hit ⊢
  rw [dropTrailingZeros_value]
  exact hit

theorem shortest_fst_pos (nonzero : x.isZero = false) : 0 < x.shortest.1 := by
  have := (shortest_roundsTo nonzero).pos nonzero
  by_contra zero
  simp_all

end Ingest.Binary64
