import Mathlib
import Ingest.Proofs.Number.Rounding
import Ingest.Proofs.Value.Slots

/-!
Contract: loose equality of value trees whose maps hold one entry per slot is equality as a host
program compares documents (`Value.looseEq_iff_equal`).

Owns: what a floating point number stands for when numbers are compared, an extended rational
(`Binary64.extended`), and that a rational has one normalised form, so finite numbers with one
value are one number, zeros apart (`Binary64.eq_of_value_eq`); that equality of numbers and of a
number with an integer is equality of what they stand for (`Binary64.sameValue_iff`,
`Binary64.eqInt_iff`), hence loose equality of scalars as a host program has it
(`Scalar.looseEq_iff`); maps with one entry per slot, where a lookup finds the entry of its slot
and slots covered entry by entry are no more than the entries that cover them; and the relation
`Value.Equal`, by slots on keys and loosely on values, with the trees it is decided on
(`Value.Keyed`).

Does not own: that reading builds trees with one entry per slot; that is
`Relaxed.DocumentEquality`.
-/

namespace Ingest

namespace Binary64

variable {x y : Binary64}

/-- The exact value of a number read off its fields: `± m · 2^q` with its significand `m` and
exponent `q`. For a finite number this is the number; for the others it means nothing. -/
def value (x : Binary64) : ℚ :=
  (if x.negative then -1 else 1) * x.significand * 2 ^ x.exponent

/-- What a number stands for when numbers are compared: its exact value when it is finite, an
infinity of its sign, and nothing for not-a-number, which equals no number. -/
def extended (x : Binary64) : Option (WithBot (WithTop ℚ)) :=
  if x.isNaN then none
  else if x.isFinite then some (x.value : WithTop ℚ)
  else some (if x.negative then ⊥ else ⊤)

theorem significand_eq_zero_iff : x.significand = 0 ↔ x.isZero = true := by
  have := hiddenBit_eq
  simp only [significand, isZero, Bool.and_eq_true, beq_iff_eq]
  split <;> omega

theorem value_eq_zero_iff : x.value = 0 ↔ x.isZero = true := by
  have unit : (2 : ℚ) ^ x.exponent ≠ 0 := zpow_ne_zero _ two_ne_zero
  have sign : (if x.negative then -1 else 1 : ℚ) ≠ 0 := by split <;> norm_num
  rw [← significand_eq_zero_iff, value, mul_assoc, mul_eq_zero, mul_eq_zero, or_iff_right sign,
    or_iff_left unit, Nat.cast_eq_zero]

theorem magnitude_pos (nonzero : x.isZero = false) : 0 < (x.significand : ℚ) * 2 ^ x.exponent := by
  have : 0 < x.significand := significand_pos nonzero
  positivity

theorem value_eq_signed (x : Binary64) :
    x.value = (if x.negative then -1 else 1) * ((x.significand : ℚ) * 2 ^ x.exponent) := by
  rw [value, mul_assoc]

/-- A nonzero number is negative exactly when its value is. -/
theorem value_neg_iff (nonzero : x.isZero = false) : x.value < 0 ↔ x.negative = true := by
  have magnitude := magnitude_pos nonzero
  rw [value_eq_signed]
  cases x.negative with
  | false =>
    rw [if_neg Bool.false_ne_true, one_mul]
    exact ⟨fun below => absurd below (not_lt.mpr magnitude.le), fun sign => absurd sign Bool.false_ne_true⟩
  | true =>
    rw [if_pos rfl, neg_one_mul, neg_lt_zero]
    exact ⟨fun _ => rfl, fun _ => magnitude⟩

/-- The significand and exponent of a number are normalised: the significand is below `2^53`,
and at least `2^52` unless the exponent is the least one, `-1074`. -/
theorem normalised (x : Binary64) :
    x.significand < 2 * hiddenBit ∧ -1074 ≤ x.exponent ∧
      (x.exponent = -1074 ∨ hiddenBit ≤ x.significand) := by
  refine ⟨x.significand_lt, x.exponent_ge, ?_⟩
  by_cases sub : x.exponentField = 0
  · exact .inl (by simp [exponent, sub])
  · exact .inr (hiddenBit_le_significand sub)

/-- Of two normalised forms `m · 2^q` of one rational, neither has the smaller exponent: the
one with the larger exponent has a significand of at least `2^52`, so the other would need one
of at least `2^53`. -/
theorem not_lt_of_scaled {m m' : ℕ} {q q' : ℤ} (small : m < 2 * hiddenBit) (least : -1074 ≤ q)
    (normal' : q' = -1074 ∨ hiddenBit ≤ m') (same : (m : ℚ) * 2 ^ q = m' * 2 ^ q') :
    ¬q < q' := by
  intro lower
  have big : hiddenBit ≤ m' := normal'.resolve_left (by omega)
  obtain ⟨d, gap⟩ : ∃ d : ℕ, q' = q + (d + 1 : ℕ) := ⟨(q' - q - 1).toNat, by omega⟩
  have scaled : (m : ℚ) = m' * 2 ^ (d + 1) := by
    have unit : (2 : ℚ) ^ q ≠ 0 := zpow_ne_zero _ two_ne_zero
    rw [gap, zpow_add₀ two_ne_zero, zpow_natCast] at same
    exact mul_right_cancel₀ unit (by rw [same]; ring)
  have inNat : m = m' * 2 ^ (d + 1) := by exact_mod_cast scaled
  have twice : m' * 2 ≤ m' * 2 ^ (d + 1) :=
    Nat.mul_le_mul_left _ (Nat.le_self_pow (Nat.succ_ne_zero d) 2)
  omega

/-- **A rational has one normalised form.** -/
theorem scaled_inj {m m' : ℕ} {q q' : ℤ} (small : m < 2 * hiddenBit) (small' : m' < 2 * hiddenBit)
    (least : -1074 ≤ q) (least' : -1074 ≤ q') (normal : q = -1074 ∨ hiddenBit ≤ m)
    (normal' : q' = -1074 ∨ hiddenBit ≤ m') (same : (m : ℚ) * 2 ^ q = m' * 2 ^ q') :
    m = m' ∧ q = q' := by
  have exponents : q = q' :=
    le_antisymm (not_lt.mp (not_lt_of_scaled small' least' normal same.symm))
      (not_lt.mp (not_lt_of_scaled small least normal' same))
  subst exponents
  exact ⟨by exact_mod_cast mul_right_cancel₀ (zpow_ne_zero _ two_ne_zero) same, rfl⟩

/-- **Finite numbers with one value are one number**, zeros of both signs apart. -/
theorem eq_of_value_eq (finite : x.isFinite = true) (finite' : y.isFinite = true)
    (nonzero : x.isZero = false) (same : x.value = y.value) : x = y := by
  have nonzero' : y.isZero = false := by
    rw [← Bool.not_eq_true, ← value_eq_zero_iff, ← same, value_eq_zero_iff]
    simp [nonzero]
  -- the sign of a nonzero number is the sign of its value
  have signs : x.negative = y.negative := by
    rw [Bool.eq_iff_iff, ← value_neg_iff nonzero, ← value_neg_iff nonzero', same]
  rw [value_eq_signed, value_eq_signed] at same
  have magnitudes : (x.significand : ℚ) * 2 ^ x.exponent = y.significand * 2 ^ y.exponent := by
    rw [signs] at same
    exact mul_left_cancel₀ (by split <;> norm_num) same
  obtain ⟨small, least, normal⟩ := x.normalised
  obtain ⟨small', least', normal'⟩ := y.normalised
  obtain ⟨significands, exponents⟩ := scaled_inj small small' least least' normal normal' magnitudes
  rw [← place_significand finite, ← place_significand finite', signs, significands, exponents]

theorem extended_eq_none_iff : x.extended = none ↔ x.isNaN = true := by
  unfold extended
  split
  · simp [*]
  · split <;> simp [*]

theorem extended_of_finite (finite : x.isFinite = true) :
    x.extended = some ((x.value : WithTop ℚ) : WithBot (WithTop ℚ)) := by
  rw [extended, if_neg (by simp [isNaN_of_isFinite finite]), if_pos finite]

theorem extended_of_infinite (number : x.isNaN = false) (infinite : x.isFinite = false) :
    x.extended = some (if x.negative then ⊥ else ⊤) := by
  rw [extended, if_neg (by simp [number]), if_neg (by simp [infinite])]

/-- No infinity is a rational. -/
theorem infinity_ne_coe (neg : Bool) (r : ℚ) :
    (if neg then ⊥ else ⊤ : WithBot (WithTop ℚ)) ≠ ((r : WithTop ℚ) : WithBot (WithTop ℚ)) := by
  cases neg with
  | true => exact WithBot.bot_ne_coe
  | false => exact fun top => WithTop.top_ne_coe (WithBot.coe_inj.mp top)

/-- A number stands for a rational exactly when it is finite with that value. -/
theorem extended_eq_coe_iff (r : ℚ) :
    x.extended = some ((r : WithTop ℚ) : WithBot (WithTop ℚ)) ↔ x.isFinite = true ∧ x.value = r := by
  unfold extended
  by_cases nan : x.isNaN = true
  · have : x.isFinite = false := by
      cases finite : x.isFinite
      · rfl
      · rw [isNaN_of_isFinite finite] at nan; cases nan
    simp [nan, this]
  · by_cases finite : x.isFinite = true
    · simp [nan, finite]
    · have infinite : x.isFinite = false := by simpa using finite
      rw [if_neg nan, if_neg finite]
      simp only [Option.some.injEq, infinite, Bool.false_eq_true, false_and, iff_false]
      exact infinity_ne_coe x.negative r

/-- An infinity is its sign: the exponent field is full and the fraction empty. -/
theorem fields_of_infinite (number : x.isNaN = false) (infinite : x.isFinite = false) :
    x.exponentField = 2047 ∧ x.fractionField = 0 := by
  simp only [isNaN, isFinite, bne_eq_false_iff_eq, Bool.and_eq_false_iff, beq_eq_false_iff_ne]
    at number infinite
  exact ⟨infinite, number.resolve_left (by simp [infinite])⟩

/-- Two infinities of one sign are one number. -/
theorem eq_of_infinite (number : x.isNaN = false) (infinite : x.isFinite = false)
    (number' : y.isNaN = false) (infinite' : y.isFinite = false) (signs : x.negative = y.negative) :
    x = y := by
  obtain ⟨field, fraction⟩ := fields_of_infinite number infinite
  obtain ⟨field', fraction'⟩ := fields_of_infinite number' infinite'
  rw [← ofFields_fields x, ← ofFields_fields y, signs, field, field', fraction, fraction']

theorem isFinite_of_isZero (zero : x.isZero = true) : x.isFinite = true := by
  simp only [isZero, Bool.and_eq_true, beq_iff_eq] at zero
  simp [isFinite, zero.1]

theorem isNaN_eq_false_of_extended {q : WithBot (WithTop ℚ)} (stands : x.extended = some q) :
    x.isNaN = false := by
  cases nan : x.isNaN
  · rfl
  · rw [extended_eq_none_iff.mpr nan] at stands
    cases stands

/-- A number that stands for an infinity is not finite. -/
theorem isFinite_eq_false_of_extended {neg : Bool}
    (stands : x.extended = some (if neg then ⊥ else ⊤)) : x.isFinite = false := by
  cases finite : x.isFinite
  · rfl
  · rw [extended_of_finite finite, Option.some.injEq] at stands
    exact absurd stands.symm (infinity_ne_coe neg x.value)

theorem sign_eq_of_infinity {a b : Bool}
    (same : (if a then ⊥ else ⊤ : WithBot (WithTop ℚ)) = if b then ⊥ else ⊤) : a = b := by
  cases a <;> cases b <;> simp at same ⊢

/-- **Numbers that stand for one extended rational are one number**, or both are zeros. -/
theorem eq_of_extended_eq {q : WithBot (WithTop ℚ)} (stands : x.extended = some q)
    (stands' : y.extended = some q) : x = y ∨ (x.isZero = true ∧ y.isZero = true) := by
  by_cases finite : x.isFinite = true
  · -- a finite number stands for its value, so the other is finite with that value
    rw [extended_of_finite finite] at stands
    obtain rfl := Option.some.inj stands
    obtain ⟨finite', same⟩ := (extended_eq_coe_iff _).mp stands'
    by_cases zero : x.isZero = true
    · exact .inr ⟨zero, value_eq_zero_iff.mp (same.trans (value_eq_zero_iff.mpr zero))⟩
    · exact .inl (eq_of_value_eq finite finite' (by simpa using zero) same.symm)
  · -- an infinity stands for one of its sign, so the other is the infinity of that sign
    have number := isNaN_eq_false_of_extended stands
    have number' := isNaN_eq_false_of_extended stands'
    have infinite : x.isFinite = false := by simpa using finite
    rw [extended_of_infinite number infinite] at stands
    obtain rfl := Option.some.inj stands
    have infinite' := isFinite_eq_false_of_extended stands'
    rw [extended_of_infinite number' infinite', Option.some.injEq] at stands'
    exact .inl (eq_of_infinite number infinite number' infinite' (sign_eq_of_infinity stands'.symm))

/-- **Equal as numbers is equal in what they stand for**: two numbers are equal as numbers
exactly when both stand for one extended rational, so not-a-number equals nothing and the two
zeros are equal. -/
theorem sameValue_iff : x.sameValue y = true ↔ ∃ q, x.extended = some q ∧ y.extended = some q := by
  by_cases nan : x.isNaN = true
  · simp [sameValue, nan, extended_eq_none_iff.mpr nan]
  by_cases nan' : y.isNaN = true
  · simp [sameValue, nan', extended_eq_none_iff.mpr nan']
  have number : x.isNaN = false := by simpa using nan
  have number' : y.isNaN = false := by simpa using nan'
  simp only [sameValue, number, number', Bool.not_false, Bool.true_and, Bool.or_eq_true,
    beq_iff_eq, Bool.and_eq_true]
  constructor
  · rintro (rfl | ⟨zero, zero'⟩)
    · cases stands : x.extended with
      | none => exact absurd (extended_eq_none_iff.mp stands) nan
      | some q => exact ⟨q, rfl, rfl⟩
    · refine ⟨_, extended_of_finite (isFinite_of_isZero zero), ?_⟩
      rw [extended_of_finite (isFinite_of_isZero zero'), value_eq_zero_iff.mpr zero,
        value_eq_zero_iff.mpr zero']
  · rintro ⟨q, stands, stands'⟩
    exact eq_of_extended_eq stands stands'

/-- A fraction of naturals is a natural `k` exactly when the division leaves nothing and gives
`k`. -/
theorem ratio_eq_nat {num den : ℕ} (positive : 0 < den) (k : ℕ) :
    (num : ℚ) / den = k ↔ num % den = 0 ∧ num / den = k := by
  rw [div_eq_iff (by positivity)]
  constructor
  · intro scaled
    have inNat : num = k * den := by exact_mod_cast scaled
    subst inNat
    exact ⟨Nat.mul_mod_left k den, Nat.mul_div_cancel k positive⟩
  · rintro ⟨exact, quotient⟩
    have whole := Nat.div_add_mod num den
    rw [exact, quotient, Nat.add_zero] at whole
    rw [← whole]
    push_cast
    ring

/-- A positive rational with a sign is an integer `n` exactly when the sign is that of `n` and
the rational is the absolute value of `n`. -/
theorem signed_eq_int {r : ℚ} (positive : 0 < r) (neg : Bool) (n : ℤ) :
    (if neg then -1 else 1) * r = n ↔ neg = decide (n < 0) ∧ r = n.natAbs := by
  rw [Nat.cast_natAbs, Int.cast_abs]
  cases neg with
  | false =>
    rw [if_neg Bool.false_ne_true, one_mul]
    constructor
    · intro same
      have : (0 : ℚ) < n := same ▸ positive
      have : 0 < n := by exact_mod_cast this
      exact ⟨by simp; omega, by rw [same, abs_of_pos (by exact_mod_cast this)]⟩
    · rintro ⟨sign, same⟩
      have : 0 ≤ n := by simpa using sign
      rw [same, abs_of_nonneg (by exact_mod_cast this)]
  | true =>
    rw [if_pos rfl, neg_one_mul]
    constructor
    · intro same
      have : (n : ℚ) < 0 := by linarith
      have : n < 0 := by exact_mod_cast this
      exact ⟨by simp [this], by rw [abs_of_neg (by exact_mod_cast this)]; linarith⟩
    · rintro ⟨sign, same⟩
      have : n < 0 := by simpa using sign.symm
      rw [same, abs_of_neg (by exact_mod_cast this), neg_neg]

theorem toRatio_eq (x : Binary64) :
    x.toRatio = (x.significand * (powTwo x.exponent).1, (powTwo x.exponent).2) := rfl

/-- **Comparing a number with an integer is exact**: a number equals an integer exactly when it
is finite and its value is that integer. -/
theorem eqInt_iff (x : Binary64) (n : ℤ) : x.eqInt n = true ↔ x.isFinite = true ∧ x.value = n := by
  unfold eqInt
  by_cases finite : x.isFinite = true
  · rw [if_neg (by simp [finite])]
    by_cases zero : x.isZero = true
    · rw [if_pos zero, value_eq_zero_iff.mpr zero]
      simp only [finite, true_and, beq_iff_eq]
      exact ⟨fun zeroInt => by rw [zeroInt, Int.cast_zero],
        fun zeroRat => by exact_mod_cast zeroRat.symm⟩
    · rw [if_neg zero, toRatio_eq]
      dsimp only
      have unit := powTwo_fst_div_snd x.exponent
      have denominator := (powTwo_pos x.exponent).2
      have magnitude : (x.significand : ℚ) * 2 ^ x.exponent =
          ((x.significand * (powTwo x.exponent).1 : ℕ) : ℚ) / (powTwo x.exponent).2 := by
        rw [← unit]
        push_cast
        ring
      have positive := magnitude ▸ magnitude_pos (by simpa using zero)
      rw [value_eq_signed, magnitude, signed_eq_int positive, ratio_eq_nat denominator]
      simp only [finite, true_and, Bool.and_eq_true, beq_iff_eq, and_assoc]
  · have infinite : x.isFinite = false := by simpa using finite
    simp [infinite]

end Binary64

namespace Scalar

/-- The number a scalar stands for: a boolean is 1 or 0, an integer itself, and a floating point
number what it stands for; null and texts are no numbers. -/
def number? : Scalar → Option (WithBot (WithTop ℚ))
  | .bool b => some (((if b then 1 else 0 : ℚ) : WithTop ℚ) : WithBot (WithTop ℚ))
  | .int n => some (((n : ℚ) : WithTop ℚ) : WithBot (WithTop ℚ))
  | .float x => x.extended
  | .null | .str _ => none

/-- Equality of scalars as a host program compares them: null equals only null, a text equals
the same text, and booleans, integers and floating point numbers equal one another when they
stand for the same number, so `true`, `1` and `1.0` are equal, and so are `0.0` and `-0.0`. A
text never equals a number. -/
def Equal (a b : Scalar) : Prop :=
  (a = .null ∧ b = .null) ∨ (∃ s, a = .str s ∧ b = .str s) ∨
    ∃ q, a.number? = some q ∧ b.number? = some q

theorem extended_eq_int_iff (x : Binary64) (n : ℤ) :
    x.extended = some (((n : ℚ) : WithTop ℚ) : WithBot (WithTop ℚ)) ↔ x.eqInt n = true := by
  rw [Binary64.eqInt_iff, Binary64.extended_eq_coe_iff]

theorem extended_eq_bool_iff (x : Binary64) (b : Bool) :
    x.extended = some (((if b then 1 else 0 : ℚ) : WithTop ℚ) : WithBot (WithTop ℚ)) ↔
      x.eqInt (if b then 1 else 0) = true := by
  rw [← extended_eq_int_iff]
  cases b <;> simp

theorem sameSlot_symm {a b : Scalar} (slot : a.sameSlot b = true) : b.sameSlot a = true :=
  (sameSlot_comm b a).trans slot

/-- **Loose equality of scalars is equality as a host program compares them.** -/
theorem looseEq_iff (a b : Scalar) : a.looseEq b = true ↔ a.Equal b := by
  cases a <;> cases b <;> simp [looseEq, Equal, number?, asInt?]
  case bool.bool b c => cases b <;> cases c <;> simp
  case bool.int b n => cases b <;> simp [eq_comm]
  case int.bool n b => cases b <;> simp [eq_comm]
  case int.int m n => exact eq_comm
  case str.str s t => exact eq_comm
  case bool.float b x => rw [extended_eq_bool_iff]
  case float.bool x b => rw [extended_eq_bool_iff]
  case int.float n x => rw [extended_eq_int_iff]
  case float.int x n => rw [extended_eq_int_iff]
  case float.float x y => exact Binary64.sameValue_iff

end Scalar

/-! ### Maps with one entry per slot -/

namespace Entries

variable {es fs : List (Scalar × Value)} {e f : Scalar × Value} {k : Scalar} {w : Value}

/-- In entries whose slots are apart, two entries that share a slot are one entry. -/
theorem eq_of_sameSlot (apart : es.Pairwise fun a b => a.1.sameSlot b.1 = false) (member : e ∈ es)
    (member' : f ∈ es) (slot : e.1.sameSlot f.1 = true) : e = f := by
  induction es with
  | nil => cases member
  | cons g es ih =>
    rw [List.pairwise_cons] at apart
    rcases List.mem_cons.mp member with rfl | later <;>
      rcases List.mem_cons.mp member' with rfl | later'
    · rfl
    · rw [apart.1 f later'] at slot
      cases slot
    · rw [Scalar.sameSlot_comm, apart.1 e later] at slot
      cases slot
    · exact ih apart.2 later later'

theorem get?_eq_some (found : get? es k = some w) : ∃ e ∈ es, e.1.sameSlot k = true ∧ e.2 = w := by
  obtain ⟨e, hit, rfl⟩ := Option.map_eq_some_iff.mp found
  exact ⟨e, List.mem_of_find?_eq_some hit, List.find?_some (p := fun e : Scalar × Value => e.1.sameSlot k) hit, rfl⟩

theorem get?_of_mem (apart : es.Pairwise fun a b => a.1.sameSlot b.1 = false) (member : e ∈ es)
    (slot : e.1.sameSlot k = true) : get? es k = some e.2 := by
  have found : (es.find? fun e => e.1.sameSlot k).isSome = true :=
    List.find?_isSome.mpr ⟨e, member, slot⟩
  obtain ⟨first, hit⟩ := Option.isSome_iff_exists.mp found
  have firstSlot : first.1.sameSlot k = true :=
    List.find?_some (p := fun e : Scalar × Value => e.1.sameSlot k) hit
  -- the first entry in the slot of `k` shares the slot of `e`, so it is `e`
  have same : first = e := eq_of_sameSlot apart (List.mem_of_find?_eq_some hit) member
    (Scalar.sameSlot_trans firstSlot (Scalar.sameSlot_symm slot))
  rw [get?, hit, same]
  rfl

/-- **Entries in different slots are no more than the entries that cover their slots.** Each
entry has one in its slot among `fs`, and no two of them have the same one. -/
theorem length_le_of_covered (apart : es.Pairwise fun a b => a.1.sameSlot b.1 = false)
    (covered : ∀ e ∈ es, ∃ f ∈ fs, e.1.sameSlot f.1 = true) : es.length ≤ fs.length := by
  classical
  induction es generalizing fs with
  | nil => exact Nat.zero_le _
  | cons e es ih =>
    rw [List.pairwise_cons] at apart
    obtain ⟨f, member, slot⟩ := covered e List.mem_cons_self
    -- the later entries are covered by the others of `fs`: none of them is in the slot of `e`
    have rest : ∀ e' ∈ es, ∃ g ∈ fs.erase f, e'.1.sameSlot g.1 = true := by
      intro e' later
      obtain ⟨g, member', slot'⟩ := covered e' (List.mem_cons_of_mem e later)
      refine ⟨g, (List.mem_erase_of_ne fun same => ?_).mpr member', slot'⟩
      subst same
      have shared : e.1.sameSlot e'.1 = true :=
        Scalar.sameSlot_trans slot (Scalar.sameSlot_symm slot')
      rw [apart.1 e' later] at shared
      cases shared
    have shorter := ih apart.2 rest
    rw [List.length_erase_of_mem member] at shorter
    have nonempty : 0 < fs.length := List.length_pos_of_mem member
    rw [List.length_cons]
    omega

theorem lastInSlot_eq_some {pairs : List (Scalar × Value)} (found : lastInSlot pairs k = some e) :
    e ∈ pairs ∧ e.1.sameSlot k = true :=
  ⟨List.mem_reverse.mp (List.mem_of_find?_eq_some found),
    List.find?_some (p := fun q : Scalar × Value => q.1.sameSlot k) found⟩

/-- The entries of a map built from pairs are pairs, one for each slot. -/
theorem ofPairs_keyed {pairs : List (Scalar × Value)} (own : ∀ p ∈ pairs, p.1.sameSlot p.1 = true) :
    (∀ e ∈ ofPairs pairs, e ∈ pairs) ∧
      (ofPairs pairs).Pairwise fun a b => a.1.sameSlot b.1 = false := by
  rw [ofPairs_eq_slots own]
  refine ⟨fun e member => ?_, (slotKeys_pairwise pairs).filterMap _ ?_⟩
  · obtain ⟨j, -, found⟩ := List.mem_filterMap.mp member
    exact (lastInSlot_eq_some found).1
  · -- the last pairs of two slots lie in those slots, so they share no slot
    intro j j' apart e found e' found'
    have slot := (lastInSlot_eq_some found).2
    have slot' := (lastInSlot_eq_some found').2
    cases shared : e.1.sameSlot e'.1
    · rfl
    · have : j.sameSlot j' = true := Scalar.sameSlot_trans
        (Scalar.sameSlot_trans (Scalar.sameSlot_symm slot) shared) slot'
      rw [apart] at this
      cases this

end Entries

/-! ### Equality of value trees -/

namespace Value

/-- **Equality of value trees as a host program compares documents.** Scalars are equal as
`Scalar.Equal` says; lists are equal when they have the same length and equal items in order;
maps are equal when they have the same slots, keys of different kinds lying in different slots,
and equal values in each slot, whatever the order of their entries. A scalar, a list and a map
never equal one another. -/
inductive Equal : Value → Value → Prop
  | scalar {a b : Scalar} (equal : a.Equal b) : Equal (.scalar a) (.scalar b)
  | list {xs ys : List Value} (length : xs.length = ys.length)
      (items : ∀ p ∈ xs.zip ys, Equal p.1 p.2) : Equal (.list xs) (.list ys)
  | map {es fs : List (Scalar × Value)}
      (slots : ∀ k : Scalar, (∃ e ∈ es, e.1.sameSlot k = true) ↔ (∃ f ∈ fs, f.1.sameSlot k = true))
      (values : ∀ e ∈ es, ∀ f ∈ fs, e.1.sameSlot f.1 = true → Equal e.2 f.2) :
      Equal (.map es) (.map fs)

/-- A value tree whose every map holds at most one entry for each slot and keys that share
their own slot (no key is not-a-number), at every depth: the trees that reading builds. -/
inductive Keyed : Value → Prop
  | scalar (s : Scalar) : Keyed (.scalar s)
  | list {xs : List Value} (items : ∀ x ∈ xs, Keyed x) : Keyed (.list xs)
  | map {es : List (Scalar × Value)} (own : ∀ e ∈ es, e.1.sameSlot e.1 = true)
      (apart : es.Pairwise fun a b => a.1.sameSlot b.1 = false) (values : ∀ e ∈ es, Keyed e.2) :
      Keyed (.map es)

theorem looseEq_list (xs ys : List Value) : looseEq (.list xs) (.list ys) = looseEqItems xs ys := rfl

theorem looseEq_map (es fs : List (Scalar × Value)) :
    looseEq (.map es) (.map fs) = (es.length == fs.length && looseEqEntries es fs) := rfl

theorem looseEqItems_iff (xs ys : List Value) :
    looseEqItems xs ys = true ↔ xs.length = ys.length ∧ ∀ p ∈ xs.zip ys, looseEq p.1 p.2 = true := by
  induction xs generalizing ys with
  | nil => cases ys <;> simp [looseEqItems]
  | cons x xs ih =>
    cases ys with
    | nil => simp [looseEqItems]
    | cons y ys =>
      rw [looseEqItems, Bool.and_eq_true, ih ys]
      simp only [List.length_cons, Nat.add_right_cancel_iff, List.zip_cons_cons,
        List.forall_mem_cons]
      tauto

theorem looseEqEntries_iff (es fs : List (Scalar × Value)) :
    looseEqEntries es fs = true ↔
      ∀ e ∈ es, ∃ w, Entries.get? fs e.1 = some w ∧ looseEq e.2 w = true := by
  induction es with
  | nil => simp [looseEqEntries]
  | cons e es ih =>
    obtain ⟨k, v⟩ := e
    rw [looseEqEntries, Bool.and_eq_true, ih, List.forall_mem_cons]
    cases found : Entries.get? fs k with
    | none => simp
    | some w => simp

theorem keyed_map {es : List (Scalar × Value)} (keyed : Keyed (.map es)) :
    (∀ e ∈ es, e.1.sameSlot e.1 = true) ∧ (es.Pairwise fun a b => a.1.sameSlot b.1 = false) ∧
      ∀ e ∈ es, Keyed e.2 := by
  cases keyed with
  | map own apart values => exact ⟨own, apart, values⟩

theorem keyed_list {xs : List Value} (keyed : Keyed (.list xs)) : ∀ x ∈ xs, Keyed x := by
  cases keyed with
  | list items => exact items

/-- Maps with one entry per slot whose slots are covered one way, entry by entry, and which have
as many entries, have the same slots. -/
theorem slots_of_covered {es fs : List (Scalar × Value)}
    (apart : es.Pairwise fun a b => a.1.sameSlot b.1 = false) (lengths : es.length = fs.length)
    (covered : ∀ e ∈ es, ∃ f ∈ fs, e.1.sameSlot f.1 = true) (k : Scalar) :
    (∃ e ∈ es, e.1.sameSlot k = true) ↔ (∃ f ∈ fs, f.1.sameSlot k = true) := by
  classical
  constructor
  · rintro ⟨e, member, slot⟩
    obtain ⟨f, member', slot'⟩ := covered e member
    exact ⟨f, member', Scalar.sameSlot_trans (Scalar.sameSlot_symm slot') slot⟩
  · rintro ⟨f, member, slot⟩
    by_contra missing
    -- without an entry in the slot of `f`, the entries are covered by the others of `fs`
    have others : ∀ e ∈ es, ∃ g ∈ fs.erase f, e.1.sameSlot g.1 = true := by
      intro e member'
      obtain ⟨g, found, slot'⟩ := covered e member'
      refine ⟨g, (List.mem_erase_of_ne fun same => missing ?_).mpr found, slot'⟩
      subst same
      exact ⟨e, member', Scalar.sameSlot_trans slot' slot⟩
    have fewer := Entries.length_le_of_covered apart others
    rw [List.length_erase_of_mem member] at fewer
    have nonempty : 0 < fs.length := List.length_pos_of_mem member
    omega

/-- Loosely equal trees with one entry per slot are equal. -/
theorem equal_of_looseEq {a : Value} (keyed : a.Keyed) :
    ∀ {b : Value}, b.Keyed → looseEq a b = true → a.Equal b := by
  induction keyed with
  | scalar s =>
    intro b keyed' loose
    cases b with
    | scalar t => exact .scalar ((Scalar.looseEq_iff s t).mp loose)
    | list ys => cases loose
    | map fs => cases loose
  | list items ih =>
    intro b keyed' loose
    cases b with
    | scalar t => cases loose
    | map fs => cases loose
    | list ys =>
      rw [looseEq_list, looseEqItems_iff] at loose
      refine .list loose.1 fun p member => ?_
      exact ih p.1 (List.of_mem_zip member).1 (keyed_list keyed' p.2 (List.of_mem_zip member).2)
        (loose.2 p member)
  | map own apart values ih =>
    rename_i es
    intro b keyed' loose
    cases b with
    | scalar t => cases loose
    | list ys => cases loose
    | map fs =>
      obtain ⟨own', apart', values'⟩ := keyed_map keyed'
      rw [looseEq_map, Bool.and_eq_true, beq_iff_eq, looseEqEntries_iff] at loose
      obtain ⟨lengths, entries⟩ := loose
      -- each entry finds the entry of its slot among the others, with a loosely equal value
      have found : ∀ e ∈ es, ∃ f ∈ fs, e.1.sameSlot f.1 = true ∧ looseEq e.2 f.2 = true := by
        intro e member
        obtain ⟨w, lookup, equal⟩ := entries e member
        obtain ⟨f, member', slot, rfl⟩ := Entries.get?_eq_some lookup
        exact ⟨f, member', Scalar.sameSlot_symm slot, equal⟩
      refine .map (slots_of_covered apart lengths
        (fun e member => (found e member).imp fun f ⟨member', slot, _⟩ => ⟨member', slot⟩))
        fun e member f member' slot => ?_
      obtain ⟨g, member'', slot', equal⟩ := found e member
      have same : g = f := Entries.eq_of_sameSlot apart' member'' member'
        (Scalar.sameSlot_trans (Scalar.sameSlot_symm slot') slot)
      subst same
      exact ih e member (values' g member'') equal

/-- Equal maps with one entry per slot cover each other's slots, entry by entry. -/
theorem covered_of_slots {es fs : List (Scalar × Value)} (own : ∀ e ∈ es, e.1.sameSlot e.1 = true)
    (slots : ∀ k : Scalar, (∃ e ∈ es, e.1.sameSlot k = true) ↔ (∃ f ∈ fs, f.1.sameSlot k = true)) :
    ∀ e ∈ es, ∃ f ∈ fs, e.1.sameSlot f.1 = true := by
  intro e member
  obtain ⟨f, member', slot⟩ := (slots e.1).mp ⟨e, member, own e member⟩
  exact ⟨f, member', Scalar.sameSlot_symm slot⟩

/-- Equal trees with one entry per slot are loosely equal. -/
theorem looseEq_of_equal {a b : Value} (equal : a.Equal b) : a.Keyed → b.Keyed → looseEq a b = true := by
  induction equal with
  | scalar equal => exact fun _ _ => (Scalar.looseEq_iff _ _).mpr equal
  | list length items ih =>
    intro keyed keyed'
    rw [looseEq_list, looseEqItems_iff]
    exact ⟨length, fun p member => ih p member (keyed_list keyed p.1 (List.of_mem_zip member).1)
      (keyed_list keyed' p.2 (List.of_mem_zip member).2)⟩
  | map slots values ih =>
    rename_i es fs
    intro keyed keyed'
    obtain ⟨own, apart, kept⟩ := keyed_map keyed
    obtain ⟨own', apart', kept'⟩ := keyed_map keyed'
    -- as many entries on both sides, since each side covers the slots of the other
    have lengths : es.length = fs.length := le_antisymm
      (Entries.length_le_of_covered apart (covered_of_slots own slots))
      (Entries.length_le_of_covered apart'
        (covered_of_slots own' fun k => (slots k).symm))
    rw [looseEq_map, Bool.and_eq_true, beq_iff_eq, looseEqEntries_iff]
    refine ⟨lengths, fun e member => ?_⟩
    obtain ⟨f, member', slot⟩ := covered_of_slots own slots e member
    exact ⟨f.2, Entries.get?_of_mem apart' member' (Scalar.sameSlot_symm slot),
      ih e member f member' slot (kept e member) (kept' f member')⟩

/-- **Loose equality of trees with one entry per slot is equality as documents compare them.** -/
theorem looseEq_iff_equal {a b : Value} (keyed : a.Keyed) (keyed' : b.Keyed) :
    looseEq a b = true ↔ a.Equal b :=
  ⟨equal_of_looseEq keyed keyed', fun equal => looseEq_of_equal equal keyed keyed'⟩

end Value

end Ingest
