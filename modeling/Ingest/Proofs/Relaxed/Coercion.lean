import Ingest.Proofs.Relaxed.Descent

/-!
Contract: the rules by which a key text becomes a scalar, tried in order, and the one way in
which coercing a key fails.

Owns: integer texts (`IntegerText`: an optional sign and ASCII digits), each a decimal text with
neither point nor exponent; the count of digits left once leading zeros are dropped, which
guards the integer rule, shown to be at most 19 exactly when the value is below `10^19`, so that
every integer of 64 signed bits passes the guard whatever its leading zeros; one lemma per rule;
the one refusal (`coerceKey_eq_error`); and the rules together (`coerceKey_rules`). A key that
spells `true` or `false` in any letter case is a boolean; an integer text of 64 signed bits is
that integer; any other decimal text is the nearest binary64 value; anything else stays text.
An integer text below `10^19` with more than 4300 digits, leading zeros counted, is refused
instead: its digits pass the guard, and the conversion behind it refuses that many.

Does not own: which texts `Numeral.read?` reads, the decimal texts of `Number.NumberText`; or
how a key is read from a document, which is `Relaxed.Descent`.
-/

namespace Ingest.Decimal

/-! ### Integer texts -/

/-- A text that spells an integer: an optional sign and ASCII digits. -/
structure IntegerText where
  sign : List Char
  digits : List Char
  sign_form : sign = [] ∨ sign = ['+'] ∨ sign = ['-']
  digits_form : IsDigits digits

namespace IntegerText

def chars (i : IntegerText) : List Char :=
  i.sign ++ i.digits

def negative (i : IntegerText) : Bool :=
  decide (i.sign = ['-'])

/-- The integer an integer text spells. -/
def value (i : IntegerText) : Int :=
  if i.negative then -(digitsValue i.digits : Int) else digitsValue i.digits

theorem spanSign_chars (i : IntegerText) : spanSign i.chars = (i.negative, i.digits) := by
  obtain ⟨c, cs, split⟩ := List.exists_cons_of_ne_nil i.digits_form.1
  have lead : c.isDigit = true := i.digits_form.2 c (by rw [split]; exact List.mem_cons_self)
  unfold chars negative
  rcases i.sign_form with sign | sign | sign <;> rw [sign]
  · rw [split]
    exact spanSign_of_digit lead
  · rfl
  · rfl

/-- An integer text is a decimal text with neither point nor exponent. -/
def toDecimal (i : IntegerText) : DecimalText where
  sign := i.sign
  whole := i.digits
  fraction := none
  exponent := none
  sign_form := i.sign_form
  whole_digits := i.digits_form.2
  fraction_digits := fun _ member => absurd member (Option.not_mem_none _)
  some_digit := .inl i.digits_form.1
  exponent_form := fun _ member => absurd member (Option.not_mem_none _)

theorem chars_toDecimal (i : IntegerText) : i.toDecimal.chars = i.chars := by
  simp [toDecimal, chars, DecimalText.chars, DecimalText.fractionChars, DecimalText.exponentChars]

theorem natAbs_value (i : IntegerText) : i.value.natAbs = digitsValue i.digits := by
  unfold value
  cases i.negative <;> simp

theorem mem_chars {i : IntegerText} {c : Char} (member : c ∈ i.chars) :
    c.isDigit = true ∨ c = '-' ∨ c = '+' := by
  rcases List.mem_append.mp member with inSign | inDigits
  · rcases i.sign_form with sign | sign | sign <;> rw [sign] at inSign <;> simp_all
  · exact .inl (i.digits_form.2 c inDigits)

end IntegerText

namespace DecimalText

theorem exists_digit (d : DecimalText) : ∃ c ∈ d.chars, c.isDigit = true := by
  have inChars : ∀ c, c ∈ d.whole ∨ (∃ f ∈ d.fraction, c ∈ f) → c ∈ d.chars := by
    rintro c (inWhole | ⟨f, inFraction, inF⟩)
    · simp [chars, inWhole]
    · simp [chars, fractionChars, Option.mem_def.mp inFraction, inF]
  rcases d.some_digit with whole | ⟨f, inFraction, fraction⟩
  · obtain ⟨c, cs, split⟩ := List.exists_cons_of_ne_nil whole
    have inWhole : c ∈ d.whole := by rw [split]; exact List.mem_cons_self
    exact ⟨c, inChars c (.inl inWhole), d.whole_digits c inWhole⟩
  · obtain ⟨c, cs, split⟩ := List.exists_cons_of_ne_nil fraction
    have inF : c ∈ f := by rw [split]; exact List.mem_cons_self
    exact ⟨c, inChars c (.inr ⟨f, inFraction, inF⟩), d.fraction_digits f inFraction c inF⟩

/-- A decimal text with a point or an exponent is no integer text. -/
theorem chars_ne_of_marked (d : DecimalText) (marked : d.fraction.isSome ∨ d.exponent.isSome)
    (i : IntegerText) : d.chars ≠ i.chars := by
  have mark : ∃ c ∈ d.chars, c = '.' ∨ c = 'e' ∨ c = 'E' := by
    rcases marked with point | exponent
    · obtain ⟨f, hf⟩ := Option.isSome_iff_exists.mp point
      exact ⟨'.', by simp [chars, fractionChars, hf], .inl rfl⟩
    · obtain ⟨e, he⟩ := Option.isSome_iff_exists.mp exponent
      obtain ⟨letter, -, -⟩ := d.exponent_form e (by simp [he])
      exact ⟨e.1, by simp [chars, exponentChars, he], .inr letter⟩
  intro same
  obtain ⟨c, member, isMark⟩ := mark
  have kinds := IntegerText.mem_chars (same ▸ member)
  rcases isMark with rfl | rfl | rfl <;> revert kinds <;> decide

end DecimalText

end Ingest.Decimal

namespace Ingest.Relaxed

open Ingest.Text Ingest.Decimal

/-! ### Letter case and code points -/

theorem lowerAscii_eq_toLower (c : Char) : lowerAscii c = c.toLower := by
  unfold lowerAscii Char.toLower
  by_cases upper : 'A' ≤ c ∧ c ≤ 'Z'
  · rw [if_pos upper, dif_pos (show c.val ≥ 'A'.val ∧ c.val ≤ 'Z'.val from upper)]
    have bound : c.val.toNat ≤ 90 := by
      have := upper.2
      simp only [Char.le_def, UInt32.le_iff_toNat_le] at this
      exact this
    -- both add 32 to the code of an upper case letter
    rw [← Char.ofNat_toNat ⟨c.val + ('a'.val - 'A'.val), _⟩]
    congr 1
    have same : c.toNat = c.val.toNat := rfl
    simp only [Char.toNat, UInt32.toNat_add]
    simp
    omega
  · rw [if_neg upper, dif_neg (show ¬(c.val ≥ 'A'.val ∧ c.val ≤ 'Z'.val) from upper)]

/-- A text that holds a digit is no word without digits in any letter case. -/
theorem map_toLower_ne_of_digit {cs word : List Char} {c : Char} (member : c ∈ cs)
    (digit : c.isDigit = true) (noDigit : ∀ w ∈ word, w.isDigit = false) :
    cs.map Char.toLower ≠ word := by
  intro lowered
  have kept : c.toLower = c := by
    rw [← lowerAscii_eq_toLower]
    apply lowerAscii_of_not_upper
    have := (isDigit_iff c).mp digit
    omega
  have inWord : c ∈ word := kept ▸ lowered ▸ List.mem_map_of_mem member
  rw [noDigit c inWord] at digit
  contradiction

theorem eq_ofChars_of_toChars? {key : Str} {cs : List Char} (chars : key.toChars? = some cs) :
    key = Str.ofChars cs := by
  obtain ⟨points⟩ := key
  induction points generalizing cs with
  | nil =>
    simp only [Str.toChars?, List.mapM_nil] at chars
    cases chars
    rfl
  | cons p points ih =>
    simp only [Str.toChars?, List.mapM_cons] at chars
    cases p with
    | char c =>
      cases rest : points.mapM Point.char? with
      | none => simp [Point.char?, rest] at chars
      | some more =>
        simp only [Point.char?, rest] at chars
        cases chars
        have tail := ih rest
        simp only [Str.ofChars, Str.mk.injEq] at tail ⊢
        rw [tail]
        rfl
    | surrogate o => simp [Point.char?] at chars

/-! ### Integer keys -/

theorem integerParts?_chars (i : IntegerText) : integerParts? i.chars = some (i.negative, i.digits) := by
  have digits := i.digits_form
  unfold integerParts?
  rw [i.spanSign_chars]
  simp [digits.1, List.all_eq_true.mpr digits.2]

/-- A key that passes as an integer is an integer text. -/
theorem exists_of_integerParts? {cs : List Char} {neg : Bool} {ds : List Char}
    (parts : integerParts? cs = some (neg, ds)) :
    ∃ i : IntegerText, cs = i.chars ∧ i.digits = ds ∧ i.negative = neg := by
  obtain ⟨sign, form, split, signed⟩ := spanSign_split cs
  unfold integerParts? at parts
  generalize spanned : spanSign cs = p at parts split signed
  obtain ⟨neg', rest⟩ := p
  dsimp only at parts split signed
  split at parts
  · rename_i digits
    cases parts
    have isDigits : IsDigits ds := ⟨by simpa using digits.1, by simpa using digits.2⟩
    exact ⟨⟨sign, ds, form, isDigits⟩, split, rfl, signed.symm⟩
  · cases parts

/-! ### Significant digits -/

/-- **The guard of the integer rule is a bound on the value.** Digits are below `10^k` exactly
when at most `k` of them are left once their leading zeros are dropped. -/
theorem length_dropZeros_le_iff {ds : List Char} (digits : ∀ c ∈ ds, c.isDigit = true) (k : Nat) :
    (ds.dropWhile (· = '0')).length ≤ k ↔ digitsValue ds < 10 ^ k := by
  have zeros : digitsValue (ds.takeWhile (· = '0')) = 0 := by
    have all : ∀ c ∈ ds.takeWhile (· = '0'), c = '0' := fun c member => by
      simpa using List.mem_takeWhile_imp member
    rw [List.eq_replicate_iff.mpr ⟨rfl, all⟩, digitsValue_replicate_zero]
  have worth : digitsValue ds = digitsValue (ds.dropWhile (· = '0')) := by
    conv_lhs => rw [← List.takeWhile_append_dropWhile (p := fun c => decide (c = '0')) (l := ds)]
    rw [digitsValue_append, zeros, Nat.zero_mul, Nat.zero_add]
  rw [worth]
  -- what is left begins with a digit other than `0`, worth at least `10^(length - 1)`
  cases left : ds.dropWhile (· = '0') with
  | nil => simp [digitsValue]
  | cons e rest =>
    have member : ∀ c ∈ e :: rest, c.isDigit = true := fun c inLeft =>
      digits c ((List.dropWhile_suffix _).subset (left ▸ inLeft))
    have notZero : e ≠ '0' := by
      have := List.head_dropWhile_not (fun c => decide (c = '0')) (l := ds) (by simp [left])
      simpa [left] using this
    have lead := (isDigit_iff e).mp (member e List.mem_cons_self)
    have nonzero : 49 ≤ e.toNat := by
      have : e.toNat ≠ 48 := fun same => notZero (Char.toNat_inj.mp (by rw [same]; rfl))
      omega
    have below := digitsValue_lt fun c inRest => member c (List.mem_cons_of_mem e inRest)
    have split : digitsValue (e :: rest) = (e.toNat - 48) * 10 ^ rest.length + digitsValue rest := by
      rw [show e :: rest = [e] ++ rest from rfl, digitsValue_append, digitsValue_singleton]
    have high := digitsValue_lt member
    rw [List.length_cons]
    constructor
    · intro short
      exact Nat.lt_of_lt_of_le high (Nat.pow_le_pow_right (by decide) short)
    · intro small
      by_contra long
      have atLeast : 10 ^ k ≤ 10 ^ rest.length := Nat.pow_le_pow_right (by decide) (by omega)
      have : 10 ^ rest.length ≤ digitsValue (e :: rest) := by
        rw [split]
        have : 1 * 10 ^ rest.length ≤ (e.toNat - 48) * 10 ^ rest.length :=
          Nat.mul_le_mul_right _ (by omega)
        omega
      omega

/-- A key with a digit in it is neither `true` nor `false` in any letter case. -/
theorem not_word_of_digit {cs : List Char} {c : Char} (member : c ∈ cs) (digit : c.isDigit = true) :
    cs.map lowerAscii ≠ ['t', 'r', 'u', 'e'] ∧ cs.map lowerAscii ≠ ['f', 'a', 'l', 's', 'e'] := by
  rw [show lowerAscii = Char.toLower from funext lowerAscii_eq_toLower]
  exact ⟨map_toLower_ne_of_digit member digit (by simp),
    map_toLower_ne_of_digit member digit (by simp)⟩

theorem not_word_integer (i : IntegerText) :
    i.chars.map lowerAscii ≠ ['t', 'r', 'u', 'e'] ∧
      i.chars.map lowerAscii ≠ ['f', 'a', 'l', 's', 'e'] := by
  obtain ⟨c, member, digit⟩ := i.toDecimal.exists_digit
  rw [i.chars_toDecimal] at member
  exact not_word_of_digit member digit

/-! ### The rules -/

theorem coerceKey_surrogate {key : Str} (surrogate : key.toChars? = none) :
    coerceKey key = .ok (.str key) := by
  rw [coerceKey, surrogate]

theorem coerceKey_bool {cs : List Char} (b : Bool) (spelled : cs.map Char.toLower = (toString b).toList) :
    coerceKey (.ofChars cs) = .ok (.bool b) := by
  have lowered : cs.map lowerAscii = (toString b).toList := by
    rw [show lowerAscii = Char.toLower from funext lowerAscii_eq_toLower, spelled]
  rw [coerceKey, Str.toChars?_ofChars]
  dsimp only
  cases b
  · rw [lowered, if_neg (by decide), if_pos (by decide)]
  · rw [lowered, if_pos (by decide)]

theorem coerceKey_integer (i : IntegerText) (low : -Int.pow 2 63 ≤ i.value)
    (high : i.value ≤ Int.pow 2 63 - 1) (short : i.digits.length ≤ 4300) :
    coerceKey (.ofChars i.chars) = .ok (.int i.value) := by
  obtain ⟨notTrue, notFalse⟩ := not_word_integer i
  have small : digitsValue i.digits < 10 ^ 19 := by
    have two : Int.pow 2 63 = 9223372036854775808 := rfl
    have := i.natAbs_value
    omega
  rw [coerceKey, Str.toChars?_ofChars]
  dsimp only
  rw [if_neg notTrue, if_neg notFalse, integerParts?_chars i]
  dsimp only
  rw [if_pos ((length_dropZeros_le_iff i.digits_form.2 19).mpr small),
    if_neg (show ¬i.digits.length > Loose.intDigitLimit from Nat.not_lt.mpr short)]
  have inRange : -Int.pow 2 63 ≤ i.value ∧ i.value ≤ Int.pow 2 63 - 1 := ⟨low, high⟩
  unfold IntegerText.value at inRange
  rw [if_pos inRange]
  rfl

theorem coerceKey_digitLimit (i : IntegerText) (small : i.value.natAbs < 10 ^ 19)
    (long : 4300 < i.digits.length) :
    coerceKey (.ofChars i.chars) = .error ⟨i.digits.length⟩ := by
  obtain ⟨notTrue, notFalse⟩ := not_word_integer i
  rw [i.natAbs_value] at small
  rw [coerceKey, Str.toChars?_ofChars]
  dsimp only
  rw [if_neg notTrue, if_neg notFalse, integerParts?_chars i]
  dsimp only
  rw [if_pos ((length_dropZeros_le_iff i.digits_form.2 19).mpr small),
    if_pos (show i.digits.length > Loose.intDigitLimit from long)]

theorem coerceKey_integer_float (i : IntegerText)
    (outside : i.value < -Int.pow 2 63 ∨ Int.pow 2 63 - 1 < i.value)
    (converts : 10 ^ 19 ≤ i.value.natAbs ∨ i.digits.length ≤ 4300) :
    coerceKey (.ofChars i.chars) = .ok (.float i.toDecimal.numeral.toBinary64) := by
  obtain ⟨notTrue, notFalse⟩ := not_word_integer i
  have read := i.toDecimal.read?_chars
  rw [i.chars_toDecimal] at read
  rw [i.natAbs_value] at converts
  rw [coerceKey, Str.toChars?_ofChars]
  dsimp only
  rw [if_neg notTrue, if_neg notFalse, integerParts?_chars i, read]
  dsimp only
  -- past the guard the digits convert, and the value they give is out of range
  split
  · rename_i guard
    have small := (length_dropZeros_le_iff i.digits_form.2 19).mp guard
    have short : ¬i.digits.length > Loose.intDigitLimit := by
      show ¬4300 < i.digits.length
      omega
    rw [if_neg short]
    unfold IntegerText.value at outside
    rw [if_neg (by omega)]
  · rfl

theorem coerceKey_decimal (d : DecimalText) (notInteger : ∀ i : IntegerText, d.chars ≠ i.chars) :
    coerceKey (.ofChars d.chars) = .ok (.float d.numeral.toBinary64) := by
  obtain ⟨c, member, digit⟩ := d.exists_digit
  obtain ⟨notTrue, notFalse⟩ := not_word_of_digit member digit
  have noParts : integerParts? d.chars = none := by
    cases parts : integerParts? d.chars with
    | none => rfl
    | some p =>
      obtain ⟨neg, ds⟩ := p
      obtain ⟨i, spelled, -, -⟩ := exists_of_integerParts? parts
      exact absurd spelled (notInteger i)
  rw [coerceKey, Str.toChars?_ofChars]
  dsimp only
  rw [if_neg notTrue, if_neg notFalse, noParts, d.read?_chars]

theorem coerceKey_text {cs : List Char} (notTrue : cs.map Char.toLower ≠ "true".toList)
    (notFalse : cs.map Char.toLower ≠ "false".toList) (notDecimal : ∀ d : DecimalText, cs ≠ d.chars) :
    coerceKey (.ofChars cs) = .ok (.str (.ofChars cs)) := by
  have noNumeral : Numeral.read? cs = none := by
    cases read : Numeral.read? cs with
    | none => rfl
    | some n =>
      obtain ⟨d, spelled, -⟩ := DecimalText.exists_of_read? read
      exact absurd spelled (notDecimal d)
  have noParts : integerParts? cs = none := by
    cases parts : integerParts? cs with
    | none => rfl
    | some p =>
      obtain ⟨neg, ds⟩ := p
      obtain ⟨i, spelled, -, -⟩ := exists_of_integerParts? parts
      exact absurd (spelled.trans i.chars_toDecimal.symm) (notDecimal i.toDecimal)
  have lowered : lowerAscii = Char.toLower := funext lowerAscii_eq_toLower
  rw [show "true".toList = ['t', 'r', 'u', 'e'] from rfl] at notTrue
  rw [show "false".toList = ['f', 'a', 'l', 's', 'e'] from rfl] at notFalse
  rw [coerceKey, Str.toChars?_ofChars]
  dsimp only
  rw [lowered, if_neg notTrue, if_neg notFalse, noParts, noNumeral]

/-! ### Refusal -/

/-- **The one refusal.** Every rule but the integer one gives a scalar; the integer rule refuses
exactly the integer texts below `10^19` that have more than 4300 digits. -/
theorem coerceKey_eq_error {key : Str} {e : DigitLimit} :
    coerceKey key = .error e ↔ ∃ i : IntegerText, key = .ofChars i.chars ∧
      i.value.natAbs < 10 ^ 19 ∧ 4300 < i.digits.length ∧ e = ⟨i.digits.length⟩ := by
  constructor
  · intro refused
    cases chars : key.toChars? with
    | none => rw [coerceKey_surrogate chars] at refused; cases refused
    | some cs =>
      obtain rfl := eq_ofChars_of_toChars? chars
      -- the words, the decimal texts and the rest each give a scalar
      by_cases isTrue : cs.map Char.toLower = (toString true).toList
      · rw [coerceKey_bool true isTrue] at refused; cases refused
      by_cases isFalse : cs.map Char.toLower = (toString false).toList
      · rw [coerceKey_bool false isFalse] at refused; cases refused
      by_cases integer : ∃ i : IntegerText, cs = i.chars
      · obtain ⟨i, rfl⟩ := integer
        have two : Int.pow 2 63 = 9223372036854775808 := rfl
        by_cases small : i.value.natAbs < 10 ^ 19
        · by_cases long : 4300 < i.digits.length
          · rw [coerceKey_digitLimit i small long] at refused
            cases refused
            exact ⟨i, rfl, small, long, rfl⟩
          · by_cases inRange : -Int.pow 2 63 ≤ i.value ∧ i.value ≤ Int.pow 2 63 - 1
            · rw [coerceKey_integer i inRange.1 inRange.2 (by omega)] at refused; cases refused
            · rw [coerceKey_integer_float i (by omega) (.inr (by omega))] at refused
              cases refused
        · rw [coerceKey_integer_float i (by omega) (.inl (by omega))] at refused; cases refused
      by_cases decimal : ∃ d : DecimalText, cs = d.chars
      · obtain ⟨d, rfl⟩ := decimal
        rw [coerceKey_decimal d (fun i same => integer ⟨i, same⟩)] at refused; cases refused
      · rw [coerceKey_text isTrue isFalse (fun d same => decimal ⟨d, same⟩)] at refused
        cases refused
  · rintro ⟨i, rfl, small, long, rfl⟩
    exact coerceKey_digitLimit i small long

/-! ### Written numbers -/

theorem write_standard_eq_json {x : Binary64} (finite : x.isFinite = true) :
    Notation.standard.write x = Notation.json.write x := by
  -- the two notations differ only in how they spell infinities and not-a-number
  simp only [Notation.write, Binary64.isNaN_of_isFinite finite,
    Binary64.isInfinite_of_isFinite finite, Bool.false_eq_true, if_false]
  rfl

/-- A finite value written in standard notation coerces back to itself: the text has a point or
an exponent, so no integer rule takes it. -/
theorem coerceKey_write {x : Binary64} (finite : x.isFinite = true) :
    coerceKey (.ofChars (Notation.standard.write x).toList) = .ok (.float x) := by
  obtain ⟨n, spelled, marked⟩ := numberText_write finite
  have reads := read?_write_json finite
  rw [spelled, NumberText.read?_chars, Option.map_some, Option.some.injEq] at reads
  rw [write_standard_eq_json finite, spelled, ← n.chars_toDecimal,
    coerceKey_decimal n.toDecimal (n.toDecimal.chars_ne_of_marked marked), n.numeral_toDecimal, reads]

/-! ### The rules together -/

theorem toChars?_none_or_ofChars (key : Str) : key.toChars? = none ∨ ∃ cs, key = .ofChars cs := by
  cases chars : key.toChars? with
  | none => exact .inl rfl
  | some cs => exact .inr ⟨cs, eq_ofChars_of_toChars? chars⟩

/-- **Key coercion.** A key with a lone surrogate stays text; any other key is the text of its
characters and is read by the first rule that applies: `true` or `false` in any letter case is
a boolean; an integer text is its integer when that fits in 64 signed bits and otherwise the
nearest binary64 value; a decimal text that is no integer text is the nearest binary64 value;
any other text stays text. Only the integer rule refuses, and it refuses exactly the integer
texts below `10^19` with more than 4300 digits. Integers of 64 signed bits, and finite values
in standard notation, coerce back to themselves. -/
theorem coerceKey_rules (key : Str) :
    (key.toChars? = none ∨ ∃ cs, key = .ofChars cs) ∧
    (key.toChars? = none → coerceKey key = .ok (.str key)) ∧
    (∀ (cs : List Char) (b : Bool), key = .ofChars cs →
      cs.map Char.toLower = (toString b).toList → coerceKey key = .ok (.bool b)) ∧
    (∀ i : IntegerText, key = .ofChars i.chars → -Int.pow 2 63 ≤ i.value →
      i.value ≤ Int.pow 2 63 - 1 → i.digits.length ≤ 4300 → coerceKey key = .ok (.int i.value)) ∧
    (∀ i : IntegerText, key = .ofChars i.chars →
      (i.value < -Int.pow 2 63 ∨ Int.pow 2 63 - 1 < i.value) →
      (10 ^ 19 ≤ i.value.natAbs ∨ i.digits.length ≤ 4300) →
      coerceKey key = .ok (.float i.toDecimal.numeral.toBinary64)) ∧
    (∀ d : DecimalText, key = .ofChars d.chars → (∀ i : IntegerText, d.chars ≠ i.chars) →
      coerceKey key = .ok (.float d.numeral.toBinary64)) ∧
    (∀ cs : List Char, key = .ofChars cs → cs.map Char.toLower ≠ "true".toList →
      cs.map Char.toLower ≠ "false".toList → (∀ d : DecimalText, cs ≠ d.chars) →
      coerceKey key = .ok (.str key)) ∧
    (∀ e : DigitLimit, coerceKey key = .error e ↔
      ∃ i : IntegerText, key = .ofChars i.chars ∧ i.value.natAbs < 10 ^ 19 ∧
        4300 < i.digits.length ∧ e = ⟨i.digits.length⟩) ∧
    (∀ n : Int, key = .ofChars (toString n).toList → -Int.pow 2 63 ≤ n →
      n ≤ Int.pow 2 63 - 1 → coerceKey key = .ok (.int n)) ∧
    (∀ x : Binary64, key = .ofChars (Notation.standard.write x).toList → x.isFinite = true →
      coerceKey key = .ok (.float x)) := by
  refine ⟨toChars?_none_or_ofChars key, coerceKey_surrogate, ?bool, ?integer, ?integerFloat,
    ?decimal, ?text, fun _ => coerceKey_eq_error, ?written, ?writtenFloat⟩
  case bool => rintro cs b rfl; exact coerceKey_bool b
  case integer => rintro i rfl; exact coerceKey_integer i
  case integerFloat => rintro i rfl; exact coerceKey_integer_float i
  case decimal => rintro d rfl; exact coerceKey_decimal d
  case text => rintro cs rfl; exact coerceKey_text
  case written => rintro n rfl; exact coerceKey_int
  case writtenFloat => rintro x rfl; exact coerceKey_write

/-- A one behind 4300 zeros or more spells the integer one, and the key is refused. -/
theorem coerceKey_zeros_one {k : Nat} (long : 4300 ≤ k) :
    coerceKey (.ofChars (List.replicate k '0' ++ ['1'])) = .error ⟨k + 1⟩ := by
  have digits : IsDigits (List.replicate k '0' ++ ['1']) := by
    refine ⟨by simp, fun c member => ?_⟩
    rcases List.mem_append.mp member with zero | one
    · rw [List.eq_of_mem_replicate zero]
      rfl
    · rw [List.mem_singleton.mp one]
      rfl
  have worth : digitsValue (List.replicate k '0' ++ ['1']) = 1 := by
    rw [digitsValue_append, digitsValue_replicate_zero, digitsValue_singleton]
    rfl
  have refused := coerceKey_digitLimit ⟨[], _, .inl rfl, digits⟩
    (by rw [IntegerText.natAbs_value]; simp [worth]) (by simp; omega)
  simpa [IntegerText.chars] using refused

theorem coerceKey_paddedOne :
    coerceKey (.ofChars (List.replicate 4300 '0' ++ ['1'])) = .error ⟨4301⟩ :=
  coerceKey_zeros_one (Nat.le_refl 4300)

end Ingest.Relaxed
