import Ingest.Proofs.Number.ShortestDigits
import Ingest.Number.Notation
import Ingest.Number.Decimal

/-!
Contract: the text JSON notation writes for a finite value reads back as that value.

Owns: digit lists and their values; `DecimalText`, the texts that `Numeral.read?` reads, each as
its numeral, and no others; `NumberText`, a number as JSON spells it (a sign, whole digits, an
optional fraction, an optional exponent), whose parts carry their own well-formedness, and
which is a decimal text; the four layouts of
`decimalText` (an exponent, leading zeros, a point among the digits, trailing zeros and `.0`),
each a number text worth the shortest decimal; and the text of an integer.

Does not own: why the shortest decimal reads back as the value (`Number.ShortestDigits`,
`Number.Rounding`), or how a relaxed document splits its text into lexemes.
-/

namespace Ingest.Decimal


/-! ### Digit lists -/

/-- A nonempty list of ASCII digits. -/
def IsDigits (ds : List Char) : Prop :=
  ds ≠ [] ∧ ∀ c ∈ ds, c.isDigit = true

theorem isDigit_iff (c : Char) : c.isDigit = true ↔ 48 ≤ c.toNat ∧ c.toNat ≤ 57 := by
  simp only [Char.isDigit, ge_iff_le, Bool.and_eq_true, decide_eq_true_eq]
  rw [UInt32.le_iff_toNat_le, UInt32.le_iff_toNat_le]
  rfl

theorem digitsValue_eq_ofDigitChars (ds : List Char) : digitsValue ds = Nat.ofDigitChars 10 ds 0 :=
  rfl

theorem digitsValue_append (xs ys : List Char) :
    digitsValue (xs ++ ys) = digitsValue xs * 10 ^ ys.length + digitsValue ys := by
  rw [digitsValue_eq_ofDigitChars, Nat.ofDigitChars_append, Nat.ofDigitChars_eq_ofDigitChars_zero,
    ← digitsValue_eq_ofDigitChars, ← digitsValue_eq_ofDigitChars, Nat.mul_comm]

theorem digitsValue_singleton (c : Char) : digitsValue [c] = c.toNat - 48 := by
  simp [digitsValue]

@[simp] theorem digitsValue_toDigits (n : ℕ) : digitsValue (Nat.toDigits 10 n) = n :=
  Nat.ofDigitChars_ten_toDigits

@[simp] theorem digitsValue_replicate_zero (k : ℕ) : digitsValue (List.replicate k '0') = 0 := by
  rw [digitsValue_eq_ofDigitChars, Nat.ofDigitChars_replicate_zero, Nat.mul_zero]

theorem digitsValue_lt : ∀ {ds : List Char}, (∀ c ∈ ds, c.isDigit = true) →
    digitsValue ds < 10 ^ ds.length := by
  intro ds
  induction ds using List.reverseRecOn with
  | nil => intro; simp [digitsValue]
  | append_singleton ds d ih =>
      intro digits
      have low := ih (fun c member => digits c (List.mem_append_left _ member))
      have digit := (isDigit_iff d).mp (digits d (by simp))
      rw [digitsValue_append, digitsValue_singleton, List.length_singleton, pow_one,
        List.length_append, List.length_singleton, pow_succ]
      omega

theorem isDigits_toDigits (n : ℕ) : IsDigits (Nat.toDigits 10 n) :=
  ⟨Nat.toDigits_ne_nil, fun _ member => Nat.isDigit_of_mem_toDigits (by decide) (by decide) member⟩

/-- The digits of a positive number do not start with `0`. -/
theorem toDigits_head_ne_zero {n : ℕ} (pos : 0 < n) : (Nat.toDigits 10 n).head? ≠ some '0' := by
  intro lead
  obtain ⟨rest, split⟩ : ∃ rest, Nat.toDigits 10 n = '0' :: rest := by
    cases h : Nat.toDigits 10 n with
    | nil => exact absurd h Nat.toDigits_ne_nil
    | cons c rest => rw [h] at lead; simp at lead; exact ⟨rest, by rw [lead]⟩
  have value : n = digitsValue rest := by
    have := digitsValue_toDigits n
    rw [split, show '0' :: rest = ['0'] ++ rest from rfl, digitsValue_append,
      digitsValue_singleton] at this
    simpa using this.symm
  have small : digitsValue rest < 10 ^ rest.length :=
    digitsValue_lt (fun c member => (isDigits_toDigits n).2 c (by rw [split]; exact List.mem_cons_of_mem _ member))
  have large := Binary64.pow_decimalLength_le pos
  unfold Binary64.decimalLength at large
  rw [split, List.length_cons, Nat.add_sub_cancel] at large
  omega

/-! ### Reading a number text -/

theorem takeWhile_append_of_stop {p : Char → Bool} {ds rest : List Char}
    (all : ∀ c ∈ ds, p c = true) (stop : ∀ c ∈ rest.head?, p c = false) :
    (ds ++ rest).takeWhile p = ds ∧ (ds ++ rest).dropWhile p = rest := by
  induction ds with
  | nil =>
      cases rest with
      | nil => simp
      | cons c more => simp [stop c rfl]
  | cons c ds ih =>
      have ⟨take, drop⟩ := ih (fun d member => all d (List.mem_cons_of_mem _ member))
      simp [all c List.mem_cons_self, take, drop]

theorem spanDigits_append {ds rest : List Char} (digits : ∀ c ∈ ds, c.isDigit = true)
    (stop : ∀ c ∈ rest.head?, c.isDigit = false) : spanDigits (ds ++ rest) = (ds, rest) := by
  have ⟨take, drop⟩ := takeWhile_append_of_stop digits stop
  simp [spanDigits, take, drop]

theorem spanSign_of_digit {c : Char} {cs : List Char} (digit : c.isDigit = true) :
    spanSign (c :: cs) = (false, c :: cs) := by
  have : c ≠ '-' := by rintro rfl; contradiction
  have : c ≠ '+' := by rintro rfl; contradiction
  unfold spanSign
  split <;> simp_all

/-! ### Decimal texts -/

theorem spanSign_of_unsigned {cs : List Char} (unsigned : ∀ c ∈ cs.head?, c ≠ '-' ∧ c ≠ '+') :
    spanSign cs = (false, cs) := by
  unfold spanSign
  split <;> simp_all

/-- Every text is a sign, possibly empty, and what `spanSign` leaves. -/
theorem spanSign_split (cs : List Char) :
    ∃ sign, (sign = [] ∨ sign = ['+'] ∨ sign = ['-']) ∧ cs = sign ++ (spanSign cs).2 ∧
      (spanSign cs).1 = decide (sign = ['-']) := by
  unfold spanSign
  split
  · exact ⟨['-'], .inr (.inr rfl), rfl, rfl⟩
  · exact ⟨['+'], .inr (.inl rfl), rfl, rfl⟩
  · exact ⟨[], .inl rfl, rfl, rfl⟩

/-- A text that `Numeral.read?` reads: an optional sign, digits around an optional point with a
digit on at least one side, and an optional exponent of `e` or `E`, an optional sign and digits.
Unlike a number text, its whole digits may be empty or begin with `0`. -/
structure DecimalText where
  sign : List Char
  whole : List Char
  fraction : Option (List Char)
  exponent : Option (Char × List Char × List Char)
  sign_form : sign = [] ∨ sign = ['+'] ∨ sign = ['-']
  whole_digits : ∀ c ∈ whole, c.isDigit = true
  fraction_digits : ∀ f ∈ fraction, ∀ c ∈ f, c.isDigit = true
  some_digit : whole ≠ [] ∨ ∃ f ∈ fraction, f ≠ []
  exponent_form : ∀ e ∈ exponent,
    (e.1 = 'e' ∨ e.1 = 'E') ∧ (e.2.1 = [] ∨ e.2.1 = ['+'] ∨ e.2.1 = ['-']) ∧ IsDigits e.2.2

namespace DecimalText

def fractionChars (d : DecimalText) : List Char :=
  (d.fraction.map ('.' :: ·)).getD []

def exponentChars (d : DecimalText) : List Char :=
  (d.exponent.map fun e => e.1 :: e.2.1 ++ e.2.2).getD []

def chars (d : DecimalText) : List Char :=
  d.sign ++ d.whole ++ d.fractionChars ++ d.exponentChars

def exponentValue (d : DecimalText) : ℤ :=
  (d.exponent.map fun e => if e.2.1 = ['-'] then -(digitsValue e.2.2 : ℤ) else digitsValue e.2.2).getD 0

/-- The numeral a decimal text spells: its digits with the point removed, scaled by the exponent
less the fraction digits. -/
def numeral (d : DecimalText) : Numeral :=
  ⟨decide (d.sign = ['-']), digitsValue (d.whole ++ d.fraction.getD []),
    d.exponentValue - (d.fraction.getD []).length⟩

theorem exponentChars_head (d : DecimalText) :
    ∀ c ∈ d.exponentChars.head?, c.isDigit = false ∧ c ≠ '.' := by
  intro c member
  unfold exponentChars at member
  cases h : d.exponent with
  | none => simp [h] at member
  | some e =>
      obtain ⟨mark, -, -⟩ := d.exponent_form e (by simp [h])
      simp [h] at member
      rcases mark with mark | mark <;> rw [← member, mark] <;> decide

theorem fractionChars_head (d : DecimalText) :
    ∀ c ∈ (d.fractionChars ++ d.exponentChars).head?, c.isDigit = false := by
  intro c member
  unfold fractionChars at member
  cases hf : d.fraction with
  | some f => simp [hf] at member; rw [← member]; rfl
  | none => exact (d.exponentChars_head c (by simpa [hf] using member)).1

theorem whole_head (d : DecimalText) :
    ∀ c ∈ (d.whole ++ d.fractionChars ++ d.exponentChars).head?, c ≠ '-' ∧ c ≠ '+' := by
  intro c member
  cases split : d.whole with
  | cons w ws =>
      have digit := d.whole_digits w (by rw [split]; exact List.mem_cons_self)
      rw [split] at member
      obtain rfl : w = c := by simpa using member
      exact ⟨by rintro rfl; contradiction, by rintro rfl; contradiction⟩
  | nil =>
      obtain ⟨f, inFraction, -⟩ := d.some_digit.resolve_left (by simp [split])
      rw [split, fractionChars, Option.mem_def.mp inFraction] at member
      obtain rfl : '.' = c := by simpa using member
      decide

theorem readExponent?_exponentChars (d : DecimalText) :
    readExponent? d.exponentChars = some d.exponentValue := by
  unfold exponentChars exponentValue
  cases h : d.exponent with
  | none => rfl
  | some e =>
      obtain ⟨mark, sign, ds⟩ := e
      obtain ⟨isMark, isSign, digits⟩ := d.exponent_form (mark, sign, ds) (by simp [h])
      obtain ⟨c, cs, rfl⟩ := List.exists_cons_of_ne_nil digits.1
      have spanned : spanSign (sign ++ c :: cs) = (decide (sign = ['-']), c :: cs) := by
        rcases isSign with rfl | rfl | rfl
        · simpa using spanSign_of_digit (digits.2 c List.mem_cons_self)
        · rfl
        · rfl
      have whole : spanDigits ((c :: cs) ++ []) = (c :: cs, []) :=
        spanDigits_append digits.2 (by simp)
      rw [List.append_nil] at whole
      simp only [Option.map_some, Option.getD_some, readExponent?, List.cons_append]
      rw [if_pos isMark, spanned, whole]
      simp only [List.isEmpty_cons, List.isEmpty_nil, Bool.not_true, Bool.false_eq_true, or_self,
        if_false, decide_eq_true_eq]

theorem spanSign_chars (d : DecimalText) :
    spanSign d.chars = (decide (d.sign = ['-']), d.whole ++ d.fractionChars ++ d.exponentChars) := by
  unfold chars
  rcases d.sign_form with sign | sign | sign <;> rw [sign]
  · exact spanSign_of_unsigned d.whole_head
  · rfl
  · rfl

/-- **A decimal text reads as its numeral.** -/
theorem read?_chars (d : DecimalText) : Numeral.read? d.chars = some d.numeral := by
  have wholeSpan : spanDigits (d.whole ++ (d.fractionChars ++ d.exponentChars)) =
      (d.whole, d.fractionChars ++ d.exponentChars) :=
    spanDigits_append d.whole_digits d.fractionChars_head
  unfold Numeral.read?
  rw [d.spanSign_chars]
  dsimp only
  rw [List.append_assoc, wholeSpan]
  dsimp only
  unfold numeral fractionChars
  cases hf : d.fraction with
  | some f =>
      have fracSpan : spanDigits (f ++ d.exponentChars) = (f, d.exponentChars) :=
        spanDigits_append (d.fraction_digits f (by simp [hf]))
          (fun c member => (d.exponentChars_head c member).1)
      have someDigit : ¬(d.whole.isEmpty = true ∧ f.isEmpty = true) := by
        rintro ⟨noWhole, noFraction⟩
        rcases d.some_digit with whole | ⟨g, inFraction, fraction⟩
        · exact whole (List.isEmpty_iff.mp noWhole)
        · rw [hf, Option.mem_some_iff] at inFraction
          exact fraction (inFraction ▸ List.isEmpty_iff.mp noFraction)
      simp only [Option.map_some, Option.getD_some, List.cons_append, fracSpan, if_neg someDigit,
        readExponent?_exponentChars, Option.map_some]
  | none =>
      have whole : d.whole.isEmpty = false := by
        have := d.some_digit
        simp_all
      simp only [Option.map_none, Option.getD_none, List.nil_append]
      split
      · rename_i more point
        have := (d.exponentChars_head '.' (by rw [point]; rfl)).2
        contradiction
      · simp only [whole, Bool.false_eq_true, false_and, if_false, readExponent?_exponentChars,
          Option.map_some, List.append_nil, List.length_nil, Nat.cast_zero, sub_zero]


/-- What `readExponent?` accepts is an exponent part or nothing. -/
theorem exists_of_readExponent? {cs : List Char} {e : ℤ} (read : readExponent? cs = some e) :
    ∃ ex : Option (Char × List Char × List Char),
      (∀ x ∈ ex, (x.1 = 'e' ∨ x.1 = 'E') ∧ (x.2.1 = [] ∨ x.2.1 = ['+'] ∨ x.2.1 = ['-']) ∧
        IsDigits x.2.2) ∧
      cs = (ex.map fun x => x.1 :: x.2.1 ++ x.2.2).getD [] := by
  cases cs with
  | nil => exact ⟨none, by simp, rfl⟩
  | cons c rest =>
    rw [readExponent?] at read
    split at read
    · rename_i mark
      obtain ⟨sign, form, split, -⟩ := spanSign_split rest
      generalize spanSign rest = p at read split
      obtain ⟨neg, after⟩ := p
      dsimp only at read split
      unfold spanDigits at read
      dsimp only at read
      split at read
      · cases read
      · rename_i accepted
        simp only [List.isEmpty_iff, Bool.not_eq_true', List.isEmpty_eq_false_iff, not_or] at accepted
        obtain ⟨digits, noTail⟩ := accepted
        have whole : after.takeWhile Char.isDigit = after := by
          conv_rhs => rw [← List.takeWhile_append_dropWhile (p := Char.isDigit) (l := after)]
          rw [not_not.mp noTail, List.append_nil]
        refine ⟨some (c, sign, after.takeWhile Char.isDigit), ?_, ?_⟩
        · intro x member
          obtain rfl := Option.mem_some_iff.mp member
          exact ⟨mark, form, digits, fun d inWhole => List.mem_takeWhile_imp inWhole⟩
        · rw [split, whole]
          rfl
    · cases read


/-- **`Numeral.read?` reads exactly the decimal texts.** -/
theorem exists_of_read? {cs : List Char} {n : Numeral} (read : Numeral.read? cs = some n) :
    ∃ d : DecimalText, cs = d.chars ∧ d.numeral = n := by
  -- a decimal text that spells `cs` is enough: it reads as its own numeral
  suffices spelled : ∃ d : DecimalText, cs = d.chars by
    obtain ⟨d, rfl⟩ := spelled
    exact ⟨d, rfl, Option.some.inj (d.read?_chars.symm.trans read)⟩
  obtain ⟨sign, signForm, signSplit, -⟩ := spanSign_split cs
  unfold Numeral.read? at read
  generalize spanSign cs = p at read signSplit
  obtain ⟨neg, rest⟩ := p
  dsimp only at read signSplit
  unfold spanDigits at read
  dsimp only at read
  have wholeDigits : ∀ c ∈ rest.takeWhile Char.isDigit, c.isDigit = true :=
    fun c member => List.mem_takeWhile_imp member
  have wholeSplit := (List.takeWhile_append_dropWhile (p := Char.isDigit) (l := rest)).symm
  generalize rest.takeWhile Char.isDigit = whole at read wholeDigits wholeSplit
  generalize rest.dropWhile Char.isDigit = after at read wholeSplit
  -- the text after the whole digits either opens a fraction with a point or is the exponent
  split at read
  · rename_i _ more
    dsimp only at read
    split at read
    · cases read
    · rename_i someDigit
      obtain ⟨e, exponentRead, -⟩ := Option.map_eq_some_iff.mp read
      obtain ⟨ex, exForm, exSplit⟩ := exists_of_readExponent? exponentRead
      refine ⟨⟨sign, whole, some (more.takeWhile Char.isDigit), ex, signForm, wholeDigits,
        fun f member c inFraction => ?_, ?_, exForm⟩, ?_⟩
      · obtain rfl := Option.mem_some_iff.mp member
        exact List.mem_takeWhile_imp inFraction
      · simp only [List.isEmpty_iff, not_and] at someDigit
        by_cases noWhole : whole = []
        · exact .inr ⟨_, rfl, someDigit noWhole⟩
        · exact .inl noWhole
      · rw [signSplit, wholeSplit, chars, fractionChars, exponentChars, ← exSplit]
        simp
  · dsimp only at read
    split at read
    · cases read
    · rename_i someDigit
      obtain ⟨e, exponentRead, -⟩ := Option.map_eq_some_iff.mp read
      obtain ⟨ex, exForm, exSplit⟩ := exists_of_readExponent? exponentRead
      refine ⟨⟨sign, whole, none, ex, signForm, wholeDigits, by simp, ?_, exForm⟩, ?_⟩
      · simp only [List.isEmpty_iff, List.isEmpty_nil, and_true] at someDigit
        exact .inl someDigit
      · rw [signSplit, wholeSplit, chars, fractionChars, exponentChars, ← exSplit]
        simp

end DecimalText

/-! ### Number texts -/

theorem signText_form (neg : Bool) :
    (if neg then ['-'] else []) = [] ∨ (if neg then ['-'] else []) = ['+'] ∨
      (if neg then ['-'] else []) = ['-'] := by
  cases neg <;> simp

/-- A number text as JSON spells it: a sign, whole digits that begin with `0` only when they are
`0`, an optional fraction after a point, and an optional exponent of `e` or `E`, an optional
sign and digits. -/
structure NumberText where
  negative : Bool
  whole : List Char
  fraction : Option (List Char)
  exponent : Option (Char × List Char × List Char)
  whole_digits : IsDigits whole
  whole_lead : whole = ['0'] ∨ whole.head? ≠ some '0'
  fraction_digits : ∀ f ∈ fraction, IsDigits f
  exponent_form : ∀ e ∈ exponent,
    (e.1 = 'e' ∨ e.1 = 'E') ∧ (e.2.1 = [] ∨ e.2.1 = ['+'] ∨ e.2.1 = ['-']) ∧ IsDigits e.2.2

namespace NumberText

/-- The characters of the fraction part, point included. -/
def fractionChars (n : NumberText) : List Char :=
  (n.fraction.map ('.' :: ·)).getD []

/-- The characters of the exponent part. -/
def exponentChars (n : NumberText) : List Char :=
  (n.exponent.map fun e => e.1 :: e.2.1 ++ e.2.2).getD []

/-- The text of a number. -/
def chars (n : NumberText) : List Char :=
  (if n.negative then ['-'] else []) ++ n.whole ++ n.fractionChars ++ n.exponentChars

/-- The power of ten that the exponent part writes. -/
def exponentValue (n : NumberText) : ℤ :=
  match n.exponent with
  | none => 0
  | some (_, sign, ds) => if sign = ['-'] then -(digitsValue ds : ℤ) else digitsValue ds

/-- The numeral that a number text spells: its digits with the point removed, scaled by the
exponent less the fraction digits. -/
def numeral (n : NumberText) : Numeral :=
  ⟨n.negative, digitsValue (n.whole ++ n.fraction.getD []),
    n.exponentValue - (n.fraction.getD []).length⟩

/-- A number text is a decimal text whose whole digits are not empty. -/
def toDecimal (n : NumberText) : DecimalText where
  sign := if n.negative then ['-'] else []
  whole := n.whole
  fraction := n.fraction
  exponent := n.exponent
  sign_form := signText_form n.negative
  whole_digits := n.whole_digits.2
  fraction_digits := fun f member => (n.fraction_digits f member).2
  some_digit := .inl n.whole_digits.1
  exponent_form := n.exponent_form

theorem chars_toDecimal (n : NumberText) : n.toDecimal.chars = n.chars := rfl

theorem numeral_toDecimal (n : NumberText) : n.toDecimal.numeral = n.numeral := by
  obtain ⟨negative, whole, fraction, exponent, -, -, -, -⟩ := n
  rcases exponent with _ | ⟨mark, sign, ds⟩ <;> cases negative <;> rfl

theorem exponentChars_head (n : NumberText) :
    ∀ c ∈ n.exponentChars.head?, c.isDigit = false ∧ c ≠ '.' :=
  n.toDecimal.exponentChars_head

theorem spanSign_chars (n : NumberText) :
    spanSign n.chars = (n.negative, n.whole ++ n.fractionChars ++ n.exponentChars) := by
  obtain ⟨c, cs, split⟩ := List.exists_cons_of_ne_nil n.whole_digits.1
  have lead : c.isDigit = true := n.whole_digits.2 c (by rw [split]; exact List.mem_cons_self)
  unfold chars
  cases n.negative
  · rw [split]; simpa using spanSign_of_digit lead
  · rfl

/-- **A number text reads as its numeral.** -/
theorem read?_chars (n : NumberText) : Numeral.read? n.chars = some n.numeral := by
  rw [← chars_toDecimal, DecimalText.read?_chars, numeral_toDecimal]

end NumberText

/-! ### The layouts of a written value -/

/-- `text` spells a number with a point or an exponent, of sign `neg`, whose numeral is worth
`value`. -/
def FloatText (text : List Char) (neg : Bool) (value : ℚ) : Prop :=
  ∃ n : NumberText, text = n.chars ∧ n.negative = neg ∧ (n.fraction.isSome ∨ n.exponent.isSome) ∧
    (n.numeral.digits : ℚ) * 10 ^ n.numeral.exponent = value

/-- What holds of the one value an option holds holds of every value in it. -/
theorem forall_mem_some_of {α : Type} {p : α → Prop} {a : α} (holds : p a) : ∀ x ∈ some a, p x :=
  fun _ member => Option.mem_some.mp member ▸ holds

theorem isDigits_replicate_append {k : ℕ} {ds : List Char} (digits : IsDigits ds) :
    IsDigits (List.replicate k '0' ++ ds) :=
  ⟨by simp [digits.1], fun c member => by
    rcases List.mem_append.mp member with zero | digit
    · rw [List.eq_of_mem_replicate zero]; rfl
    · exact digits.2 c digit⟩

theorem isDigits_append_replicate {k : ℕ} {ds : List Char} (digits : IsDigits ds) :
    IsDigits (ds ++ List.replicate k '0') :=
  ⟨by simp [digits.1], fun c member => by
    rcases List.mem_append.mp member with digit | zero
    · exact digits.2 c digit
    · rw [List.eq_of_mem_replicate zero]; rfl⟩

/-- `0.00ddd`: a point and zeros before the digits. -/
theorem floatText_leadingZeros (a k : ℕ) :
    FloatText ("0." ++ Notation.zeros k ++ String.ofList (Nat.toDigits 10 a)).toList false
      (a * 10 ^ (-(k : ℤ) - (Nat.toDigits 10 a).length)) := by
  refine ⟨⟨false, ['0'], some (List.replicate k '0' ++ Nat.toDigits 10 a), none,
    ⟨by simp, by simp⟩, .inl rfl, ?_, by simp⟩, ?_, rfl, .inl rfl, ?_⟩
  · exact forall_mem_some_of (isDigits_replicate_append (isDigits_toDigits a))
  · simp [NumberText.chars, NumberText.fractionChars, NumberText.exponentChars, Notation.zeros]
  · simp only [NumberText.numeral, NumberText.exponentValue, Option.getD_some, digitsValue_append,
      digitsValue_replicate_zero, digitsValue_toDigits, List.length_append, List.length_replicate]
    simp only [digitsValue_singleton, Char.reduceToNat, Nat.sub_self, zero_mul, zero_add]
    congr 1
    push_cast
    congr 1
    ring

/-- `dd.ddd`: a point among the digits. -/
theorem floatText_point {a : ℕ} (pos : 0 < a) {p : ℕ} (inside : 0 < p)
    (short : p < (Nat.toDigits 10 a).length) :
    FloatText (String.ofList ((Nat.toDigits 10 a).take p ++ '.' :: (Nat.toDigits 10 a).drop p)).toList
      false (a * 10 ^ ((p : ℤ) - (Nat.toDigits 10 a).length)) := by
  have digits := isDigits_toDigits a
  have lead := toDigits_head_ne_zero pos
  refine ⟨⟨false, (Nat.toDigits 10 a).take p, some ((Nat.toDigits 10 a).drop p), none,
    ⟨by simp; omega, fun c member => digits.2 c (List.mem_of_mem_take member)⟩,
    .inr (by rwa [List.head?_take, if_neg (by omega)]), ?_, by simp⟩, ?_, rfl, .inl rfl, ?_⟩
  · exact forall_mem_some_of
      ⟨by simp; omega, fun c member => digits.2 c (List.mem_of_mem_drop member)⟩
  · simp [NumberText.chars, NumberText.fractionChars, NumberText.exponentChars]
  · simp only [NumberText.numeral, NumberText.exponentValue, Option.getD_some, List.take_append_drop,
      digitsValue_toDigits, List.length_drop]
    congr 1
    push_cast [Nat.cast_sub short.le]
    congr 1
    ring

/-- `ddd00.0`: zeros after the digits, and `.0`. -/
theorem floatText_trailingZeros {a : ℕ} (pos : 0 < a) (k : ℕ) :
    FloatText (String.ofList (Nat.toDigits 10 a) ++ Notation.zeros k ++ ".0").toList false
      (a * 10 ^ (k : ℤ)) := by
  have digits := isDigits_toDigits a
  have lead := toDigits_head_ne_zero pos
  refine ⟨⟨false, Nat.toDigits 10 a ++ List.replicate k '0', some ['0'], none,
    isDigits_append_replicate digits, .inr ?_, ?_, by simp⟩, ?_, rfl, .inl rfl, ?_⟩
  · rwa [List.head?_append_of_ne_nil _ digits.1]
  · exact forall_mem_some_of ⟨by simp, fun c zero => by rw [List.mem_singleton.mp zero]; rfl⟩
  · simp [NumberText.chars, NumberText.fractionChars, NumberText.exponentChars, Notation.zeros]
  · simp only [NumberText.numeral, NumberText.exponentValue, Option.getD_some, digitsValue_append,
      digitsValue_replicate_zero, digitsValue_toDigits, digitsValue_singleton, List.length_singleton,
      List.length_replicate]
    simp only [Char.reduceToNat, Nat.sub_self, add_zero, pow_one, Nat.cast_one, zero_sub]
    push_cast
    rw [zpow_neg_one, zpow_natCast]
    field_simp

/-- The exponent part that JSON notation writes for `e`: `e`, a sign, and at least two digits. -/
theorem exponentText_json (e : ℤ) :
    (Notation.json.exponentText e).toList =
      'e' :: [if e < 0 then '-' else '+'] ++
        (List.replicate (2 - (Nat.toDigits 10 e.natAbs).length) '0' ++ Nat.toDigits 10 e.natAbs) := by
  unfold Notation.exponentText
  by_cases neg : e < 0 <;>
    simp [neg, Notation.json, Notation.standard, Notation.zeros, String.length, Nat.toList_repr]

/-- The exponent part of JSON notation for the power `e`. -/
def jsonExponent (e : ℤ) : Char × List Char × List Char :=
  ('e', [if e < 0 then '-' else '+'],
    List.replicate (2 - (Nat.toDigits 10 e.natAbs).length) '0' ++ Nat.toDigits 10 e.natAbs)

theorem jsonExponent_form (e : ℤ) : ∀ x ∈ some (jsonExponent e),
    (x.1 = 'e' ∨ x.1 = 'E') ∧ (x.2.1 = [] ∨ x.2.1 = ['+'] ∨ x.2.1 = ['-']) ∧ IsDigits x.2.2 := by
  refine forall_mem_some_of ⟨.inl rfl, ?_, isDigits_replicate_append (isDigits_toDigits _)⟩
  by_cases neg : e < 0 <;> simp [jsonExponent, neg]

theorem exponentValue_jsonExponent {n : NumberText} {e : ℤ}
    (same : n.exponent = some (jsonExponent e)) :
    n.exponentValue = e := by
  simp only [NumberText.exponentValue, same, jsonExponent, digitsValue_append,
    digitsValue_replicate_zero, digitsValue_toDigits, zero_mul, zero_add]
  by_cases neg : e < 0
  · simp only [neg, if_true]
    omega
  · simp only [neg, if_false, List.cons.injEq, and_true]
    rw [if_neg (by decide)]
    omega

/-- `d.ddde+xx`: one digit before the point and an exponent. -/
theorem floatText_exponent {a : ℕ} (pos : 0 < a) (e : ℤ) :
    FloatText ((if ((Nat.toDigits 10 a).drop 1).isEmpty then String.ofList ((Nat.toDigits 10 a).take 1)
        else String.ofList ((Nat.toDigits 10 a).take 1 ++ '.' :: (Nat.toDigits 10 a).drop 1)) ++
        Notation.json.exponentText e).toList
      false (a * 10 ^ (e + 1 - (Nat.toDigits 10 a).length)) := by
  have digits := isDigits_toDigits a
  have lead := toDigits_head_ne_zero pos
  obtain ⟨d, rest, split⟩ := List.exists_cons_of_ne_nil digits.1
  have dDigit : d.isDigit = true := digits.2 d (by rw [split]; exact List.mem_cons_self)
  have restDigits : ∀ c ∈ rest, c.isDigit = true :=
    fun c member => digits.2 c (by rw [split]; exact List.mem_cons_of_mem _ member)
  have value : digitsValue (d :: rest) = a := by rw [← split]; exact digitsValue_toDigits a
  rw [split]
  cases rest with
  | nil =>
      refine ⟨⟨false, [d], none, some (jsonExponent e), ⟨by simp, by simpa using dDigit⟩,
        .inr (by rw [split] at lead; simpa using lead), by simp, jsonExponent_form e⟩, ?_, rfl,
        .inr rfl, ?_⟩
      · simp [NumberText.chars, NumberText.fractionChars, NumberText.exponentChars,
          exponentText_json, jsonExponent]
      · simp only [NumberText.numeral, Option.getD_none,
          List.append_nil, List.length_nil, Nat.cast_zero, sub_zero, value, List.length_singleton]
        rw [exponentValue_jsonExponent (e := e)]
        · simp
        · rfl
  | cons r rs =>
      refine ⟨⟨false, [d], some (r :: rs), some (jsonExponent e), ⟨by simp, by simpa using dDigit⟩,
        .inr (by rw [split] at lead; simpa using lead), ?_, jsonExponent_form e⟩, ?_, rfl,
        .inr rfl, ?_⟩
      · exact forall_mem_some_of ⟨by simp, restDigits⟩
      · simp [NumberText.chars, NumberText.fractionChars, NumberText.exponentChars,
          exponentText_json, jsonExponent]
      · simp only [NumberText.numeral, Option.getD_some, List.singleton_append, value,
          List.length_cons]
        rw [exponentValue_jsonExponent (e := e)]
        · congr 1
          push_cast
          congr 1
          ring
        · rfl

theorem FloatText.signed {text : List Char} {value : ℚ} (spelled : FloatText text false value)
    (neg : Bool) : FloatText ((if neg then "-" else "").toList ++ text) neg value := by
  obtain ⟨n, rfl, positive, point, worth⟩ := spelled
  refine ⟨{ n with negative := neg }, ?_, rfl, point, worth⟩
  cases neg <;> simp [NumberText.chars, NumberText.fractionChars, NumberText.exponentChars, positive]

/-- **The text of a finite value spells its shortest digits.** Whichever layout JSON notation
picks, the text is a number with a point or an exponent whose numeral is the shortest decimal. -/
theorem floatText_write {x : Binary64} (finite : x.isFinite = true) (nonzero : x.isZero = false) :
    FloatText (Notation.json.write x).toList x.negative (x.shortest.1 * 10 ^ x.shortest.2) := by
  have notNaN := Binary64.isNaN_of_isFinite finite
  have notInfinite := Binary64.isInfinite_of_isFinite finite
  have pos := Binary64.shortest_fst_pos nonzero
  unfold Notation.write
  rw [if_neg (by simp [notNaN]), if_neg (by simp [notInfinite]), if_neg (by simp [nonzero])]
  generalize x.shortest = found at pos ⊢
  obtain ⟨a, t⟩ := found
  dsimp only at pos ⊢
  rw [String.toList_append]
  apply FloatText.signed
  unfold Notation.decimalText
  dsimp only
  split
  · have spelled := floatText_exponent pos ((Nat.toDigits 10 a).length + t - 1)
    rwa [show ((Nat.toDigits 10 a).length + t - 1 + 1 - (Nat.toDigits 10 a).length : ℤ) = t by ring]
      at spelled
  · split
    · rename_i nonpositive
      have spelled := floatText_leadingZeros a (-((Nat.toDigits 10 a).length + t)).toNat
      rwa [show (-(((-((Nat.toDigits 10 a).length + t)).toNat : ℕ) : ℤ) -
          (Nat.toDigits 10 a).length) = t by omega] at spelled
    · split
      · rename_i inside
        have spelled := floatText_point pos (p := ((Nat.toDigits 10 a).length + t).toNat)
          (by omega) (by omega)
        rwa [show ((((Nat.toDigits 10 a).length + t).toNat : ℕ) : ℤ) -
          (Nat.toDigits 10 a).length = t by omega] at spelled
      · rename_i beyond
        have spelled := floatText_trailingZeros pos
          ((Nat.toDigits 10 a).length + t - (Nat.toDigits 10 a).length).toNat
        rw [show (((((Nat.toDigits 10 a).length + t - (Nat.toDigits 10 a).length).toNat : ℕ)) : ℤ) =
          t by omega] at spelled
        simpa [Notation.json, Notation.standard] using spelled

/-- The text of a zero, `0.0` or `-0.0`, is a number text with a point. -/
theorem floatText_write_zero {x : Binary64} (finite : x.isFinite = true) (zero : x.isZero = true) :
    ∃ n : NumberText, (Notation.json.write x).toList = n.chars ∧ n.fraction = some ['0'] ∧
      n.numeral = ⟨x.negative, 0, -1⟩ := by
  refine ⟨⟨x.negative, ['0'], some ['0'], none, ⟨by simp, fun c zero => by
    rw [List.mem_singleton.mp zero]; rfl⟩, .inl rfl, fun f member => ?_, by simp⟩, ?_, rfl, ?_⟩
  · simp only [Option.mem_def, Option.some.injEq] at member
    rw [← member]
    exact ⟨by simp, fun c zero => by rw [List.mem_singleton.mp zero]; rfl⟩
  · unfold Notation.write
    rw [if_neg (by simp [Binary64.isNaN_of_isFinite finite]),
      if_neg (by simp [Binary64.isInfinite_of_isFinite finite]), if_pos zero]
    cases x.negative <;>
      simp [NumberText.chars, NumberText.fractionChars, NumberText.exponentChars, Notation.json,
        Notation.standard]
  · simp [NumberText.numeral, NumberText.exponentValue, digitsValue]

/-- The text of a finite value is a number text with a point or an exponent. -/
theorem numberText_write {x : Binary64} (finite : x.isFinite = true) :
    ∃ n : NumberText, (Notation.json.write x).toList = n.chars ∧
      (n.fraction.isSome ∨ n.exponent.isSome) := by
  cases zero : x.isZero
  · obtain ⟨n, spelled, -, marked, -⟩ := floatText_write finite zero
    exact ⟨n, spelled, marked⟩
  · obtain ⟨n, spelled, fraction, -⟩ := floatText_write_zero finite zero
    exact ⟨n, spelled, .inl (by simp [fraction])⟩

/-- **Every finite value reads back from its JSON text.** -/
theorem read?_write_json {x : Binary64} (finite : x.isFinite = true) :
    (Numeral.read? (Notation.json.write x).toList).map Numeral.toBinary64 = some x := by
  cases zero : x.isZero
  · obtain ⟨n, spelled, sign, -, worth⟩ := floatText_write finite zero
    rw [spelled, NumberText.read?_chars, Option.map_some]
    congr 1
    unfold Numeral.toBinary64
    have rounds := Binary64.shortest_roundsTo zero
    rw [← worth] at rounds
    have same : n.numeral.negative = x.negative := sign
    rw [same]
    exact Binary64.ofDecimal_eq_of_roundsTo finite zero rounds
  · obtain ⟨n, spelled, -, numeral⟩ := floatText_write_zero finite zero
    rw [spelled, NumberText.read?_chars, Option.map_some, numeral]
    congr 1
    simp only [Numeral.toBinary64, Binary64.ofDecimal]
    have fields := Binary64.ofFields_fields x
    simp only [Binary64.isZero, Bool.and_eq_true, beq_iff_eq] at zero
    rw [zero.1, zero.2] at fields
    exact fields

/-- The text of an integer is a number text with neither a point nor an exponent. -/
theorem intText (i : ℤ) :
    ∃ n : NumberText, (toString i).toList = n.chars ∧ n.fraction = none ∧ n.exponent = none ∧
      n.negative = decide (i < 0) ∧ n.whole = Nat.toDigits 10 i.natAbs := by
  have lead : Nat.toDigits 10 i.natAbs = ['0'] ∨ (Nat.toDigits 10 i.natAbs).head? ≠ some '0' := by
    rcases Nat.eq_zero_or_pos i.natAbs with zero | pos
    · exact .inl (by rw [zero]; rfl)
    · exact .inr (toDigits_head_ne_zero pos)
  refine ⟨⟨decide (i < 0), Nat.toDigits 10 i.natAbs, none, none, isDigits_toDigits _, lead,
    by simp, by simp⟩, ?_, rfl, rfl, rfl, rfl⟩
  rw [Int.toString_eq_repr, Int.repr_eq_if]
  by_cases neg : i < 0
  · have : ¬ 0 ≤ i := by omega
    simp only [this, if_false, String.toList_append, Nat.toList_repr, NumberText.chars, neg,
      decide_true, if_true, NumberText.fractionChars, NumberText.exponentChars, Option.map_none,
      Option.getD_none, List.append_nil]
    congr 2
    omega
  · have : 0 ≤ i := by omega
    simp only [this, if_true, Nat.toList_repr, NumberText.chars, neg, decide_false,
      Bool.false_eq_true, if_false, NumberText.fractionChars, NumberText.exponentChars,
      Option.map_none, Option.getD_none, List.append_nil, List.nil_append]
    congr 1
    omega


/-- The sign and the digits of a written integer. -/
theorem spanSign_toString (i : ℤ) :
    spanSign (toString i).toList = (decide (i < 0), Nat.toDigits 10 i.natAbs) := by
  obtain ⟨n, spelled, noFraction, noExponent, sign, whole⟩ := intText i
  rw [spelled, NumberText.spanSign_chars, sign, whole]
  simp [NumberText.fractionChars, NumberText.exponentChars, noFraction, noExponent]

/-- A written integer holds only a minus sign and digits. -/
theorem sign_or_digit_of_mem_toString {i : ℤ} {c : Char} (member : c ∈ (toString i).toList) :
    c = '-' ∨ c.isDigit = true := by
  obtain ⟨n, spelled, noFraction, noExponent, -, -⟩ := intText i
  have plain : n.chars = (if n.negative then ['-'] else []) ++ n.whole := by
    simp [NumberText.chars, NumberText.fractionChars, NumberText.exponentChars, noFraction,
      noExponent]
  rw [spelled, plain, List.mem_append] at member
  rcases member with sign | digit
  · split at sign <;> simp_all
  · exact .inr (n.whole_digits.2 c digit)

end Ingest.Decimal
