import Mathlib.Tactic.SplitIfs
import Ingest.Proofs.Number.NumberText
import Ingest.Proofs.Text.JsonLiteral
import Ingest.Relaxed.Reader

/-!
Contract: the lexer finds each lexeme of a written document whole.

Owns: the class that `classify` gives a text by the character it starts with; the length the
lexer measures for each kind of written lexeme (a JSON string literal, a number text, a literal
word, a bare name before its colon, a mark), and what may follow a written value so that it ends
where it is written (`Closes`); and the run of `scanFrom` over lexemes that are each found
whole before the text after them (`Separated`), which turns them into tokens of the same
classes and characters; and that a text gives no lexeme exactly when it is all blanks.

Does not own: which lexemes a value tree is written as; that is `Relaxed.Rendering`.
-/

namespace Ingest.Relaxed

open Ingest.Text

theorem isNameChar_of_range {c : Char} {range : Nat × Nat} (member : range ∈ wordRanges.ranges)
    (low : range.1 ≤ c.toNat) (high : c.toNat ≤ range.2) : isNameChar c = true := by
  have word : isWordChar c = true := (CodeRanges.contains_iff _ c).mpr ⟨range, member, low, high⟩
  simp [isNameChar, word]

theorem isNameChar_of_isDigit {c : Char} (digit : c.isDigit = true) : isNameChar c = true := by
  have := (Decimal.isDigit_iff c).mp digit
  exact @isNameChar_of_range c (0x30, 0x39) (by unfold wordRanges; exact List.mem_cons_self)
    (by simp only; omega) (by simp only; omega)

theorem isNameChar_of_lower {c : Char} (low : 97 ≤ c.toNat) (high : c.toNat ≤ 122) :
    isNameChar c = true :=
  @isNameChar_of_range c (0x61, 0x7A)
    (by unfold wordRanges; exact .tail _ (.tail _ (.tail _ (.head _)))) low high

/-! ### Blanks against the other classes -/

/-- No blank lies between `!` and the next-line control. -/
theorem isBlank_of_ascii {c : Char} (low : 0x21 ≤ c.toNat) (high : c.toNat < 0x85) :
    isBlank c = false := by
  by_contra blank
  simp only [Bool.not_eq_false, isBlank, CodeRanges.contains_iff, blankRanges] at blank
  simp only [List.mem_cons, List.not_mem_nil, or_false] at blank
  obtain ⟨range, member, above, below⟩ := blank
  rcases member with rfl | rfl | rfl | rfl | rfl | rfl | rfl | rfl | rfl | rfl <;>
    simp at above below <;> omega

theorem isBlank_of_isDigit {c : Char} (digit : c.isDigit = true) : isBlank c = false := by
  have := (Decimal.isDigit_iff c).mp digit
  exact isBlank_of_ascii (by omega) (by omega)

/-- The blank ranges and the word ranges share no code point. -/
theorem blankRanges_apart_wordRanges :
    ∀ b ∈ blankRanges.ranges, ∀ w ∈ wordRanges.ranges, b.2 < w.1 ∨ w.2 < b.1 := by
  decide +kernel

theorem isWordChar_of_blank {c : Char} (blank : isBlank c = true) : isWordChar c = false := by
  by_contra word
  obtain ⟨b, bMember, bLow, bHigh⟩ := (CodeRanges.contains_iff _ c).mp blank
  obtain ⟨w, wMember, wLow, wHigh⟩ := (CodeRanges.contains_iff _ c).mp (by simpa [isWordChar] using word)
  have apart := blankRanges_apart_wordRanges b bMember w wMember
  omega

theorem isNameChar_of_blank {c : Char} (blank : isBlank c = true) : isNameChar c = false := by
  by_contra name
  simp only [isNameChar, isWordChar_of_blank blank, Bool.false_or, Bool.not_eq_false,
    Bool.or_eq_true, decide_eq_true_eq] at name
  rcases name with ((((rfl | rfl) | rfl) | rfl) | rfl) | rfl <;> exact absurd blank (by decide)

theorem isAlphanum_of_blank {c : Char} (blank : isBlank c = true) : c.isAlphanum = false := by
  by_contra alnum
  have : c.toNat = c.val.toNat := rfl
  simp only [Bool.not_eq_false, Char.isAlphanum, Char.isAlpha, Char.isUpper, Char.isLower,
    Char.isDigit, Bool.or_eq_true, Bool.and_eq_true, decide_eq_true_eq, ge_iff_le,
    UInt32.le_iff_toNat_le] at alnum
  simp at alnum
  rw [isBlank_of_ascii (by omega) (by omega)] at blank
  exact Bool.false_ne_true blank

theorem continuesNumber_of_blank {c : Char} (blank : isBlank c = true) :
    continuesNumber c = false := by
  by_contra continues
  simp only [continuesNumber, isAlphanum_of_blank blank, Bool.false_or, Bool.not_eq_false,
    Bool.or_eq_true, decide_eq_true_eq] at continues
  rcases continues with (rfl | rfl) | rfl <;> exact absurd blank (by decide)

theorem continuesWord_of_blank {c : Char} (blank : isBlank c = true) : continuesWord c = false := by
  by_contra continues
  simp only [continuesWord, isAlphanum_of_blank blank, Bool.false_or, Bool.not_eq_false,
    Bool.or_eq_true, decide_eq_true_eq] at continues
  rcases continues with rfl | rfl <;> exact absurd blank (by decide)

/-! ### What the text at one position starts with -/

theorem classify_of_blank {c : Char} (blank : isBlank c = true) (cs : List Char) :
    classify c cs = .blank ((cs.takeWhile isBlank).length + 1) := by
  rw [classify, if_pos blank]

/-- A lexeme never starts with a blank. -/
theorem isBlank_of_classify {c : Char} {cs : List Char} {kind : TokenKind} {n : Nat}
    (classified : classify c cs = .token kind n) : isBlank c = false := by
  by_contra blank
  rw [classify_of_blank (by simpa using blank)] at classified
  cases classified

theorem classify_string {cs : List Char} {n : Nat} (closed : quotedLength '"' 0 cs = some n) :
    classify '"' cs = .token .string (n + 1) := by
  simp [classify, closed, show isBlank '"' = false by decide]

section Plain

variable {c : Char} {cs : List Char} (notBlank : isBlank c = false) (notQuote : c ≠ '"')
  (notSingle : c ≠ '\'')
include notBlank notQuote notSingle

theorem classify_name {n : Nat} (name : nameLength (c :: cs) = some n) :
    classify c cs = .token .name n := by
  simp [classify, notBlank, notQuote, notSingle, name]

theorem classify_number {n : Nat} (noName : nameLength (c :: cs) = none)
    (number : numberLength (c :: cs) = some n) : classify c cs = .token .number n := by
  simp [classify, notBlank, notQuote, notSingle, noName, number]

theorem classify_literal {n : Nat} (noName : nameLength (c :: cs) = none)
    (noNumber : numberLength (c :: cs) = none) (literal : literalLength (c :: cs) = some n) :
    classify c cs = .token .literal n := by
  simp [classify, notBlank, notQuote, notSingle, noName, noNumber, literal]

theorem classify_mark (noName : nameLength (c :: cs) = none)
    (noNumber : numberLength (c :: cs) = none) (noLiteral : literalLength (c :: cs) = none)
    (mark : isMarkChar c = true) : classify c cs = .token .mark 1 := by
  simp [classify, notBlank, notQuote, notSingle, noName, noNumber, noLiteral, mark]

end Plain

/-- A lexeme that `classify` finds whole is split off the text, with its offset. -/
theorem scanFrom_token {pos : Nat} {acc : List Token} {c : Char} {lex rest : List Char}
    {kind : TokenKind} (classified : classify c (lex ++ rest) = .token kind (lex.length + 1)) :
    scanFrom pos acc (c :: (lex ++ rest)) =
      scanFrom (pos + (lex.length + 1)) (⟨kind, c :: lex, pos⟩ :: acc) rest := by
  rw [scanFrom, classified]
  simp

/-! ### Names -/

theorem nameLength_of_stop {pre rest : List Char} {d : Char}
    (names : ∀ c ∈ pre, isNameChar c = true) (stop : isNameChar d = false)
    (notBlank : isBlank d = false) (notColon : d ≠ ':') : nameLength (pre ++ d :: rest) = none := by
  have ⟨take, drop⟩ := @Decimal.takeWhile_append_of_stop isNameChar pre (d :: rest) names (by simpa using stop)
  simp [nameLength, take, drop, notBlank, notColon]

theorem nameLength_of_head {c : Char} {cs : List Char} (notName : isNameChar c = false) :
    nameLength (c :: cs) = none := by
  simp [nameLength, notName]

/-- A run of name characters up to a character that is none is a name exactly when a colon
comes next after blanks. -/
theorem nameLength_append {pre follow : List Char} (names : ∀ c ∈ pre, isNameChar c = true)
    (nonempty : pre ≠ []) (stop : ∀ c ∈ follow.head?, isNameChar c = false) :
    nameLength (pre ++ follow) =
      if (follow.dropWhile isBlank).head? = some ':' then some pre.length else none := by
  have ⟨take, drop⟩ := Decimal.takeWhile_append_of_stop names stop
  have notEmpty : pre.isEmpty = false := List.isEmpty_eq_false_iff.mpr nonempty
  simp only [nameLength, take, drop, notEmpty, Bool.false_eq_true, if_false]
  split <;> simp_all

theorem nameLength_of_colon {name gap rest : List Char} (names : ∀ c ∈ name, isNameChar c = true)
    (nonempty : name ≠ []) (blanks : ∀ c ∈ gap, isBlank c = true) :
    nameLength (name ++ (gap ++ ':' :: rest)) = some name.length := by
  have colon : isBlank ':' = false ∧ isNameChar ':' = false := ⟨by decide, by decide +kernel⟩
  have stop : ∀ c ∈ (gap ++ ':' :: rest).head?, isNameChar c = false := by
    cases gap with
    | nil => simpa using colon.2
    | cons g gs => simpa using isNameChar_of_blank (blanks g List.mem_cons_self)
  rw [nameLength_append names nonempty stop, List.dropWhile_append_of_pos blanks]
  simp [colon.1]

/-! ### Numbers -/

theorem digitRun_append {ds rest : List Char} (digits : ∀ c ∈ ds, c.isDigit = true)
    (stop : ∀ c ∈ rest.head?, c.isDigit = false) : digitRun (ds ++ rest) = ds.length := by
  rw [digitRun, (Decimal.takeWhile_append_of_stop digits stop).1]

/-- What may follow a number lexeme: nothing that would continue it. -/
def EndsNumber (follow : List Char) : Prop :=
  ∀ c ∈ follow.head?, continuesNumber c = false

theorem EndsNumber.not_digit {follow : List Char} (ends : EndsNumber follow) :
    ∀ c ∈ follow.head?, c.isDigit = false := by
  intro c member
  have := ends c member
  simp only [continuesNumber, Bool.or_eq_false_iff] at this
  by_contra digit
  simp only [Bool.not_eq_false] at digit
  have alnum : c.isAlphanum = true := by simp [Char.isAlphanum, digit]
  simp [alnum] at this

section NumberText

open Decimal

variable (n : Decimal.NumberText)

/-- What ends a number starts no exponent part. -/
theorem exponentLength_of_ends {follow : List Char} (ends : EndsNumber follow) :
    exponentLength follow = 0 := by
  cases follow with
  | nil => rfl
  | cons c rest =>
      have notMark : ¬(c = 'e' ∨ c = 'E') := by
        rintro (rfl | rfl) <;> exact absurd (ends _ rfl) (by decide)
      simp [exponentLength, notMark]

/-- An exponent part before what ends a number is read whole. -/
theorem exponentLength_part {mark : Char} {sign ds follow : List Char}
    (isMark : mark = 'e' ∨ mark = 'E') (isSign : sign = [] ∨ sign = ['+'] ∨ sign = ['-'])
    (digits : IsDigits ds) (ends : EndsNumber follow) :
    exponentLength (mark :: sign ++ ds ++ follow) = (mark :: sign ++ ds).length := by
  obtain ⟨d, ds', rfl⟩ := List.exists_cons_of_ne_nil digits.1
  have run : digitRun (d :: (ds' ++ follow)) = ds'.length + 1 := by
    simpa using digitRun_append digits.2 ends.not_digit
  have unsigned : d ≠ '+' ∧ d ≠ '-' := by
    have := digits.2 d List.mem_cons_self
    constructor <;> (rintro rfl; contradiction)
  simp only [List.cons_append, exponentLength, if_pos isMark]
  rcases isSign with rfl | rfl | rfl
  · -- with no sign the digits start at once, and a digit is neither sign
    simp only [List.nil_append]
    split
    · rename_i more plus
      exact absurd (List.cons.inj plus).1 unsigned.1
    · rename_i more minus
      exact absurd (List.cons.inj minus).1 unsigned.2
    · simp [run]
      omega
  all_goals
    simp [run]
    omega

theorem exponentLength_chars {follow : List Char} (ends : EndsNumber follow) :
    exponentLength (n.exponentChars ++ follow) = n.exponentChars.length := by
  unfold Decimal.NumberText.exponentChars
  cases h : n.exponent with
  | none => exact exponentLength_of_ends ends
  | some e =>
      obtain ⟨mark, sign, ds⟩ := e
      obtain ⟨isMark, isSign, digits⟩ := n.exponent_form (mark, sign, ds) (by simp [h])
      simpa using exponentLength_part isMark isSign digits ends

/-- After the exponent part comes neither a digit nor a point. -/
theorem exponentChars_append_head {follow : List Char} (ends : EndsNumber follow) :
    ∀ c ∈ (n.exponentChars ++ follow).head?, c.isDigit = false ∧ c ≠ '.' := by
  intro c member
  cases h : n.exponentChars with
  | cons e rest =>
      rw [h] at member
      exact n.exponentChars_head c (by simpa [h] using member)
  | nil =>
      rw [h, List.nil_append] at member
      refine ⟨ends.not_digit c member, ?_⟩
      rintro rfl
      exact absurd (ends _ member) (by decide)

theorem fractionLength_chars {follow : List Char} (ends : EndsNumber follow) :
    fractionLength (n.fractionChars ++ n.exponentChars ++ follow) = n.fractionChars.length := by
  have after := exponentChars_append_head n ends
  unfold Decimal.NumberText.fractionChars
  cases h : n.fraction with
  | none =>
      simp only [Option.map_none, Option.getD_none, List.nil_append, List.length_nil]
      unfold fractionLength
      split
      · rename_i rest point
        exact absurd rfl (after '.' (by rw [point]; rfl)).2
      · rfl
  | some f =>
      have digits := n.fraction_digits f (by simp [h])
      have run : digitRun (f ++ (n.exponentChars ++ follow)) = f.length :=
        digitRun_append digits.2 (fun c member => (after c member).1)
      have nonempty : f.length ≠ 0 := by simpa using digits.1
      simp [fractionLength, run, nonempty]

theorem signLength_chars (follow : List Char) :
    signLength (n.chars ++ follow) = if n.negative then 1 else 0 := by
  obtain ⟨w, ws, split⟩ := List.exists_cons_of_ne_nil n.whole_digits.1
  have notMinus : w ≠ '-' := by
    have := n.whole_digits.2 w (by rw [split]; exact List.mem_cons_self)
    rintro rfl
    contradiction
  cases h : n.negative <;> simp [Decimal.NumberText.chars, h, split, signLength, notMinus]

theorem wholeLength_append {rest : List Char} (stop : ∀ c ∈ rest.head?, c.isDigit = false) :
    wholeLength (n.whole ++ rest) = n.whole.length := by
  obtain ⟨w, ws, split⟩ := List.exists_cons_of_ne_nil n.whole_digits.1
  have run : digitRun (n.whole ++ rest) = n.whole.length := digitRun_append n.whole_digits.2 stop
  rcases n.whole_lead with zero | lead
  · rw [zero]
    rfl
  · have notZero : w ≠ '0' := by
      rintro rfl
      simp [split] at lead
    have digit : w.isDigit = true := n.whole_digits.2 w (by rw [split]; exact List.mem_cons_self)
    rw [split, List.cons_append] at run ⊢
    simp [wholeLength, digit, run]

/-- **A number text is one number lexeme.** Followed by nothing that continues it, the whole
text and nothing more is lexed as a number. -/
theorem numberLength_chars {follow : List Char} (ends : EndsNumber follow) :
    numberLength (n.chars ++ follow) = some n.chars.length := by
  have signed : (n.chars ++ follow).drop (if n.negative then 1 else 0) =
      n.whole ++ (n.fractionChars ++ n.exponentChars ++ follow) := by
    cases h : n.negative <;> simp [Decimal.NumberText.chars, h]
  have afterWhole : ∀ c ∈ (n.fractionChars ++ n.exponentChars ++ follow).head?,
      c.isDigit = false := by
    intro c member
    cases h : n.fraction with
    | some f => simp [Decimal.NumberText.fractionChars, h] at member; rw [← member]; rfl
    | none =>
        have empty : n.fractionChars = [] := by simp [Decimal.NumberText.fractionChars, h]
        rw [empty, List.nil_append] at member
        exact (exponentChars_append_head n ends c member).1
  have whole := wholeLength_append n afterWhole
  have nonempty : n.whole.length ≠ 0 := by simpa using n.whole_digits.1
  have exponent : (n.fractionChars ++ n.exponentChars ++ follow).drop n.fractionChars.length =
      n.exponentChars ++ follow := by simp
  have size : (if n.negative then 1 else 0) + n.whole.length + n.fractionChars.length +
      n.exponentChars.length = n.chars.length := by
    cases h : n.negative <;> simp [Decimal.NumberText.chars, h] <;> omega
  unfold numberLength
  simp only [signLength_chars, signed, whole, nonempty, if_false, List.drop_left,
    fractionLength_chars n ends, exponent, exponentLength_chars n ends, size]
  cases follow with
  | nil => rfl
  | cons c rest => simp [ends c rfl]

end NumberText

/-! ### Literals -/

/-- The literal words. -/
def literalWord : Scalar → Option (List Char)
  | .null => some ['n', 'u', 'l', 'l']
  | .bool true => some ['t', 'r', 'u', 'e']
  | .bool false => some ['f', 'a', 'l', 's', 'e']
  | _ => none

/-- What may follow a literal: nothing that would continue the word. -/
def EndsWord (follow : List Char) : Prop :=
  ∀ c ∈ follow.head?, continuesWord c = false

theorem literalLength_word {s : Scalar} {word : List Char} (spelled : literalWord s = some word)
    {follow : List Char} (ends : EndsWord follow) :
    literalLength (word ++ follow) = some word.length := by
  unfold literalWord at spelled
  split at spelled <;> cases spelled
  all_goals
    cases follow with
    | nil => decide
    | cons c rest => simp [literalLength, ends c rfl]

/-! ### Strings -/

section Quoted

variable {q c : Char} {acc : Nat} {rest : List Char}

theorem quotedLength_close : quotedLength q acc (q :: rest) = some (acc + 1) := by
  unfold quotedLength
  simp

theorem quotedLength_plain (notQuote : c ≠ q) (notBackslash : c ≠ '\\')
    (printable : 0x20 ≤ c.toNat) : quotedLength q acc (c :: rest) = quotedLength q (acc + 1) rest := by
  rw [quotedLength.eq_def]
  dsimp only
  rw [if_neg notQuote, if_neg notBackslash, if_neg (by omega)]

theorem quotedLength_escape {e : Char} (notQuote : q ≠ '\\') :
    quotedLength q acc ('\\' :: e :: rest) = quotedLength q (acc + 2) rest := by
  rw [quotedLength.eq_def]
  dsimp only
  rw [if_neg (Ne.symm notQuote), if_pos rfl]

end Quoted

theorem hexDigit_plain : ∀ d < 16,
    hexDigit false d ≠ '"' ∧ hexDigit false d ≠ '\\' ∧ 0x20 ≤ (hexDigit false d).toNat := by
  decide

/-- The hexadecimal digits of an escape are plain characters to the lexer. -/
theorem quotedLength_hexDigits {acc : Nat} (n : Nat) (rest : List Char) :
    quotedLength '"' acc (hexDigits false 4 n ++ rest) = quotedLength '"' (acc + 4) rest := by
  have plain := fun m => hexDigit_plain (m % 16) (Nat.mod_lt _ (by decide))
  rw [hexDigits_four]
  simp only [List.cons_append, List.nil_append]
  rw [quotedLength_plain (plain _).1 (plain _).2.1 (plain _).2.2,
    quotedLength_plain (plain _).1 (plain _).2.1 (plain _).2.2,
    quotedLength_plain (plain _).1 (plain _).2.1 (plain _).2.2,
    quotedLength_plain (plain _).1 (plain _).2.1 (plain _).2.2]

/-- **One written character is one step of the lexer.** -/
theorem quotedLength_jsonChar {acc : Nat} (c : Char) (rest : List Char) :
    quotedLength '"' acc (jsonChar c ++ rest) = quotedLength '"' (acc + (jsonChar c).length) rest := by
  unfold jsonChar
  split_ifs with quote backslash feed carriage tab backspace formFeed control
  any_goals exact quotedLength_escape (by decide)
  · simp only [List.cons_append, List.length_cons, hexDigits_length]
    rw [quotedLength_escape (by decide), quotedLength_hexDigits]
  · exact quotedLength_plain quote backslash (by omega)

theorem quotedLength_jsonChars (more : List Char) :
    ∀ (cs : List Char) (acc : Nat),
      quotedLength '"' acc (cs.flatMap jsonChar ++ '"' :: more) =
        some (acc + (cs.flatMap jsonChar).length + 1)
  | [], acc => quotedLength_close
  | c :: cs, acc => by
      rw [List.flatMap_cons, List.append_assoc, quotedLength_jsonChar,
        quotedLength_jsonChars more cs]
      simp only [List.length_append, Option.some.injEq]
      omega

/-! ### Marks -/

theorem numberLength_of_head {c : Char} {cs : List Char} (notMinus : c ≠ '-')
    (notDigit : c.isDigit = false) : numberLength (c :: cs) = none := by
  have sign : signLength (c :: cs) = 0 := by
    unfold signLength
    split
    · rename_i same; simp only [List.cons.injEq] at same; exact absurd same.1 notMinus
    · rfl
  have whole : wholeLength (c :: cs) = 0 := by
    unfold wholeLength
    split
    · rename_i same; simp only [List.cons.injEq] at same
      rw [same.1] at notDigit; contradiction
    · simp_all
    · rfl
  simp [numberLength, sign, whole]

theorem classify_markChar {m : Char} (mark : isMarkChar m = true) (rest : List Char) :
    classify m rest = .token .mark 1 := by
  simp only [isMarkChar, Bool.or_eq_true, decide_eq_true_eq] at mark
  have facts : isBlank m = false ∧ m ≠ '"' ∧ m ≠ '\'' ∧ isNameChar m = false ∧ m ≠ '-' ∧
      m.isDigit = false ∧ literalLength (m :: rest) = none := by
    rcases mark with (((((rfl | rfl) | rfl) | rfl) | rfl) | rfl) <;>
      exact ⟨by decide, by decide, by decide, by decide +kernel, by decide, by decide,
        by simp [literalLength]⟩
  obtain ⟨notBlank, notQuote, notSingle, notName, notMinus, notDigit, noLiteral⟩ := facts
  exact classify_mark notBlank notQuote notSingle
    (nameLength_of_head notName)
    (numberLength_of_head notMinus notDigit) noLiteral (by simpa [isMarkChar] using mark)

/-! ### Runs of lexemes -/

/-- The text of lexemes written one after another. -/
def lexText (ls : List (TokenKind × List Char)) : List Char :=
  ls.flatMap Prod.snd

/-- The class and characters of a lexeme, its offset aside. -/
def Token.view (t : Token) : TokenKind × List Char :=
  (t.kind, t.raw)

/-- `classify` finds the lexeme `lex` of class `kind` whole at the front of `lex ++ rest`. -/
def Lexes (kind : TokenKind) (lex rest : List Char) : Prop :=
  ∃ c cs, lex = c :: cs ∧ classify c (cs ++ rest) = .token kind lex.length

theorem Lexes.head {kind : TokenKind} {lex rest : List Char} (lexes : Lexes kind lex rest) :
    ∀ c ∈ lex.head?, isBlank c = false := by
  obtain ⟨c, cs, rfl, classified⟩ := lexes
  intro d member
  simp only [List.head?_cons, Option.mem_def, Option.some.injEq] at member
  exact member ▸ isBlank_of_classify classified

/-- `text` is the lexemes `ls` in order, each followed by a run of blanks. -/
inductive Laid : List (TokenKind × List Char) → List Char → Prop
  | nil : Laid [] []
  | cons {l : TokenKind × List Char} {ls : List (TokenKind × List Char)} {gap rest text : List Char} :
      (∀ c ∈ gap, isBlank c = true) → Laid ls rest → text = l.2 ++ gap ++ rest → Laid (l :: ls) text

/-- `text` lays out the lexemes `ls`, each followed by a run of blanks, and the lexer finds each
lexeme whole before the text after it, when `follow` comes after the last. -/
inductive Separated (follow : List Char) : List (TokenKind × List Char) → List Char → Prop
  | nil : Separated follow [] []
  | cons {kind : TokenKind} {lex gap rest text : List Char} {ls : List (TokenKind × List Char)} :
      (∀ c ∈ gap, isBlank c = true) → Lexes kind lex (gap ++ rest ++ follow) →
      Separated follow ls rest → text = lex ++ gap ++ rest → Separated follow ((kind, lex) :: ls) text

@[simp] theorem lexText_nil : lexText [] = [] := rfl

@[simp] theorem lexText_cons (l : TokenKind × List Char) (ls : List (TokenKind × List Char)) :
    lexText (l :: ls) = l.2 ++ lexText ls := rfl

@[simp] theorem lexText_append (ls ms : List (TokenKind × List Char)) :
    lexText (ls ++ ms) = lexText ls ++ lexText ms := by
  simp [lexText]

/-- Lexemes written with no blanks between them are laid out. -/
theorem Laid.lexText : ∀ ls : List (TokenKind × List Char), Laid ls (lexText ls)
  | [] => .nil
  | l :: ls => .cons (List.forall_mem_nil _) (Laid.lexText ls) (by simp)

theorem Laid.append {ls ms : List (TokenKind × List Char)} {t u : List Char} (first : Laid ls t)
    (second : Laid ms u) : Laid (ls ++ ms) (t ++ u) := by
  induction first with
  | nil => exact second
  | cons blanks _ spelled ih => exact .cons blanks ih (by simp [spelled])

theorem Laid.split {ms : List (TokenKind × List Char)} :
    ∀ {ls : List (TokenKind × List Char)} {text : List Char}, Laid (ls ++ ms) text →
      ∃ t u, text = t ++ u ∧ Laid ls t ∧ Laid ms u
  | [], text, laid => ⟨[], text, rfl, .nil, laid⟩
  | l :: ls, text, laid => by
      cases laid with
      | cons blanks rest spelled =>
          obtain ⟨t, u, rfl, first, second⟩ := Laid.split rest
          exact ⟨_, u, by simp [spelled], .cons blanks first rfl, second⟩

theorem Separated.append {follow : List Char} {ls ms : List (TokenKind × List Char)}
    {t u : List Char} (first : Separated (u ++ follow) ls t) (second : Separated follow ms u) :
    Separated follow (ls ++ ms) (t ++ u) := by
  induction first with
  | nil => exact second
  | cons blanks lexes _ spelled ih =>
      exact .cons blanks (by simpa using lexes) ih (by simp [spelled])

/-- Separated lexemes, and then what follows them, start with no blank. -/
theorem Separated.head {follow : List Char} {ls : List (TokenKind × List Char)} {text : List Char}
    (separated : Separated follow ls text) (next : ∀ c ∈ follow.head?, isBlank c = false) :
    ∀ c ∈ (text ++ follow).head?, isBlank c = false := by
  cases separated with
  | nil => exact next
  | cons _ lexes _ spelled =>
      have first := lexes.head
      obtain ⟨c, cs, rfl, -⟩ := lexes
      subst spelled
      simpa using first

/-- A run of blanks before a lexeme, or before the end, is skipped whole. -/
theorem scanFrom_gap {pos : Nat} {acc : List Token} {gap rest : List Char}
    (blanks : ∀ c ∈ gap, isBlank c = true) (next : ∀ c ∈ rest.head?, isBlank c = false) :
    scanFrom pos acc (gap ++ rest) = scanFrom (pos + gap.length) acc rest := by
  cases gap with
  | nil => simp
  | cons g gs =>
      have run : (gs ++ rest).takeWhile isBlank = gs := by
        rw [List.takeWhile_append_of_pos fun c member => blanks c (List.mem_cons_of_mem _ member)]
        cases rest with
        | nil => simp
        | cons r rs => simp [next r rfl]
      rw [List.cons_append, scanFrom, classify_of_blank (blanks g List.mem_cons_self)]
      simp [run]

/-- **Separated lexemes are split off one by one.** The lexer turns the text of separated
lexemes into tokens of those classes and characters, with their offsets, skips the blanks after
each, and goes on with the text after them. -/
theorem scanFrom_separated {follow : List Char} (next : ∀ c ∈ follow.head?, isBlank c = false)
    {ls : List (TokenKind × List Char)} {text : List Char} (separated : Separated follow ls text) :
    ∀ (pos : Nat) (acc : List Token), ∃ ts : List Token, ts.map Token.view = ls ∧
      scanFrom pos acc (text ++ follow) = scanFrom (pos + text.length) (ts.reverse ++ acc) follow := by
  induction separated with
  | nil => exact fun pos acc => ⟨[], rfl, by simp⟩
  | @cons kind lex gap rest text ls blanks lexes rest' spelled ih =>
      intro pos acc
      have after := rest'.head next
      obtain ⟨c, cs, rfl, classified⟩ := lexes
      subst spelled
      obtain ⟨ts, views, run⟩ := ih (pos + (cs.length + 1) + gap.length) (⟨kind, c :: cs, pos⟩ :: acc)
      refine ⟨⟨kind, c :: cs, pos⟩ :: ts, by simp [Token.view, views], ?_⟩
      rw [show c :: cs ++ gap ++ rest ++ follow = c :: (cs ++ (gap ++ rest ++ follow)) by simp,
        scanFrom_token classified, List.append_assoc, scanFrom_gap blanks after, run]
      simp only [List.length_append, List.length_cons, List.reverse_cons, List.append_assoc,
        List.singleton_append]
      congr 1
      omega

/-! ### What follows a written value -/

/-- What may follow a written value: blanks, and then a comma, a closing bracket or brace, or
the end. -/
def Closes (follow : List Char) : Prop :=
  ∀ c ∈ (follow.dropWhile isBlank).head?, c = ',' ∨ c = ']' ∨ c = '}'

namespace Closes

variable {follow : List Char} (closes : Closes follow)
include closes

/-- Right after a written value comes a blank or a closing mark. -/
theorem head : ∀ c ∈ follow.head?, isBlank c = true ∨ (c = ',' ∨ c = ']' ∨ c = '}') := by
  intro c member
  cases follow with
  | nil => cases member
  | cons d rest =>
      simp only [List.head?_cons, Option.mem_def, Option.some.injEq] at member
      subst member
      by_cases blank : isBlank d = true
      · exact .inl blank
      · exact .inr (closes d (by simp [blank]))

theorem endsNumber : EndsNumber follow := by
  intro c member
  rcases closes.head c member with blank | mark
  · exact continuesNumber_of_blank blank
  · rcases mark with rfl | rfl | rfl <;> decide

theorem endsWord : EndsWord follow := by
  intro c member
  rcases closes.head c member with blank | mark
  · exact continuesWord_of_blank blank
  · rcases mark with rfl | rfl | rfl <;> decide

/-- A run of name characters before what closes a value is no name: no colon follows it. -/
theorem nameLength {pre : List Char} (names : ∀ c ∈ pre, isNameChar c = true) :
    nameLength (pre ++ follow) = none := by
  have stop : ∀ c ∈ follow.head?, isNameChar c = false := by
    intro c member
    rcases closes.head c member with blank | mark
    · exact isNameChar_of_blank blank
    · rcases mark with rfl | rfl | rfl <;> decide +kernel
  by_cases empty : pre = []
  · subst empty
    cases follow with
    | nil => simp [Relaxed.nameLength]
    | cons d rest => exact nameLength_of_head (stop d rfl)
  · rw [nameLength_append names empty stop, if_neg]
    intro colon
    rcases closes ':' colon with wrong | wrong | wrong <;> exact absurd wrong (by decide)

end Closes

theorem Closes.of_head {c : Char} (mark : c = ',' ∨ c = ']' ∨ c = '}') (rest : List Char) :
    Closes (c :: rest) := by
  have notBlank : isBlank c = false := by rcases mark with rfl | rfl | rfl <;> decide
  intro d member
  simp only [List.dropWhile_cons, notBlank, Bool.false_eq_true, if_false, List.head?_cons,
    Option.mem_def, Option.some.injEq] at member
  rwa [← member]

theorem Closes.blanks_append {gap follow : List Char} (blanks : ∀ c ∈ gap, isBlank c = true)
    (closes : Closes follow) : Closes (gap ++ follow) := by
  intro c member
  rw [List.dropWhile_append_of_pos blanks] at member
  exact closes c member

/-! ### Each kind of written lexeme -/

theorem lexes_string (cs rest : List Char) : Lexes .string (jsonLiteralChars cs) rest := by
  refine ⟨'"', cs.flatMap jsonChar ++ ['"'], rfl, ?_⟩
  rw [List.append_assoc, List.singleton_append,
    classify_string (quotedLength_jsonChars rest cs 0)]
  simp [jsonLiteralChars]

/-- The characters of a number outside its fraction are name characters. -/
theorem NumberText.names (n : Decimal.NumberText) :
    ∀ c ∈ (if n.negative then ['-'] else []) ++ n.whole ++ n.exponentChars,
      isNameChar c = true := by
  intro c member
  simp only [List.mem_append] at member
  rcases member with (sign | whole) | exponent
  · split at sign
    · rw [List.mem_singleton.mp sign]
      decide +kernel
    · simp at sign
  · exact isNameChar_of_isDigit (n.whole_digits.2 c whole)
  · unfold Decimal.NumberText.exponentChars at exponent
    cases h : n.exponent with
    | none => simp [h] at exponent
    | some e =>
        obtain ⟨mark, sign, ds⟩ := e
        obtain ⟨isMark, isSign, digits⟩ := n.exponent_form (mark, sign, ds) (by simp [h])
        simp only [h, Option.map_some, Option.getD_some, List.mem_cons, List.mem_append] at exponent
        rcases exponent with (rfl | signChar) | digit
        · rcases isMark with rfl | rfl <;> decide +kernel
        · rcases isSign with rfl | rfl | rfl <;> simp at signChar <;> rw [signChar]
          all_goals decide +kernel
        · exact isNameChar_of_isDigit (digits.2 c digit)

/-- No colon follows the name characters at the front of a number text. -/
theorem NumberText.nameLength (n : Decimal.NumberText) {follow : List Char} (closes : Closes follow) :
    nameLength (n.chars ++ follow) = none := by
  have names := NumberText.names n
  cases h : n.fraction with
  | none =>
      have empty : n.fractionChars = [] := by simp [Decimal.NumberText.fractionChars, h]
      rw [Decimal.NumberText.chars, empty, List.append_nil]
      exact closes.nameLength names
  | some f =>
      have split : n.chars ++ follow = ((if n.negative then ['-'] else []) ++ n.whole) ++
          '.' :: (f ++ n.exponentChars ++ follow) := by
        simp [Decimal.NumberText.chars, Decimal.NumberText.fractionChars, h]
      rw [split]
      exact nameLength_of_stop (fun c member => names c (List.mem_append_left _ member))
        (by decide +kernel) (by decide) (by decide)

/-- A number text starts with a minus or a digit, neither of which is blank or a quote. -/
theorem NumberText.chars_cons (n : Decimal.NumberText) :
    ∃ c cs, n.chars = c :: cs ∧ isBlank c = false ∧ c ≠ '"' ∧ c ≠ '\'' := by
  obtain ⟨w, ws, split⟩ := List.exists_cons_of_ne_nil n.whole_digits.1
  have digit : w.isDigit = true := n.whole_digits.2 w (by rw [split]; exact List.mem_cons_self)
  cases h : n.negative
  · refine ⟨w, ws ++ n.fractionChars ++ n.exponentChars,
      by simp [Decimal.NumberText.chars, h, split], isBlank_of_isDigit digit, ?_, ?_⟩ <;>
      (rintro rfl; contradiction)
  · exact ⟨'-', n.whole ++ n.fractionChars ++ n.exponentChars,
      by simp [Decimal.NumberText.chars, h], by decide, by decide, by decide⟩

theorem lexes_number (n : Decimal.NumberText) {follow : List Char} (closes : Closes follow) :
    Lexes .number n.chars follow := by
  obtain ⟨c, cs, spelled, notBlank, notQuote, notSingle⟩ := NumberText.chars_cons n
  have noName := NumberText.nameLength n closes
  have number := numberLength_chars n closes.endsNumber
  rw [spelled, List.cons_append] at noName number
  refine ⟨c, cs, spelled, ?_⟩
  exact classify_number notBlank notQuote notSingle noName (by rw [number, spelled])

theorem literalWord_bool (b : Bool) :
    literalWord (.bool b) = some (if b then ['t', 'r', 'u', 'e'] else ['f', 'a', 'l', 's', 'e']) := by
  cases b <;> rfl

/-- The literal words are lower-case letters, so name characters. -/
theorem literalWord_names {s : Scalar} {word : List Char} (spelled : literalWord s = some word) :
    ∀ c ∈ word, isNameChar c = true := by
  have lower : ∀ c ∈ word, 97 ≤ c.toNat ∧ c.toNat ≤ 122 := by
    unfold literalWord at spelled
    split at spelled <;> cases spelled <;> simp
  exact fun c member => isNameChar_of_lower (lower c member).1 (lower c member).2

theorem lexes_word {s : Scalar} {word : List Char} (spelled : literalWord s = some word)
    {follow : List Char} (closes : Closes follow) : Lexes .literal word follow := by
  have literal := literalLength_word spelled closes.endsWord
  have noName := closes.nameLength (literalWord_names spelled)
  unfold literalWord at spelled
  split at spelled <;> cases spelled
  all_goals
    exact ⟨_, _, rfl, classify_literal (by decide) (by decide) (by decide) noName
      (numberLength_of_head (by decide) (by decide)) literal⟩

theorem lexes_name {c : Char} {cs : List Char} (names : ∀ d ∈ c :: cs, isNameChar d = true)
    (notBlank : isBlank c = false) (notQuote : c ≠ '"') (notSingle : c ≠ '\'') {gap : List Char}
    (blanks : ∀ d ∈ gap, isBlank d = true) (rest : List Char) :
    Lexes .name (c :: cs) (gap ++ ':' :: rest) :=
  ⟨c, cs, rfl, classify_name notBlank notQuote notSingle
    (by simpa using @nameLength_of_colon (c :: cs) gap rest names (List.cons_ne_nil c cs) blanks)⟩

theorem lexes_mark {m : Char} (mark : isMarkChar m = true) (rest : List Char) :
    Lexes .mark [m] rest :=
  ⟨m, [], rfl, by simpa using classify_markChar mark rest⟩

/-- The text of an integer before a colon is a bare name. -/
theorem lexes_intName (i : Int) {gap : List Char} (blanks : ∀ c ∈ gap, isBlank c = true)
    (rest : List Char) : Lexes .name (toString i).toList (gap ++ ':' :: rest) := by
  obtain ⟨n, spelled, noFraction, -, -, -⟩ := Decimal.intText i
  -- without a fraction every character of the text is a name character
  have plain : n.chars = (if n.negative then ['-'] else []) ++ n.whole ++ n.exponentChars := by
    simp [Decimal.NumberText.chars, Decimal.NumberText.fractionChars, noFraction]
  have names := NumberText.names n
  rw [← plain] at names
  obtain ⟨c, cs, first, notBlank, notQuote, notSingle⟩ := NumberText.chars_cons n
  rw [first] at names
  rw [spelled, first]
  exact lexes_name names notBlank notQuote notSingle blanks rest

/-! ### Blanks -/

theorem drop_takeWhile_length {p : Char → Bool} (cs : List Char) :
    cs.drop (cs.takeWhile p).length = cs.dropWhile p := by
  have split := (List.takeWhile_append_dropWhile (p := p) (l := cs)).symm
  calc cs.drop (cs.takeWhile p).length
      = (cs.takeWhile p ++ cs.dropWhile p).drop (cs.takeWhile p).length := congrArg (List.drop _) split
    _ = cs.dropWhile p := List.drop_left

/-- Only a blank starts a run of blanks, and the run is all the blanks there. -/
theorem classify_blank {c : Char} {cs : List Char} {n : Nat} (classified : classify c cs = .blank n) :
    isBlank c = true ∧ cs.drop (n - 1) = cs.dropWhile isBlank := by
  unfold classify at classified
  split at classified
  · rename_i blank
    cases classified
    exact ⟨blank, drop_takeWhile_length cs⟩
  · -- every other class is a lexeme or a fault
    repeat' split at classified
    all_goals cases classified

theorem scanFrom_length {pos : Nat} {acc ts : List Token} {cs : List Char}
    (scanned : scanFrom pos acc cs = .ok ts) :
    acc.length ≤ ts.length ∧ ((∃ c ∈ cs, isBlank c = false) → acc.length < ts.length) := by
  fun_induction scanFrom pos acc cs generalizing ts with
  | case1 pos acc =>
      cases scanned
      simp
  | case2 pos acc c cs n classified ih =>
      obtain ⟨le, lt⟩ := ih scanned
      obtain ⟨blank, rest⟩ := classify_blank classified
      refine ⟨le, fun ⟨d, member, notBlank⟩ => lt ⟨d, ?_, notBlank⟩⟩
      rw [rest]
      rcases List.mem_cons.mp member with rfl | later
      · rw [blank] at notBlank
        contradiction
      · rw [← List.takeWhile_append_dropWhile (p := isBlank) (l := cs), List.mem_append] at later
        rcases later with skipped | kept
        · rw [List.mem_takeWhile_imp skipped] at notBlank
          contradiction
        · exact kept
  | case3 pos acc c cs kind n classified ih =>
      have le := (ih scanned).1
      simp only [List.length_cons] at le
      exact ⟨by omega, fun _ => by omega⟩
  | case4 pos acc c cs f classified =>
      cases scanned

/-- Blanks alone are skipped: the lexer adds no lexeme for them. -/
theorem scanFrom_blanks {pos : Nat} {acc : List Token} {cs : List Char}
    (blanks : ∀ c ∈ cs, isBlank c = true) : scanFrom pos acc cs = .ok acc.reverse := by
  rw [← List.append_nil cs, scanFrom_gap blanks (by simp), scanFrom]

/-- **A text has no lexeme exactly when it is all blanks.** -/
theorem scan_eq_nil_iff (cs : List Char) : Token.scan cs = .ok [] ↔ ∀ c ∈ cs, isBlank c = true := by
  constructor
  · intro scanned c member
    by_contra notBlank
    have := (scanFrom_length scanned).2 ⟨c, member, by simpa using notBlank⟩
    simp at this
  · intro blanks
    exact scanFrom_blanks blanks

end Ingest.Relaxed
