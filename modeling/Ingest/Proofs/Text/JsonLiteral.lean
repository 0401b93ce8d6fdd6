import Mathlib.Tactic.SplitIfs
import Ingest.Text.JsonString

/-!
Contract: a JSON string literal that `jsonLiteralChars` writes is read back by `readLiteral` as
the text it was written from.

Owns: one equation of `readFrom` for each way a written character can look (a plain character,
a letter escape, a `\u00xx` escape of a control character, the closing quote), the hexadecimal
digits of such an escape, and the run over a whole written body, whose closing quote stays
inside the literal so that no escape reaches past its end.

Does not own: how the lexer finds the end of a literal in a document; that is
`Relaxed.Lexing`.
-/

namespace Ingest.Text


theorem hexValue?_hexDigit : ∀ d < 16, hexValue? (hexDigit false d) = some d := by
  decide

theorem readFrom_plain {size pos : Nat} {acc : List Point} {c : Char} {rest : List Char}
    (notQuote : c ≠ '"') (notBackslash : c ≠ '\\') (printable : 0x20 ≤ c.toNat) :
    readFrom size (c :: rest) pos acc = readFrom size rest (pos + 1) (.char c :: acc) := by
  rw [readFrom]
  · simp only [notQuote, if_false]
    rw [if_neg (by omega)]
  all_goals
    intros
    contradiction

theorem readFrom_escape {size pos : Nat} {acc : List Point} {e c : Char} {rest : List Char}
    (letter : e ≠ 'u') (escape : simpleEscape e = some c) :
    readFrom size ('\\' :: e :: rest) pos acc = readFrom size rest (pos + 2) (.char c :: acc) := by
  rw [readFrom]
  · simp [escape]
  · exact letter

theorem readFrom_quote {size pos : Nat} {acc : List Point} {rest : List Char} :
    readFrom size ('"' :: rest) pos acc = .ok acc := by
  rw [readFrom]
  · simp
  all_goals
    intros
    contradiction

theorem hexDigits_length (width n : Nat) : (hexDigits false width n).length = width := by
  induction width generalizing n with
  | zero => rfl
  | succ width ih => simp [hexDigits, ih]

theorem hexDigits_four (n : Nat) :
    hexDigits false 4 n = [hexDigit false (n / 16 / 16 / 16 % 16), hexDigit false (n / 16 / 16 % 16),
      hexDigit false (n / 16 % 16), hexDigit false (n % 16)] := by
  simp [hexDigits]

theorem hex4?_hexDigits {n : Nat} (small : n < 0x10000) (rest : List Char) :
    hex4? (hexDigits false 4 n ++ rest) = some n := by
  rw [hexDigits_four]
  simp only [List.cons_append, List.nil_append, hex4?]
  rw [hexValue?_hexDigit _ (Nat.mod_lt _ (by decide)), hexValue?_hexDigit _ (Nat.mod_lt _ (by decide)),
    hexValue?_hexDigit _ (Nat.mod_lt _ (by decide)), hexValue?_hexDigit _ (Nat.mod_lt _ (by decide))]
  simp only [Option.bind_eq_bind, Option.bind_some, Option.pure_def, Option.some.injEq]
  omega

theorem readFrom_unicode {size pos : Nat} {acc : List Point} {n : Nat} {rest : List Char}
    (small : n < 0x20) (room : pos + 6 < size) :
    readFrom size ('\\' :: 'u' :: (hexDigits false 4 n ++ rest)) pos acc =
      readFrom size rest (pos + 6) (Point.ofCode n :: acc) := by
  have notHigh : isHighSurrogate n = false := by
    simp only [isHighSurrogate, Bool.and_eq_false_iff, decide_eq_false_iff_not]; omega
  rw [readFrom, if_neg (by omega), hex4?_hexDigits (by omega)]
  simp only [notHigh, Bool.false_eq_true, false_and, if_false]
  have four := hexDigits_length 4 n
  rw [List.drop_append_of_le_length (Nat.le_of_eq four.symm), List.drop_of_length_le (Nat.le_of_eq four), List.nil_append]

theorem ofCode_of_lt {n : Nat} (small : n < 0xD800) : Point.ofCode n = .char (Char.ofNat n) := by
  simp [Point.ofCode]
  omega

/-- **One written character is read back.** -/
theorem readFrom_jsonChar {size pos : Nat} {acc : List Point} (c : Char) (rest : List Char)
    (room : pos + (jsonChar c).length < size) :
    readFrom size (jsonChar c ++ rest) pos acc =
      readFrom size rest (pos + (jsonChar c).length) (.char c :: acc) := by
  unfold jsonChar at room ⊢
  split_ifs at room ⊢ with quote backslash feed carriage tab backspace formFeed control
  · subst quote; exact readFrom_escape (by decide) rfl
  · subst backslash; exact readFrom_escape (by decide) rfl
  · subst feed; exact readFrom_escape (by decide) rfl
  · subst carriage; exact readFrom_escape (by decide) rfl
  · subst tab; exact readFrom_escape (by decide) rfl
  · subst backspace; exact readFrom_escape (by decide) rfl
  · subst formFeed; exact readFrom_escape (by decide) rfl
  · simp only [List.length_cons, hexDigits_length] at room ⊢
    rw [List.cons_append, List.cons_append, readFrom_unicode control (by omega),
      ofCode_of_lt (by omega), Char.ofNat_toNat]
  · exact readFrom_plain quote backslash (by omega)

/-- Written characters are read back up to the closing quote, while it lies inside the literal. -/
theorem readFrom_jsonChars {size : Nat} (more : List Char) :
    ∀ (cs : List Char) (pos : Nat) (acc : List Point), pos + (cs.flatMap jsonChar).length < size →
      readFrom size (cs.flatMap jsonChar ++ '"' :: more) pos acc = .ok ((cs.map .char).reverse ++ acc)
  | [], pos, acc, _ => by simp [readFrom_quote]
  | c :: cs, pos, acc, room => by
      simp only [List.flatMap_cons, List.length_append] at room
      rw [List.flatMap_cons, List.append_assoc, readFrom_jsonChar c _ (by omega),
        readFrom_jsonChars more cs _ _ (by omega)]
      simp

/-- **A written literal reads back.** Reading the JSON string literal of a text gives the text. -/
theorem readLiteral_jsonLiteralChars (cs : List Char) :
    readLiteral (jsonLiteralChars cs) = .ok (Str.ofChars cs) := by
  unfold readLiteral jsonLiteralChars
  split
  · rename_i rest same
    simp only [List.cons.injEq, true_and] at same
    rw [← same, readFrom_jsonChars [] cs 1 [] (by simp; omega)]
    simp only [Except.map, List.append_nil, List.reverse_reverse, Str.ofChars]
  · rename_i notQuote
    exact absurd rfl (notQuote _)

end Ingest.Text
