import Mathlib
import Ingest.Relaxed.Fault

/-!
Contract: the line and column of a syntax error locate its offset among the lines of the text.

Owns: the lines of a text, cut at each line feed (a carriage return is an ordinary character of
its line); for an offset within the text, that its line is one of them, that its column is at
most one past the end of that line, and that the offset is the lengths of the lines before it,
each with its line feed, plus the column less one (`SyntaxError.lineColumn_locates`). So the
offset gives the line and column, and they give the offset back.

Does not own: which offsets reading reports; those are `Relaxed.FaultOffsets`.
-/

namespace Ingest.Relaxed

/-! ### Cutting a text at a separator -/

section Lines

variable {c : Char}

theorem splitOn_of_not_mem {xs : List Char} (fresh : c ∉ xs) : xs.splitOn c = [xs] := by
  rw [List.splitOn_eq_splitOnP]
  induction xs with
  | nil => rfl
  | cons x xs ih =>
    rw [List.mem_cons, not_or] at fresh
    rw [List.splitOnP_cons_eq_if_modifyHead, ih fresh.2, if_neg (by simpa using Ne.symm fresh.1)]
    rfl

theorem splitOn_append_cons {line rest : List Char} (fresh : c ∉ line) :
    (line ++ c :: rest).splitOn c = line :: rest.splitOn c := by
  rw [List.splitOn_eq_splitOnP, List.splitOn_eq_splitOnP]
  exact List.splitOnP_append_cons_of_forall_mem
    (fun x member => beq_eq_false_iff_ne.mpr fun same : x = c => fresh (same ▸ member)) c
    (by simp) rest

/-- A text that holds the separator is its first line, the separator, and the rest. -/
theorem exists_first_line {xs : List Char} (present : c ∈ xs) :
    ∃ line rest, c ∉ line ∧ xs = line ++ c :: rest := by
  induction xs with
  | nil => cases present
  | cons x xs ih =>
    by_cases first : x = c
    · exact ⟨[], xs, List.not_mem_nil, by rw [first]; rfl⟩
    · have later : c ∈ xs := by
        rcases List.mem_cons.mp present with same | later
        · exact absurd same.symm first
        · exact later
      obtain ⟨line, rest, fresh, rfl⟩ := ih later
      refine ⟨x :: line, rest, ?_, rfl⟩
      rw [List.mem_cons, not_or]
      exact ⟨fun same => first same.symm, fresh⟩

theorem takeWhile_append_cons (xs ys : List Char) :
    (xs ++ c :: ys).takeWhile (· ≠ c) = xs.takeWhile (· ≠ c) := by
  induction xs with
  | nil => simp
  | cons x xs ih => rw [List.cons_append, List.takeWhile_cons, List.takeWhile_cons, ih]

theorem takeWhile_reverse_of_not_mem {xs : List Char} (fresh : c ∉ xs) :
    xs.reverse.takeWhile (· ≠ c) = xs.reverse := by
  refine List.takeWhile_eq_self_iff.mpr fun x member => ?_
  rw [decide_eq_true_eq]
  rintro rfl
  exact fresh (List.mem_reverse.mp member)

end Lines

/-! ### Locating an offset -/

/-- **An offset lies in the line after as many line feeds as precede it**, as many characters
into that line as follow the last of them, and is the lengths of the lines before it, each
with its line feed, plus that count. The induction is on the number of line feeds in the text:
past the first line feed, an offset lies in the rest of the text as in a text of its own. -/
theorem locate_in_lines : ∀ (n : Nat) (text : List Char), text.count '\n' = n →
    ∀ o, o ≤ text.length →
      ∃ line, (text.splitOn '\n')[(text.take o).count '\n']? = some line ∧
        ((text.take o).reverse.takeWhile (· ≠ '\n')).length ≤ line.length ∧
        o = (((text.splitOn '\n').take ((text.take o).count '\n')).map (·.length + 1)).sum +
          ((text.take o).reverse.takeWhile (· ≠ '\n')).length := by
  intro n
  induction n with
  | zero =>
    intro text none o inText
    have fresh : '\n' ∉ text := List.count_eq_zero.mp none
    have freshBefore : '\n' ∉ text.take o := fun member => fresh (List.mem_of_mem_take member)
    rw [splitOn_of_not_mem fresh, List.count_eq_zero.mpr freshBefore,
      takeWhile_reverse_of_not_mem freshBefore]
    refine ⟨text, rfl, ?_, ?_⟩ <;> simp [inText]
  | succ n ih =>
    intro text counted o inText
    obtain ⟨first, rest, fresh, rfl⟩ :=
      exists_first_line (List.count_pos_iff.mp (by omega : 0 < text.count '\n'))
    have restCount : rest.count '\n' = n := by
      rw [List.count_append, List.count_cons_self, List.count_eq_zero.mpr fresh] at counted
      omega
    rw [splitOn_append_cons fresh]
    by_cases inFirst : o ≤ first.length
    · -- the offset lies in the first line
      rw [List.take_append_of_le_length inFirst]
      have freshBefore : '\n' ∉ first.take o := fun member => fresh (List.mem_of_mem_take member)
      rw [List.count_eq_zero.mpr freshBefore, takeWhile_reverse_of_not_mem freshBefore]
      rw [List.length_reverse, List.length_take, List.take_zero, List.map_nil, List.sum_nil,
        Nat.zero_add]
      exact ⟨first, rfl, by omega, by omega⟩
    · -- past the first line feed the offset lies in the rest as in a text of its own
      obtain ⟨o', rfl⟩ : ∃ o', o = first.length + 1 + o' := ⟨o - first.length - 1, by omega⟩
      have before : (first ++ '\n' :: rest).take (first.length + 1 + o') =
          first ++ '\n' :: rest.take o' := by
        rw [List.take_append, List.take_of_length_le (by omega)]
        simp [show first.length + 1 + o' - first.length = o' + 1 by omega]
      obtain ⟨line, found, within, offset⟩ := ih rest restCount o' (by simp at inText; omega)
      -- the last line feed before the offset is in the rest, so the column is the rest's
      rw [before, List.count_append, List.count_cons_self, List.count_eq_zero.mpr fresh,
        List.reverse_append, List.reverse_cons, List.append_assoc, List.singleton_append,
        takeWhile_append_cons]
      refine ⟨line, by simpa using found, within, ?_⟩
      rw [Nat.zero_add, List.take_succ_cons, List.map_cons, List.sum_cons]
      omega

namespace SyntaxError

/-- Within the text, the column counts the characters after the last line feed before the
offset, plus one. -/
theorem column_eq (e : SyntaxError) {text : List Char} (inText : e.offset ≤ text.length) :
    e.column text = ((text.take e.offset).reverse.takeWhile (· ≠ '\n')).length + 1 := by
  have taken : (text.take e.offset).length = e.offset := List.length_take_of_le inText
  have within : ((text.take e.offset).reverse.takeWhile (· ≠ '\n')).length ≤ e.offset :=
    calc _ ≤ (text.take e.offset).reverse.length := (List.takeWhile_prefix _).length_le
      _ = e.offset := by rw [List.length_reverse, taken]
  unfold column lineStart
  dsimp only
  omega

/-- **Line and column locate the offset.** Cut the text at each line feed: for an offset within
the text, the line is between 1 and the number of lines, the column is between 1 and one past
the end of that line, and the offset is the lengths of the lines before it, each with its line
feed, plus the column less one. A carriage return is an ordinary character, and an offset at a
line feed is the end of the line that the feed closes. -/
theorem lineColumn_locates (e : SyntaxError) (text : List Char) (inText : e.offset ≤ text.length) :
    1 ≤ e.line text ∧ e.line text ≤ (text.splitOn '\n').length ∧ 1 ≤ e.column text ∧
      ∃ line, (text.splitOn '\n')[e.line text - 1]? = some line ∧
        e.column text ≤ line.length + 1 ∧
        e.offset = (((text.splitOn '\n').take (e.line text - 1)).map (·.length + 1)).sum +
          e.column text - 1 := by
  obtain ⟨line, found, within, offset⟩ := locate_in_lines _ text rfl e.offset inText
  have before : e.line text - 1 = (text.take e.offset).count '\n' := by
    simp [SyntaxError.line]
  have listed := (List.getElem?_eq_some_iff.mp found).1
  rw [column_eq e inText, before]
  refine ⟨by simp [SyntaxError.line], by simp [SyntaxError.line]; omega, by omega, line, found,
    by omega, by omega⟩

/-- A document of two members with no comma between them, and the error reading reports for
it: a separator expected at the second key, the 14th character. -/
def missingComma : List Char := "\x7b\n  \"a\": 1\n  \"b\": 2\n\x7d".toList

def missingCommaError : SyntaxError := ⟨.expectedSeparator '\x7d' ['"', 'b', '"'], 13⟩

theorem lineColumn_locates_missingComma :
    missingCommaError.offset ≤ missingComma.length ∧
      1 ≤ missingCommaError.line missingComma ∧
      missingCommaError.line missingComma ≤ (missingComma.splitOn '\n').length ∧
      1 ≤ missingCommaError.column missingComma ∧
      ∃ line, (missingComma.splitOn '\n')[missingCommaError.line missingComma - 1]? = some line ∧
        missingCommaError.column missingComma ≤ line.length + 1 ∧
        missingCommaError.offset = (((missingComma.splitOn '\n').take
            (missingCommaError.line missingComma - 1)).map (·.length + 1)).sum +
          missingCommaError.column missingComma - 1 :=
  ⟨by decide, lineColumn_locates missingCommaError missingComma (by decide)⟩

/-- The second key of `missingComma` is on line 3, column 3. -/
example : missingCommaError.line missingComma = 3 ∧ missingCommaError.column missingComma = 3 := by
  decide

end SyntaxError

end Ingest.Relaxed
