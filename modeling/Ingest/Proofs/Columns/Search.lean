import Mathlib.Data.List.Basic
import Ingest.Proofs.Columns.Scan

/-!
Contract: on lines without quotes, the column splitter is a search for the delimiter.

The reference is the plain search (`Delimiter.pieces`): look for the delimiter at each position
from the left, and at the first occurrence cut the text and go on after the whole occurrence.
The splitter does less. After a partial match breaks it tries only the current character
against the first character of the delimiter, and never a start inside the broken attempt.

Owns: the condition under which that costs nothing (`Delimiter.RestartSafe`: every border of a
matched start of the delimiter is followed by the same character as the start itself); the
simulation of the splitter by the search on every quote-free line, when the delimiter is
restart-safe and does not start with a blank; and the converse, a line of the delimiter's own
characters on which the two differ whenever a border breaks the rule. The converse needs the
delimiter not to end with a line feed or carriage return: those are dropped from the end of a
line before either side reads it.

Does not own: lines with quotes (`Columns.Quoted`).
-/

namespace Ingest.Delimited

open Ingest.Text

namespace Delimiter

/-! ### The plain search -/

/-- The pieces of a text between the occurrences of the delimiter, found from the left, each
occurrence skipped whole before the search goes on. -/
def pieces (d : Delimiter) (cs : List Char) : List (List Char) :=
  match cs with
  | [] => [[]]
  | c :: rest =>
      if d.chars <+: c :: rest then [] :: d.pieces ((c :: rest).drop d.length)
      else (d.pieces rest).modifyHead (c :: ·)
termination_by cs.length
decreasing_by
  · have := d.length_pos
    simp only [List.length_drop, List.length_cons]
    omega
  · simp

/-- A piece as a column: trimmed of blanks at both ends. -/
def trimmed (p : List Char) : String :=
  String.ofList (trimChars p)

/-- The columns of a line by the plain search: `none` for a line that is blank once its line
end is dropped, else the trimmed pieces. -/
def searchSplit (d : Delimiter) (line : String) : Option (List String) :=
  let cs := dropLineEnd line.toList
  if cs.all isBlank then none else some ((d.pieces cs).map trimmed)

/-- A delimiter is restart-safe when, for every matched start `d[:k]` with a border that starts
at `j`, the character after the border is the character after the start: a broken match then
never hides an occurrence that starts inside it. -/
def RestartSafe (d : Delimiter) : Prop :=
  ∀ k < d.length, ∀ j < k, 0 < j →
    (d.chars.drop j).take (k - j) = d.chars.take (k - j) → d.chars[k - j]? = d.chars[k]?

instance (d : Delimiter) : Decidable d.RestartSafe :=
  inferInstanceAs (Decidable (∀ k < d.length, ∀ j < k, 0 < j → _))

example : (⟨['a', 'b', 'a'], by simp⟩ : Delimiter).RestartSafe := by decide

example : ¬(⟨['a', 'a', 'b'], by simp⟩ : Delimiter).RestartSafe := by decide

variable {d : Delimiter}

theorem pieces_nil : d.pieces [] = [[]] := by
  rw [pieces]

theorem pieces_cons_of_found {c : Char} {cs : List Char} (found : d.chars <+: c :: cs) :
    d.pieces (c :: cs) = [] :: d.pieces ((c :: cs).drop d.length) := by
  rw [pieces, if_pos found]

theorem pieces_cons_of_missed {c : Char} {cs : List Char} (missed : ¬d.chars <+: c :: cs) :
    d.pieces (c :: cs) = (d.pieces cs).modifyHead (c :: ·) := by
  rw [pieces, if_neg missed]

theorem pieces_ne_nil (cs : List Char) : d.pieces cs ≠ [] := by
  cases cs with
  | nil => simp [pieces_nil]
  | cons c cs =>
      by_cases found : d.chars <+: c :: cs
      · simp [pieces_cons_of_found found]
      · rw [pieces_cons_of_missed found]
        intro empty
        exact pieces_ne_nil cs (List.modifyHead_eq_nil_iff.mp empty)
termination_by cs.length

theorem pieces_delimiter_append (cs : List Char) : d.pieces (d.chars ++ cs) = [] :: d.pieces cs := by
  obtain ⟨c, rest, spelled⟩ := List.exists_cons_of_ne_nil d.nonempty
  have unfolded : d.chars ++ cs = c :: (rest ++ cs) := by simp [spelled]
  rw [unfolded, pieces_cons_of_found (unfolded ▸ List.prefix_append d.chars cs), ← unfolded,
    Delimiter.length, List.drop_left]

/-- A text shorter than the delimiter is one piece. -/
theorem pieces_of_short (cs : List Char) (short : cs.length < d.length) : d.pieces cs = [cs] := by
  induction cs with
  | nil => exact pieces_nil
  | cons c cs inductionHypothesis =>
      have missed : ¬d.chars <+: c :: cs := fun found => by
        have := found.length_le
        simp [Delimiter.length] at short this
        omega
      rw [pieces_cons_of_missed missed,
        inductionHypothesis (by simp at short; omega)]
      rfl

/-- Where no occurrence starts inside `u`, the search runs through `u` into the first piece. -/
theorem pieces_append_of_no_start (u w : List Char)
    (noStart : ∀ i < u.length, ¬d.chars <+: u.drop i ++ w) :
    d.pieces (u ++ w) = (d.pieces w).modifyHead (u ++ ·) := by
  induction u with
  | nil =>
      show d.pieces w = (d.pieces w).modifyHead id
      rw [List.modifyHead_id, id]
  | cons c u inductionHypothesis =>
      have missed : ¬d.chars <+: c :: (u ++ w) := noStart 0 (by simp)
      rw [List.cons_append, pieces_cons_of_missed missed,
        inductionHypothesis (fun i below => noStart (i + 1) (by simp; omega)),
        List.modifyHead_modifyHead]
      rfl

/-- A text that holds the delimiter has at least two pieces. -/
theorem two_le_length_pieces (w : List Char) :
    ∀ u : List Char, 2 ≤ (d.pieces (u ++ d.chars ++ w)).length
  | [] => by
      rw [List.nil_append, pieces_delimiter_append]
      have := pieces_ne_nil (d := d) w
      simp only [List.length_cons, Nat.reduceLeDiff]
      exact List.length_pos_iff.mpr this
  | c :: u => by
      rw [List.append_assoc, List.cons_append]
      by_cases found : d.chars <+: c :: (u ++ (d.chars ++ w))
      · rw [pieces_cons_of_found found]
        have := pieces_ne_nil (d := d) ((c :: (u ++ (d.chars ++ w))).drop d.length)
        simp only [List.length_cons, Nat.reduceLeDiff]
        exact List.length_pos_iff.mpr this
      · rw [pieces_cons_of_missed found, List.length_modifyHead, ← List.append_assoc]
        exact two_le_length_pieces w u

/-! ### Restart safety -/

/-- **A broken match hides no occurrence.** On a restart-safe delimiter, after a match of
`d[:k]` broken by `c`, no occurrence starts at any position of the broken attempt. -/
theorem RestartSafe.no_start (safe : d.RestartSafe) {k : Nat} (short : k < d.length) {c : Char}
    (broken : d.chars[k]? ≠ some c) (cs : List Char) :
    ∀ i < (d.chars.take k).length, ¬d.chars <+: (d.chars.take k).drop i ++ c :: cs := by
  intro i below found
  have lengthBound : k < d.chars.length := short
  have within : i < k := by
    simp at below
    omega
  obtain ⟨tail, spelled⟩ := found
  have attemptLength : ((d.chars.take k).drop i).length = k - i := by
    simp
    omega
  -- the occurrence at `i` spells `d[i:k]` and then `c`, at positions `0 .. k - i` of `d`
  have border : (d.chars.drop i).take (k - i) = d.chars.take (k - i) := by
    have spelledStart := congrArg (List.take (k - i)) spelled
    rw [List.take_append_of_le_length (by omega), List.take_left' attemptLength,
      List.drop_take] at spelledStart
    exact spelledStart.symm
  have after : d.chars[k - i]? = some c := by
    have spelledNext : (d.chars ++ tail)[k - i]? = ((d.chars.take k).drop i ++ c :: cs)[k - i]? :=
      congrArg (·[k - i]?) spelled
    rw [List.getElem?_append_left (by omega),
      List.getElem?_append_right (Nat.le_of_eq attemptLength), attemptLength,
      Nat.sub_self] at spelledNext
    simpa using spelledNext
  rcases Nat.eq_zero_or_pos i with start | inside
  · subst start
    exact broken (by simpa using after)
  · exact broken ((safe k short i within inside border).symm.trans after)

/-- On a restart-safe delimiter the search reads a broken attempt back into the first piece. -/
theorem RestartSafe.pieces_take_append (safe : d.RestartSafe) {k : Nat} (short : k < d.length)
    {c : Char} (broken : d.chars[k]? ≠ some c) (cs : List Char) :
    d.pieces (d.chars.take k ++ c :: cs) = (d.pieces (c :: cs)).modifyHead (d.chars.take k ++ ·) :=
  pieces_append_of_no_start _ _ (safe.no_start short broken cs)

/-- A blank in front of the first piece disappears when the pieces are trimmed. -/
theorem map_trimmed_modifyHead_blank {c : Char} (blank : isBlank c = true) (ps : List (List Char)) :
    (ps.modifyHead (c :: ·)).map trimmed = ps.map trimmed := by
  cases ps with
  | nil => rfl
  | cons p ps =>
      have dropped : dropBlanks (c :: p) = dropBlanks p := by
        simp [dropBlanks, blank]
      simp [trimmed, trimChars, dropped]

theorem not_prefix_of_first {c : Char} (other : d.chars[0]? ≠ some c) (cs : List Char) :
    ¬d.chars <+: c :: cs := by
  intro found
  obtain ⟨tail, spelled⟩ := found
  apply other
  have first := congrArg (·[0]?) spelled
  simp only [List.getElem?_cons_zero] at first
  rw [← first, List.getElem?_append_left (List.length_pos_iff.mpr d.nonempty)]

theorem first_eq_head : d.chars[0]? = some (d.chars.head d.nonempty) := by
  obtain ⟨c, rest, spelled⟩ := List.exists_cons_of_ne_nil d.nonempty
  simp [spelled]

end Delimiter

namespace Scan

open Delimiter

variable {d : Delimiter} {s : Scan} {c : Char}

theorem modifyHead_self (ps : List (List Char)) : ps.modifyHead (fun p => p) = ps := by
  cases ps <;> rfl

/-- The end of a line closes the last column with any pending match read back as text. -/
theorem finish_eq (d : Delimiter) (s : Scan) :
    finish d s = s.columns.reverse ++ [trimmed (s.pending.reverse ++ d.chars.take s.matched)] := by
  simp [finish, closeColumn, trimmed]

/-- The invariant of the machine on a line without quotes: it stays outside quotes, a match is
always shorter than the delimiter, and right after a delimiter nothing is matched or pending. -/
structure Searching (d : Delimiter) (s : Scan) : Prop where
  open_ : s.quoted = false
  short : s.matched < d.length
  fresh : s.afterDelimiter = true → s.matched = 0 ∧ s.pending = []

theorem searching_initial : Searching d {} :=
  ⟨rfl, d.length_pos, fun after => nomatch after⟩

/-- **One character keeps the invariant**, whichever way the step goes. -/
theorem Searching.step (searching : Searching d s) (notQuote : c ≠ '"') :
    Searching d (step d s c) := by
  by_cases skipped : s.afterDelimiter = true ∧ isBlank c = true
  · rw [step_skip skipped.1 skipped.2]
    exact searching
  · have kept : s.afterDelimiter = true → isBlank c = false := fun after => by
      simpa [after] using skipped
    rw [step_of_open kept searching.open_]
    have settledOpen : (settle d { s with afterDelimiter := false } c).quoted = false := by
      unfold settle; split <;> exact searching.open_
    have settledAfter : (settle d { s with afterDelimiter := false } c).afterDelimiter = false := by
      unfold settle; split <;> rfl
    have settledShort : (settle d { s with afterDelimiter := false } c).matched < d.length :=
      Nat.lt_of_le_of_lt settle_matched_le searching.short
    generalize settle d { s with afterDelimiter := false } c = t at settledOpen settledAfter settledShort
    by_cases next : d.chars[t.matched]? = some c
    · by_cases last : t.matched + 1 = d.length
      · rw [stepOpen_complete next last]
        exact ⟨settledOpen, d.length_pos, fun _ => ⟨rfl, rfl⟩⟩
      · rw [stepOpen_continue next (by omega)]
        exact ⟨settledOpen, by simp only; omega, fun after => by simp [settledAfter] at after⟩
    · rw [stepOpen_text next notQuote]
      exact ⟨settledOpen, settledShort, fun after => by simp [settledAfter] at after⟩

/-- What the rest of a run gives, by the search: the finished columns, then the pieces of the
matched start and the rest of the line, the first piece after the pending text. -/
def Agrees (d : Delimiter) (cs : List Char) (s : Scan) : Prop :=
  finish d (cs.foldl (step d) s) =
    s.columns.reverse ++
      ((d.pieces (d.chars.take s.matched ++ cs)).modifyHead (s.pending.reverse ++ ·)).map trimmed

theorem agrees_nil (searching : Searching d s) : Agrees d [] s := by
  have short := searching.short
  rw [Agrees, List.foldl_nil, finish_eq, List.append_nil,
    pieces_of_short _ (by simp [Delimiter.length] at short ⊢; omega)]
  rfl

/-- The character that completes the delimiter closes the column, where the search cuts too. -/
theorem agrees_cons_of_complete {cs : List Char} (rest : ∀ t, Searching d t → Agrees d cs t)
    (searching : Searching d s) (kept : s.afterDelimiter = true → isBlank c = false)
    (next : d.chars[s.matched]? = some c) (last : s.matched + 1 = d.length) :
    Agrees d (c :: cs) s := by
  have stepped := step_complete kept searching.open_ next last
  have restRun := rest { s.closeColumn with matched := 0, afterDelimiter := true }
    ⟨searching.open_, d.length_pos, fun _ => ⟨rfl, rfl⟩⟩
  have whole : d.chars.take s.matched ++ c :: cs = d.chars ++ cs := by
    calc d.chars.take s.matched ++ c :: cs = d.chars.take (s.matched + 1) ++ cs := by
          rw [List.take_add_one, next]; simp
      _ = d.chars ++ cs := by rw [last, Delimiter.length, List.take_length]
  rw [Agrees] at restRun ⊢
  rw [List.foldl_cons, stepped, restRun, whole, pieces_delimiter_append]
  simp [closeColumn, trimmed, modifyHead_self]

/-- A character that moves a match on is held back, as the search holds the start of a cut. -/
theorem agrees_cons_of_continue {cs : List Char} (notQuote : c ≠ '"')
    (rest : ∀ t, Searching d t → Agrees d cs t) (searching : Searching d s)
    (kept : s.afterDelimiter = true → isBlank c = false) (next : d.chars[s.matched]? = some c)
    (more : s.matched + 1 ≠ d.length) : Agrees d (c :: cs) s := by
  have stepped := step_continue kept searching.open_ next (by have := searching.short; omega)
  have restRun := rest _ (searching.step notQuote)
  have extended : d.chars.take s.matched ++ c :: cs = d.chars.take (s.matched + 1) ++ cs := by
    rw [List.take_add_one, next]
    simp
  rw [stepped, Agrees] at restRun
  rw [Agrees, List.foldl_cons, stepped, restRun, extended]

section Run

variable (lead : isBlank (d.chars.head d.nonempty) = false)
include lead

/-- At a column start, or after a broken match is put back, the next character is read with
nothing matched: it is skipped, starts a match, or is text. -/
theorem agrees_cons_of_unmatched {c : Char} {cs : List Char} (notQuote : c ≠ '"')
    (rest : ∀ t, Searching d t → Agrees d cs t) (searching : Searching d s)
    (unmatched : s.matched = 0) : Agrees d (c :: cs) s := by
  have first := first_eq_head (d := d)
  by_cases skipped : s.afterDelimiter = true ∧ isBlank c = true
  · -- a blank after a delimiter: skipped here, trimmed away by the search
    obtain ⟨_, empty⟩ := searching.fresh skipped.1
    have other : d.chars[0]? ≠ some c := by
      rw [first]
      intro same
      rw [Option.some.inj same, skipped.2] at lead
      exact Bool.noConfusion lead
    have restRun := rest s searching
    rw [Agrees, unmatched, empty] at restRun ⊢
    rw [List.foldl_cons, step_skip skipped.1 skipped.2, restRun]
    simp only [List.take_zero, List.nil_append, List.reverse_nil, modifyHead_self]
    rw [pieces_cons_of_missed (not_prefix_of_first other cs),
      map_trimmed_modifyHead_blank skipped.2]
  have kept : s.afterDelimiter = true → isBlank c = false := fun after => by
    simpa [after] using skipped
  by_cases starts : d.chars[0]? = some c
  · -- a match starts: a one-character delimiter ends the column at once
    have next : d.chars[s.matched]? = some c := by rw [unmatched]; exact starts
    by_cases single : s.matched + 1 = d.length
    · exact agrees_cons_of_complete rest searching kept next single
    · exact agrees_cons_of_continue notQuote rest searching kept next single
  · -- text: it joins the pending column, and the search puts it in the first piece
    have stepped := step_text kept searching.open_ unmatched starts notQuote
    have restRun := rest _ (searching.step notQuote)
    rw [stepped, Agrees] at restRun
    rw [Agrees, List.foldl_cons, stepped, restRun, unmatched]
    simp only [List.take_zero, List.nil_append]
    rw [pieces_cons_of_missed (not_prefix_of_first starts cs), List.modifyHead_modifyHead]
    congr 3
    funext piece
    simp

/-- **The machine follows the search.** On a restart-safe delimiter that does not start with a
blank, every run over quote-free text from a state of the invariant ends with the columns the
search gives. The induction is on the text, for every state at once: a broken match is put
back and its character read again from a column start (`agrees_cons_of_unmatched`), where
restart safety says the search finds no occurrence inside the broken attempt either. -/
theorem agrees (safe : d.RestartSafe) :
    ∀ (cs : List Char) (s : Scan), '"' ∉ cs → Searching d s → Agrees d cs s
  | [], _, _, searching => agrees_nil searching
  | c :: cs, s, noQuote, searching => by
      have notQuote : c ≠ '"' := fun same => noQuote (same ▸ List.mem_cons_self)
      have rest : ∀ t, Searching d t → Agrees d cs t := fun t searchingRest =>
        agrees safe cs t (fun member => noQuote (List.mem_cons_of_mem _ member)) searchingRest
      by_cases unmatched : s.matched = 0
      · exact agrees_cons_of_unmatched lead notQuote rest searching unmatched
      have notAfter : s.afterDelimiter = false := by
        cases after : s.afterDelimiter
        · rfl
        · exact absurd (searching.fresh after).1 unmatched
      have kept : s.afterDelimiter = true → isBlank c = false := by simp [notAfter]
      by_cases next : d.chars[s.matched]? = some c
      · -- the match goes on, and may complete the delimiter
        by_cases last : s.matched + 1 = d.length
        · exact agrees_cons_of_complete rest searching kept next last
        · exact agrees_cons_of_continue notQuote rest searching kept next last
      · -- the match breaks: put back, and the character is read again from a column start
        have restarted := step_break notAfter searching.open_ unmatched next
        have searchingAgain : Searching d
            { s with pending := (d.chars.take s.matched).reverse ++ s.pending, matched := 0 } :=
          ⟨searching.open_, d.length_pos, fun after => by simp [notAfter] at after⟩
        have atStart := agrees_cons_of_unmatched lead notQuote rest searchingAgain rfl
        rw [Agrees] at atStart ⊢
        rw [List.foldl_cons, restarted, ← List.foldl_cons, atStart,
          safe.pieces_take_append searching.short next cs, List.modifyHead_modifyHead]
        simp [Function.comp_def]

end Run

end Scan

open Scan in
/-- **Unquoted splitting is the plain search.** For a restart-safe delimiter that does not start
with a blank, every line without a double quote splits into the columns the search finds:
none for a blank line, else the trimmed pieces between leftmost occurrences. -/
theorem split_eq_searchSplit {d : Delimiter} (safe : d.RestartSafe)
    (lead : isBlank (d.chars.head d.nonempty) = false) (line : String)
    (noQuote : '"' ∉ line.toList) : d.split line = d.searchSplit line := by
  unfold Delimiter.split Delimiter.searchSplit
  dsimp only
  split
  · rfl
  · have run := agrees lead safe (dropLineEnd line.toList) {} (not_mem_dropLineEnd noQuote)
      searching_initial
    rw [Agrees] at run
    rw [Delimiter.columnsOf, run]
    simp [modifyHead_self]


open Scan in
/-- **A broken border hides an occurrence.** When a border of a matched start `d[:k]` starting at
`j` is followed by another character than the start, the line `d[:j] ++ d` splits into one
column while the search finds the delimiter in it. The delimiter must not start with a blank
(else the line may be blank) and must not end with a line end (else that end is dropped). -/
theorem split_ne_searchSplit_of_border {d : Delimiter}
    (lead : isBlank (d.chars.head d.nonempty) = false)
    (notFeed : d.chars.getLast d.nonempty ≠ '\n') (notReturn : d.chars.getLast d.nonempty ≠ '\r')
    {j k : Nat} (inside : 0 < j) (below : j < k) (short : k < d.length)
    (border : (d.chars.drop j).take (k - j) = d.chars.take (k - j))
    (differs : d.chars[k - j]? ≠ d.chars[k]?) :
    d.split (String.ofList (d.chars.take j ++ d.chars)) ≠
      d.searchSplit (String.ofList (d.chars.take j ++ d.chars)) := by
  have lengthBound : k < d.chars.length := short
  have noLineEnd : dropLineEnd (d.chars.take j ++ d.chars) = d.chars.take j ++ d.chars := by
    rw [← List.dropLast_append_getLast d.nonempty, ← List.append_assoc]
    exact dropLineEnd_append_of_ne _ notFeed notReturn
  have notBlank : ¬(d.chars.take j ++ d.chars).all isBlank = true := by
    intro allBlank
    have member : d.chars.head d.nonempty ∈ d.chars.take j ++ d.chars :=
      List.mem_append_right _ (List.head_mem d.nonempty)
    rw [List.all_eq_true.mp allBlank _ member] at lead
    exact Bool.noConfusion lead
  -- the line is the matched start `d[:k]`, then the character `d[k - j]` that breaks it
  have decomposed : d.chars.take j ++ d.chars =
      d.chars.take k ++ d.chars[k - j] :: d.chars.drop (k - j + 1) := by
    have start : d.chars.take k = d.chars.take j ++ d.chars.take (k - j) := by
      rw [← border, ← List.take_add, Nat.add_sub_cancel' (Nat.le_of_lt below)]
    rw [start, List.append_assoc, ← List.drop_eq_getElem_cons, List.take_append_drop]
  have broken : d.chars[k]? ≠ some d.chars[k - j] := by
    rw [← List.getElem?_eq_getElem]
    exact differs.symm
  have opened : (d.chars.take k).foldl (step d) {} = ⟨[], [], false, false, k⟩ := by
    have run := foldl_step_partial (d := d) [] [] [] (d.chars.take k) (List.take_prefix _ _)
      (by simp [Delimiter.length]; omega)
    have takeLength : ([] ++ d.chars.take k).length = k := by
      simp
      omega
    rw [takeLength] at run
    exact run
  have oneColumn : ((d.chars.take j ++ d.chars).foldl (step d) {}).columns = [] := by
    rw [decomposed, List.foldl_append, opened, List.foldl_cons,
      step_break rfl rfl (show k ≠ 0 by omega) broken, ← List.foldl_cons,
      foldl_step_columns_of_short _ _ (by simp [Delimiter.length]; omega)]
  unfold Delimiter.split Delimiter.searchSplit
  dsimp only
  rw [String.toList_ofList, noLineEnd, if_neg notBlank, if_neg notBlank]
  intro same
  have lengths := congrArg List.length (Option.some.inj same)
  have twoPieces := d.two_le_length_pieces [] (d.chars.take j)
  rw [List.append_nil] at twoPieces
  rw [Delimiter.columnsOf, finish_eq, oneColumn, List.length_map] at lengths
  simp at lengths
  omega

/-- **Unquoted splitting and the plain search agree exactly on the restart-safe delimiters.**
For a delimiter that does not start with a blank: if it is restart-safe, every quote-free line
splits as the search finds; if a border breaks restart safety and the delimiter does not end
with a line end, the line made of the delimiter's start and the delimiter tells them apart. -/
theorem split_agrees_with_search :
    (∀ d : Delimiter, d.RestartSafe → isBlank (d.chars.head d.nonempty) = false →
      ∀ line : String, '"' ∉ line.toList → d.split line = d.searchSplit line) ∧
    (∀ (d : Delimiter) (j k : Nat), isBlank (d.chars.head d.nonempty) = false →
      d.chars.getLast d.nonempty ≠ '\n' → d.chars.getLast d.nonempty ≠ '\r' →
      0 < j → j < k → k < d.length →
      (d.chars.drop j).take (k - j) = d.chars.take (k - j) → d.chars[k - j]? ≠ d.chars[k]? →
      d.split (String.ofList (d.chars.take j ++ d.chars)) ≠
        d.searchSplit (String.ofList (d.chars.take j ++ d.chars))) :=
  ⟨fun _ safe lead line noQuote => split_eq_searchSplit safe lead line noQuote,
    fun _ _ _ lead notFeed notReturn inside below short border differs =>
      split_ne_searchSplit_of_border lead notFeed notReturn inside below short border differs⟩

/-- The delimiter `aab`, restart-unsafe at `(1, 2)`. -/
def doubledA : Delimiter :=
  ⟨['a', 'a', 'b'], by simp⟩

/-- The comma is restart-safe and `a, b` splits as the search finds; `aab` is not, and on
`aaab` the splitter keeps one column where the search finds two. -/
theorem split_agrees_with_search_comma_doubledA :
    (Delimiter.comma.RestartSafe ∧ Delimiter.comma.split "a, b" = Delimiter.comma.searchSplit "a, b") ∧
      doubledA.split (String.ofList (doubledA.chars.take 1 ++ doubledA.chars)) ≠
        doubledA.searchSplit (String.ofList (doubledA.chars.take 1 ++ doubledA.chars)) :=
  ⟨⟨by decide, split_agrees_with_search.1 _ (by decide) (by decide) _ (by decide)⟩,
    split_agrees_with_search.2 doubledA 1 2 (by decide) (by decide) (by decide)
      (by decide) (by decide) (by decide) (by decide) (by decide)⟩

/-- The delimiter `aa` then a line feed, restart-unsafe at `(1, 2)`. -/
def doubledAFeed : Delimiter :=
  ⟨['a', 'a', '\n'], by simp⟩

/-- **A line end hides the broken border.** For `aa` and a line feed the line `aaa` and a line
feed loses its line feed before either side reads it, and both give the one column `aaa`. -/
theorem split_eq_searchSplit_doubledAFeed :
    isBlank (doubledAFeed.chars.head doubledAFeed.nonempty) = false ∧ '"' ∉ doubledAFeed.chars ∧
      (doubledAFeed.chars.drop 1).take (2 - 1) = doubledAFeed.chars.take (2 - 1) ∧
      doubledAFeed.chars[2 - 1]? ≠ doubledAFeed.chars[2]? ∧
      doubledAFeed.split (String.ofList (doubledAFeed.chars.take 1 ++ doubledAFeed.chars)) =
        doubledAFeed.searchSplit (String.ofList (doubledAFeed.chars.take 1 ++ doubledAFeed.chars)) := by
  refine ⟨by decide, by decide, by decide, by decide, ?_⟩
  decide +kernel

end Ingest.Delimited
