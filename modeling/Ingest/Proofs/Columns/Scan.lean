import Ingest.Delimited.Columns

/-!
Contract: what one character does to the column machine.

Owns: one equation for each way `Scan.step` can go (a blank skipped after a delimiter, a
character inside quotes, a quote that opens or closes a span, a delimiter character that
continues or completes a match, a broken partial match, plain text), stated through the small
lemmas of `settle` and `stepOpen`; the runs every longer argument is built from: a quoted span
read to its end, a partial match moved on and a whole delimiter completed, and a stretch too
short to finish any column; and the two facts about dropping a line end that both line-level
statements use.

Does not own: any statement about a whole line. Those are in `Columns.Quoted` and
`Columns.Search`, and they cite these equations instead of unfolding `step`.
-/

namespace Ingest.Delimited

open Ingest.Text

namespace Scan

variable {d : Delimiter} {s : Scan} {c : Char}

/-! ### Settling a partial match -/

theorem settle_of_unmatched (unmatched : s.matched = 0) : settle d s c = s := by
  simp [settle, unmatched]

theorem settle_of_next (next : d.chars[s.matched]? = some c) : settle d s c = s := by
  simp [settle, next]

theorem settle_of_break (partial_ : s.matched ≠ 0) (broken : d.chars[s.matched]? ≠ some c) :
    settle d s c =
      { s with pending := (d.chars.take s.matched).reverse ++ s.pending, matched := 0 } := by
  simp [settle, partial_, broken]

theorem settle_columns : (settle d s c).columns = s.columns := by
  unfold settle
  split <;> rfl

theorem settle_matched_le : (settle d s c).matched ≤ s.matched := by
  unfold settle
  split
  · exact Nat.zero_le _
  · exact Nat.le_refl _

/-! ### One character outside quotes, once settled -/

theorem stepOpen_continue (next : d.chars[s.matched]? = some c)
    (short : s.matched + 1 < d.length) :
    stepOpen d s c = { s with matched := s.matched + 1 } := by
  simp [stepOpen, next, Nat.ne_of_lt short]

theorem stepOpen_complete (next : d.chars[s.matched]? = some c)
    (last : s.matched + 1 = d.length) :
    stepOpen d s c = { s.closeColumn with matched := 0, afterDelimiter := true } := by
  simp [stepOpen, next, last]

theorem stepOpen_text (other : d.chars[s.matched]? ≠ some c) (notQuote : c ≠ '"') :
    stepOpen d s c = { s with pending := c :: s.pending } := by
  simp [stepOpen, other, notQuote]

theorem stepOpen_openQuote (other : d.chars[s.matched]? ≠ some '"') (empty : s.pending = []) :
    stepOpen d s '"' = { s with quoted := true } := by
  simp [stepOpen, other, empty]

/-- A step moves a match on by at most one character. -/
theorem stepOpen_matched_le : (stepOpen d s c).matched ≤ s.matched + 1 := by
  unfold stepOpen
  split
  · split <;> simp
  · split
    · split <;> simp
    · simp

/-- A column is finished only by the last character of a delimiter. -/
theorem stepOpen_columns_of_short (short : s.matched + 1 < d.length) :
    (stepOpen d s c).columns = s.columns := by
  unfold stepOpen
  split
  · split
    · omega
    · rfl
  · split
    · split <;> rfl
    · rfl

/-! ### One character of a line -/

theorem step_skip (after : s.afterDelimiter = true) (blank : isBlank c = true) :
    step d s c = s := by
  simp [step, after, blank]

theorem step_of_open (kept : s.afterDelimiter = true → isBlank c = false)
    (open_ : s.quoted = false) :
    step d s c = stepOpen d (settle d { s with afterDelimiter := false } c) c := by
  have notSkipped : ¬(s.afterDelimiter = true ∧ isBlank c = true) := by
    rintro ⟨after, blank⟩
    simp [kept after] at blank
  simp [step, notSkipped, open_]

theorem step_of_quoted (kept : s.afterDelimiter = true → isBlank c = false)
    (quoted : s.quoted = true) :
    step d s c = if c = '"' then { s with afterDelimiter := false, quoted := false }
      else { s with afterDelimiter := false, pending := c :: s.pending } := by
  have notSkipped : ¬(s.afterDelimiter = true ∧ isBlank c = true) := by
    rintro ⟨after, blank⟩
    simp [kept after] at blank
  simp [step, notSkipped, quoted]

/-- A step moves a match on by at most one character: a settled match only shrinks. -/
theorem step_matched_le : (step d s c).matched ≤ s.matched + 1 := by
  unfold step
  split
  · exact Nat.le_succ _
  · dsimp only
    split
    · split <;> exact Nat.le_succ _
    · have settled := settle_matched_le (d := d) (s := { s with afterDelimiter := false }) (c := c)
      have moved := stepOpen_matched_le (d := d) (s := settle d { s with afterDelimiter := false } c)
        (c := c)
      exact Nat.le_trans moved (Nat.succ_le_succ settled)

/-- A step finishes no column while the match it continues is too short to complete. -/
theorem step_columns_of_short (short : s.matched + 1 < d.length) :
    (step d s c).columns = s.columns := by
  unfold step
  split
  · rfl
  · dsimp only
    split
    · split <;> rfl
    · have settled := settle_matched_le (d := d) (s := { s with afterDelimiter := false }) (c := c)
      rw [stepOpen_columns_of_short (Nat.lt_of_le_of_lt (Nat.succ_le_succ settled) short),
        settle_columns]

theorem step_continue (kept : s.afterDelimiter = true → isBlank c = false)
    (open_ : s.quoted = false) (next : d.chars[s.matched]? = some c)
    (short : s.matched + 1 < d.length) :
    step d s c = { s with afterDelimiter := false, matched := s.matched + 1 } := by
  rw [step_of_open kept open_, settle_of_next (s := { s with afterDelimiter := false }) next,
    stepOpen_continue (s := { s with afterDelimiter := false }) next short]

theorem step_complete (kept : s.afterDelimiter = true → isBlank c = false)
    (open_ : s.quoted = false) (next : d.chars[s.matched]? = some c)
    (last : s.matched + 1 = d.length) :
    step d s c = { s.closeColumn with matched := 0, afterDelimiter := true } := by
  rw [step_of_open kept open_, settle_of_next (s := { s with afterDelimiter := false }) next,
    stepOpen_complete (s := { s with afterDelimiter := false }) next last]
  rfl

theorem step_text (kept : s.afterDelimiter = true → isBlank c = false)
    (open_ : s.quoted = false) (unmatched : s.matched = 0) (other : d.chars[0]? ≠ some c)
    (notQuote : c ≠ '"') :
    step d s c = { s with afterDelimiter := false, pending := c :: s.pending } := by
  rw [step_of_open kept open_,
    settle_of_unmatched (s := { s with afterDelimiter := false }) unmatched,
    stepOpen_text (s := { s with afterDelimiter := false }) (by simpa [unmatched]) notQuote]

theorem step_openQuote (open_ : s.quoted = false) (unmatched : s.matched = 0)
    (other : d.chars[0]? ≠ some '"') (empty : s.pending = []) :
    step d s '"' = { s with afterDelimiter := false, quoted := true } := by
  rw [step_of_open (fun _ => by decide) open_,
    settle_of_unmatched (s := { s with afterDelimiter := false }) unmatched,
    stepOpen_openQuote (s := { s with afterDelimiter := false }) (by simpa [unmatched]) empty]

/-- A broken partial match goes back into the column, and the character is read again as if
nothing had been matched. -/
theorem step_break (notAfter : s.afterDelimiter = false) (open_ : s.quoted = false)
    (partial_ : s.matched ≠ 0) (broken : d.chars[s.matched]? ≠ some c) :
    step d s c = step d
      { s with pending := (d.chars.take s.matched).reverse ++ s.pending, matched := 0 } c := by
  rw [step_of_open (by simp [notAfter]) open_,
    step_of_open (s := { s with pending := _, matched := 0 }) (by simp [notAfter]) open_,
    settle_of_break (s := { s with afterDelimiter := false }) partial_ broken,
    settle_of_unmatched (s := { s with afterDelimiter := false, pending := _, matched := 0 }) rfl]

/-! ### Runs -/

/-- Inside a quoted span every character but the double quote is text. -/
theorem foldl_step_quoted (columns pending : List _) (matched : Nat) :
    ∀ cs : List Char, '"' ∉ cs →
      cs.foldl (step d) ⟨columns, pending, true, false, matched⟩ =
        ⟨columns, cs.reverse ++ pending, true, false, matched⟩
  | [], _ => rfl
  | c :: cs, noQuote => by
      have notQuote : c ≠ '"' := fun same => noQuote (same ▸ List.mem_cons_self)
      rw [List.foldl_cons, step_of_quoted (by simp) rfl, if_neg notQuote]
      dsimp only
      rw [foldl_step_quoted columns (c :: pending) matched cs
        (fun member => noQuote (List.mem_cons_of_mem _ member))]
      simp

/-- Characters that continue a match only move it on: reading `mid` after a partial match of
`pre`, where `pre ++ mid` is still a proper start of the delimiter, leaves a match of
`pre ++ mid`. -/
theorem foldl_step_partial (columns pending : List _) :
    ∀ (pre mid : List Char), pre ++ mid <+: d.chars → (pre ++ mid).length < d.length →
      mid.foldl (step d) ⟨columns, pending, false, false, pre.length⟩ =
        ⟨columns, pending, false, false, (pre ++ mid).length⟩
  | pre, [], _, _ => by simp
  | pre, c :: mid, spelled, short => by
      obtain ⟨rest, spelled⟩ := spelled
      have next : d.chars[pre.length]? = some c := by simp [← spelled]
      rw [List.foldl_cons, step_continue (by simp) rfl next (by simp at short ⊢; omega)]
      have restRun := foldl_step_partial columns pending (pre ++ [c]) mid
        ⟨rest, by simp [← spelled]⟩ (by simpa using short)
      simpa using restRun

/-- **A delimiter completes a match.** Its characters read after a partial match of `pre`
close the column, trimmed, and leave the machine right after a delimiter. -/
theorem foldl_step_delimiter (columns pending : List _) (pre rest : List Char)
    (spelled : d.chars = pre ++ rest) (nonempty : rest ≠ []) :
    rest.foldl (step d) ⟨columns, pending, false, false, pre.length⟩ =
      ⟨String.ofList (trimChars pending.reverse) :: columns, [], false, true, 0⟩ := by
  obtain ⟨mid, last, rfl⟩ := List.eq_nil_or_concat rest |>.resolve_left nonempty
  rw [List.concat_eq_append] at spelled ⊢
  have partialRun := foldl_step_partial (d := d) columns pending pre mid ⟨[last], by simp [spelled]⟩
    (by simp [Delimiter.length, spelled])
  have next : d.chars[(pre ++ mid).length]? = some last := by simp [spelled]
  rw [List.foldl_append, partialRun, List.foldl_cons, List.foldl_nil,
    step_complete (by simp) rfl next (by simp [Delimiter.length, spelled]; omega)]
  rfl

/-- **No column ends early.** While fewer characters are left than a delimiter needs beyond the
present match, no column is finished. -/
theorem foldl_step_columns_of_short :
    ∀ (cs : List Char) (s : Scan), s.matched + cs.length < d.length →
      (cs.foldl (step d) s).columns = s.columns
  | [], _, _ => rfl
  | c :: cs, s, short => by
      have moved := step_matched_le (d := d) (s := s) (c := c)
      simp only [List.length_cons] at short
      rw [List.foldl_cons, foldl_step_columns_of_short cs (step d s c) (by omega),
        step_columns_of_short (by omega)]

end Scan

/-! ### Line ends -/

theorem dropLineEnd_append_of_ne (cs : List Char) {c : Char} (notFeed : c ≠ '\n')
    (notReturn : c ≠ '\r') : dropLineEnd (cs ++ [c]) = cs ++ [c] := by
  simp [dropLineEnd, notFeed, notReturn]

theorem not_mem_dropLineEnd {x : Char} {cs : List Char} (absent : x ∉ cs) :
    x ∉ dropLineEnd cs := fun member =>
  absent (by
    simp only [dropLineEnd, List.mem_reverse] at member
    simpa using (List.dropWhile_suffix _).subset member)

end Ingest.Delimited
