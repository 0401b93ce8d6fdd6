import Ingest.Proofs.Columns.Quoted

/-!
Contract: splitting a line neither loses nor invents data.

Owns: the characters of a text that splitting must keep (`dataChars`: those neither blank nor a
double quote) and that trimming keeps them; what a state of the column machine has kept so far
(`Scan.kept`: its finished columns, each followed by the delimiter, then the pending column and
the part of the delimiter matched so far); one lemma for each way a step goes, that it keeps the
data of what it read; the run over a line, and the last column closed by `finish`.

Each character leaves a step by one of five ways: skipped as a blank after a delimiter, taken as
a quote that opens or closes a span, held as part of a match of the delimiter, put back as text
when that match breaks, or added to the pending column. Blanks and quotes carry no data, a match
is kept as the matched part of the delimiter, and a broken match is the same characters again,
so the data of what is kept is always the data of what was read. The one invariant this needs is
that nothing is matched inside a quoted span.

Does not own: where the columns end, which `Columns.Search` and `Columns.Quoted` describe.
-/

namespace Ingest.Delimited

open Ingest.Text

/-- The characters of a text that carry data: those that are neither blank nor a double
quote. -/
def dataChars (cs : List Char) : List Char :=
  cs.filter fun c => !isBlank c && c != '"'

@[simp] theorem dataChars_append (xs ys : List Char) :
    dataChars (xs ++ ys) = dataChars xs ++ dataChars ys :=
  List.filter_append _ _

theorem dataChars_reverse (cs : List Char) : dataChars cs.reverse = (dataChars cs).reverse :=
  List.filter_reverse

theorem dataChars_blank {c : Char} (blank : isBlank c = true) : dataChars [c] = [] := by
  simp [dataChars, blank]

theorem dataChars_quote : dataChars ['"'] = [] := by
  decide

theorem dataChars_dropBlanks (cs : List Char) : dataChars (dropBlanks cs) = dataChars cs := by
  have blanks : dataChars (cs.takeWhile isBlank) = [] :=
    List.filter_eq_nil_iff.mpr fun c member => by
      simp [List.all_eq_true.mp List.all_takeWhile c member]
  conv => rhs; rw [← List.takeWhile_append_dropWhile (p := isBlank) (l := cs)]
  rw [dataChars_append, blanks, List.nil_append, dropBlanks]

/-- Trimming removes blanks only. -/
theorem dataChars_trimChars (cs : List Char) : dataChars (trimChars cs) = dataChars cs := by
  rw [trimChars, dataChars_reverse, dataChars_dropBlanks, dataChars_reverse,
    dataChars_dropBlanks, List.reverse_reverse]

theorem intercalate_append_singleton (sep : List Char) (y : List Char) :
    ∀ xs : List (List Char), sep.intercalate (xs ++ [y]) = xs.flatMap (· ++ sep) ++ y
  | [] => by simp
  | x :: xs => by
      rw [List.cons_append, List.intercalate_cons_of_ne_nil (by simp),
        intercalate_append_singleton sep y xs, List.flatMap_cons]
      simp

namespace Scan

/-- What a state of the column machine has kept of the characters it read: each finished column
followed by the delimiter, then the pending column and the characters of the delimiter matched
so far. -/
def kept (d : Delimiter) (s : Scan) : List Char :=
  s.columns.reverse.flatMap (fun col => col.toList ++ d.chars) ++ s.pending.reverse ++
    d.chars.take s.matched

variable {d : Delimiter} {s : Scan} {c : Char}

theorem kept_empty : kept d {} = [] := rfl

/-! ### Settling a broken match -/

theorem settle_kept : (settle d s c).kept d = s.kept d := by
  unfold settle
  split
  · simp [kept]
  · rfl

theorem settle_quoted : (settle d s c).quoted = s.quoted := by
  unfold settle
  split <;> rfl

/-- After settling, the match is empty or continued by the character. -/
theorem settle_ready :
    (settle d s c).matched = 0 ∨ d.chars[(settle d s c).matched]? = some c := by
  unfold settle
  split
  · exact .inl rfl
  · rename_i whole
    by_cases unmatched : s.matched = 0
    · exact .inl unmatched
    · exact .inr (by simpa [unmatched] using whole)

/-! ### One character -/

theorem stepOpen_quoteText (other : d.chars[s.matched]? ≠ some '"') (nonempty : s.pending ≠ []) :
    stepOpen d s '"' = { s with pending := '"' :: s.pending } := by
  simp [stepOpen, other, nonempty]

theorem take_succ_of_next {m : Nat} (next : d.chars[m]? = some c) :
    d.chars.take m ++ [c] = d.chars.take (m + 1) := by
  rw [List.take_add_one, next]
  rfl

/-- What reading one character outside quotes does, once a broken match is settled: it
completes the delimiter, continues the match, opens a quoted span, or joins the pending
column. -/
theorem stepOpen_cases (ready : s.matched = 0 ∨ d.chars[s.matched]? = some c) :
    (d.chars[s.matched]? = some c ∧ s.matched + 1 = d.length ∧
        stepOpen d s c = { s.closeColumn with matched := 0, afterDelimiter := true }) ∨
      (d.chars[s.matched]? = some c ∧
        stepOpen d s c = { s with matched := s.matched + 1 }) ∨
      (s.matched = 0 ∧ c = '"' ∧ stepOpen d s c = { s with quoted := true }) ∨
      (s.matched = 0 ∧ stepOpen d s c = { s with pending := c :: s.pending }) := by
  by_cases next : d.chars[s.matched]? = some c
  · by_cases last : s.matched + 1 = d.length
    · exact .inl ⟨next, last, stepOpen_complete next last⟩
    · have inside : s.matched < d.length := (List.getElem?_eq_some_iff.mp next).1
      exact .inr (.inl ⟨next, stepOpen_continue next (by omega)⟩)
  have unmatched : s.matched = 0 := ready.resolve_right next
  by_cases quote : c = '"'
  · subst quote
    by_cases empty : s.pending = []
    · exact .inr (.inr (.inl ⟨unmatched, rfl, stepOpen_openQuote next empty⟩))
    · exact .inr (.inr (.inr ⟨unmatched, stepOpen_quoteText next empty⟩))
  · exact .inr (.inr (.inr ⟨unmatched, stepOpen_text next quote⟩))

/-- A character read outside quotes, once a broken match is settled, keeps its data. -/
theorem stepOpen_kept (ready : s.matched = 0 ∨ d.chars[s.matched]? = some c) :
    dataChars ((stepOpen d s c).kept d) = dataChars (s.kept d ++ [c]) := by
  rcases stepOpen_cases ready with ⟨next, last, read⟩ | ⟨next, read⟩ | ⟨unmatched, rfl, read⟩ |
    ⟨unmatched, read⟩ <;> rw [read]
  · -- the completed delimiter ends the column; trimming the column drops blanks only
    have whole : d.chars.take s.matched ++ [c] = d.chars := by
      rw [take_succ_of_next next, last]
      exact List.take_length
    simp only [kept, closeColumn, List.reverse_cons, List.flatMap_append, List.flatMap_cons,
      List.flatMap_nil, List.append_nil, List.reverse_nil, List.take_zero, dataChars_append,
      String.toList_ofList, dataChars_trimChars, List.append_assoc]
    rw [← dataChars_append _ [c], whole]
  · simp only [kept, List.append_assoc, take_succ_of_next next]
  · simp [kept, dataChars_quote]
  · simp [kept, unmatched]

theorem stepOpen_unmatched (ready : s.matched = 0 ∨ d.chars[s.matched]? = some c)
    (open_ : s.quoted = false) (quoted : (stepOpen d s c).quoted = true) :
    (stepOpen d s c).matched = 0 := by
  rcases stepOpen_cases ready with ⟨-, -, read⟩ | ⟨-, read⟩ | ⟨unmatched, -, read⟩ |
    ⟨-, read⟩
  · rw [read]
  · rw [read] at quoted
    simp [open_] at quoted
  · rw [read]
    exact unmatched
  · rw [read] at quoted
    simp [open_] at quoted

/-- **A step keeps the data of what it read.** -/
theorem step_kept (settled : s.quoted = true → s.matched = 0) :
    dataChars ((step d s c).kept d) = dataChars (s.kept d ++ [c]) := by
  by_cases skip : s.afterDelimiter = true ∧ isBlank c = true
  · rw [step_skip skip.1 skip.2, dataChars_append, dataChars_blank skip.2, List.append_nil]
  have notSkipped : s.afterDelimiter = true → isBlank c = false := fun after => by
    simpa [after] using skip
  cases quoted : s.quoted
  · rw [step_of_open notSkipped quoted, stepOpen_kept settle_ready, settle_kept]
    rfl
  · rw [step_of_quoted notSkipped quoted]
    split
    · rename_i quote
      simp [kept, quote, dataChars_quote]
    · simp [kept, settled quoted]

/-- Nothing is matched inside a quoted span, after any step. -/
theorem step_settled (settled : s.quoted = true → s.matched = 0) :
    (step d s c).quoted = true → (step d s c).matched = 0 := by
  by_cases skip : s.afterDelimiter = true ∧ isBlank c = true
  · rw [step_skip skip.1 skip.2]
    exact settled
  have notSkipped : s.afterDelimiter = true → isBlank c = false := fun after => by
    simpa [after] using skip
  cases quoted : s.quoted
  · rw [step_of_open notSkipped quoted]
    exact stepOpen_unmatched settle_ready (by rw [settle_quoted]; exact quoted)
  · rw [step_of_quoted notSkipped quoted]
    split
    · intro reopened
      cases reopened
    · exact fun _ => settled quoted

/-! ### A whole line -/

/-- Reading characters keeps their data, by induction on the characters with the invariant
that nothing is matched inside quotes. -/
theorem foldl_kept : ∀ (cs : List Char) (s : Scan), (s.quoted = true → s.matched = 0) →
    dataChars ((cs.foldl (step d) s).kept d) = dataChars (s.kept d ++ cs)
  | [], _, _ => by simp
  | c :: cs, s, settled => by
      rw [List.foldl_cons, foldl_kept cs (step d s c) (step_settled settled), dataChars_append,
        step_kept settled, ← dataChars_append, List.append_assoc, List.singleton_append]

/-- Ending a line keeps the data: a partial match is text of the last column, and closing it
trims blanks only. -/
theorem finish_kept (s : Scan) :
    dataChars (d.chars.intercalate ((finish d s).map String.toList)) = dataChars (s.kept d) := by
  simp only [finish, closeColumn, List.reverse_cons, List.map_append, List.map_cons,
    List.map_nil, String.toList_ofList, List.reverse_append, List.reverse_reverse]
  rw [intercalate_append_singleton, List.flatMap_map, dataChars_append, dataChars_trimChars, kept]
  simp only [dataChars_append, List.append_assoc]

end Scan

/-- **Splitting keeps the data of a line.** For every delimiter and every line that splits into
columns, the line without its line end and the columns joined by the delimiter hold the same
characters other than blanks and double quotes, in the same order. -/
theorem split_keeps_data (d : Delimiter) (line : String) (columns : List String)
    (split : d.split line = some columns) :
    dataChars (dropLineEnd line.toList) = dataChars (d.text.intercalate columns).toList := by
  unfold Delimiter.split at split
  dsimp only at split
  split at split
  · cases split
  cases split
  rw [String.toList_intercalate, Delimiter.text, String.toList_ofList, Delimiter.columnsOf,
    Scan.finish_kept, Scan.foldl_kept _ _ fun _ => rfl, Scan.kept_empty, List.nil_append]

/-- A line that breaks the arrow twice, quotes it, keeps a quote as text and ends in a partial
arrow. -/
def brokenArrows : String :=
  " a<-b <-> \"x<->y\" q\"z <->   c<-\r\n"

theorem split_keeps_data_brokenArrows :
    arrow.split brokenArrows = some ["a<-b", "x<->y q\"z", "c<-"] ∧
      dataChars (dropLineEnd brokenArrows.toList) =
        dataChars (arrow.text.intercalate ["a<-b", "x<->y q\"z", "c<-"]).toList :=
  have split : arrow.split brokenArrows = some ["a<-b", "x<->y q\"z", "c<-"] := by decide +kernel
  ⟨split, split_keeps_data arrow brokenArrows _ split⟩

end Ingest.Delimited
