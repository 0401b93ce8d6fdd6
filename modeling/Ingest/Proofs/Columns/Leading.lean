import Ingest.Proofs.Columns.Scan

/-!
Contract: blanks in front of a line change its columns only when the line opens a quote.

Owns: two runs of the column machine over the same characters, one of which holds blanks at the
front of its first column (`Scan.Shifted`), and what keeps them in step (`Scan.Tracks`): as long
as the first column has begun (a character is pending or a delimiter match is under way), a
double quote opens a span in neither run, so each character keeps them shifted, and a complete
delimiter closes the same trimmed column in both and makes them equal; a shifted pair also ends
a line with the same columns. From these, the statement for lines (`split_blank_prefix`): blanks
in front of a line are dropped with the first column's trimming, unless the line itself begins
with a double quote that opens a quoted span, which blanks in front of it turn into text
(`split_blank_quote`).

Does not own: the step equations of the machine, which are `Columns.Scan`.
-/

namespace Ingest.Delimited

open Ingest.Text

/-! ### Blanks at the front of a column -/

theorem dropBlanks_blank_append {pre : List Char} (blank : ∀ c ∈ pre, isBlank c = true)
    (cs : List Char) : dropBlanks (pre ++ cs) = dropBlanks cs := by
  induction pre with
  | nil => rfl
  | cons c pre ih =>
    have lead : isBlank c = true := blank c List.mem_cons_self
    rw [List.cons_append, dropBlanks, List.dropWhile_cons_of_pos lead]
    exact ih (fun x member => blank x (List.mem_cons_of_mem c member))

/-- Trimming drops blanks in front of a column. -/
theorem trimChars_blank_append {pre : List Char} (blank : ∀ c ∈ pre, isBlank c = true)
    (cs : List Char) : trimChars (pre ++ cs) = trimChars cs := by
  rw [trimChars, dropBlanks_blank_append blank, ← trimChars]

namespace Scan

variable {d : Delimiter} {pad : List Char}

/-- Two runs that differ only by `pad` at the far end of the pending column: the blanks read in
front of the first column, last first. Neither is in a quoted span or right after a
delimiter. -/
def Shifted (pad : List Char) (a b : Scan) : Prop :=
  b = { a with pending := a.pending ++ pad } ∧ a.quoted = false ∧ a.afterDelimiter = false

/-- Two runs in step: equal, or shifted with the first column begun, so that no double quote
can open a span in one run and not the other. -/
def Tracks (pad : List Char) (a b : Scan) : Prop :=
  a = b ∨ (Shifted pad a b ∧ (a.pending ≠ [] ∨ a.matched ≠ 0))

/-- A column closed in two shifted runs is the same column, the blanks trimmed away. -/
theorem closeColumn_shifted (blank : ∀ c ∈ pad, isBlank c = true) (a : Scan) :
    ({ a with pending := a.pending ++ pad } : Scan).closeColumn = a.closeColumn := by
  have front : ∀ c ∈ pad.reverse, isBlank c = true :=
    fun c member => blank c (List.mem_reverse.mp member)
  simp only [closeColumn, List.reverse_append, trimChars_blank_append front]

/-- One character outside quotes keeps two shifted runs in step, when the character cannot
open a span in the run whose column is still empty. -/
theorem Shifted.stepOpen {a b : Scan} {c : Char} (shifted : Shifted pad a b)
    (blank : ∀ c ∈ pad, isBlank c = true)
    (noOpen : a.pending = [] → c = '"' → d.chars[a.matched]? = some c) :
    Tracks pad (stepOpen d a c) (stepOpen d b c) := by
  obtain ⟨rfl, open_, notAfter⟩ := shifted
  unfold Scan.stepOpen
  dsimp only
  by_cases next : d.chars[a.matched]? = some c
  · rw [if_pos next, if_pos next]
    by_cases last : a.matched + 1 = d.length
    · -- a complete delimiter closes the same column in both runs
      rw [if_pos last, if_pos last]
      left
      rw [closeColumn_shifted blank]
    · rw [if_neg last, if_neg last]
      exact .inr ⟨⟨rfl, open_, notAfter⟩, .inr (Nat.succ_ne_zero _)⟩
  rw [if_neg next, if_neg next]
  by_cases quote : c = '"'
  · have begun : a.pending ≠ [] := fun empty => next (noOpen empty quote)
    have stillBegun : a.pending ++ pad ≠ [] := by simp [begun]
    rw [if_pos quote, if_pos quote, if_neg begun, if_neg stillBegun]
    exact .inr ⟨⟨rfl, open_, notAfter⟩, .inl (List.cons_ne_nil _ _)⟩
  · rw [if_neg quote, if_neg quote]
    exact .inr ⟨⟨rfl, open_, notAfter⟩, .inl (List.cons_ne_nil _ _)⟩

/-- **One character keeps two shifted runs in step**, unless it is a double quote that would
open a span in the run whose first column is still empty. -/
theorem Shifted.step {a b : Scan} {c : Char} (shifted : Shifted pad a b)
    (blank : ∀ c ∈ pad, isBlank c = true)
    (noOpen : a.pending ≠ [] ∨ a.matched ≠ 0 ∨ c ≠ '"' ∨ d.chars[0]? = some '"') :
    Tracks pad (step d a c) (step d b c) := by
  obtain ⟨rfl, open_, notAfter⟩ := shifted
  have kept : a.afterDelimiter = true → isBlank c = false := by simp [notAfter]
  rw [step_of_open kept open_,
    step_of_open (s := { a with pending := a.pending ++ pad }) kept open_]
  have same : ({ a with afterDelimiter := false } : Scan) = a := by rw [← notAfter]
  have sameShifted : ({ a with pending := a.pending ++ pad, afterDelimiter := false } : Scan) =
      { a with pending := a.pending ++ pad } := by rw [← notAfter]
  rw [same, sameShifted]
  by_cases broken : a.matched ≠ 0 ∧ d.chars[a.matched]? ≠ some c
  · -- a broken match goes back into both columns, which have then begun
    rw [settle_of_break broken.1 broken.2,
      settle_of_break (s := { a with pending := a.pending ++ pad }) broken.1 broken.2]
    have begun : (d.chars.take a.matched).reverse ++ a.pending ≠ [] := by
      obtain ⟨c0, rest, split⟩ := List.exists_cons_of_ne_nil d.nonempty
      obtain ⟨m, hm⟩ := Nat.exists_eq_succ_of_ne_zero broken.1
      simp [split, hm]
    apply Shifted.stepOpen _ blank (fun empty => absurd empty begun)
    exact ⟨by simp, open_, notAfter⟩
  · have unchanged : settle d a c = a := by
      unfold settle
      rw [if_neg broken]
    have unchangedShifted : settle d { a with pending := a.pending ++ pad } c =
        { a with pending := a.pending ++ pad } := by
      unfold settle
      rw [if_neg broken]
    rw [unchanged, unchangedShifted]
    apply Shifted.stepOpen ⟨rfl, open_, notAfter⟩ blank
    intro empty quote
    -- an empty column opens no span: a match is under way and goes on, or the delimiter
    -- itself begins with the quote
    rcases noOpen with begun | matching | other | lead
    · exact absurd empty begun
    · exact Decidable.not_not.mp fun miss => broken ⟨matching, miss⟩
    · exact absurd quote other
    · by_cases matching : a.matched = 0
      · rw [matching, lead, quote]
      · exact Decidable.not_not.mp fun miss => broken ⟨matching, miss⟩

theorem Tracks.step {a b : Scan} (tracks : Tracks pad a b) (blank : ∀ c ∈ pad, isBlank c = true)
    (c : Char) : Tracks pad (Scan.step d a c) (Scan.step d b c) := by
  rcases tracks with rfl | ⟨shifted, begun⟩
  · exact .inl rfl
  · exact shifted.step blank (begun.elim .inl (.inr ∘ .inl))

/-- **A line keeps two runs in step**: the run lemma of `Tracks.step`. -/
theorem Tracks.foldl (blank : ∀ c ∈ pad, isBlank c = true) :
    ∀ (cs : List Char) {a b : Scan}, Tracks pad a b →
      Tracks pad (cs.foldl (Scan.step d) a) (cs.foldl (Scan.step d) b)
  | [], _, _, tracks => tracks
  | c :: cs, _, _, tracks => Tracks.foldl blank cs (tracks.step blank c)

/-- Two shifted runs end a line with the same columns: a match under way goes into both
columns, and the blanks are trimmed away. -/
theorem Shifted.finish {a b : Scan} (shifted : Shifted pad a b)
    (blank : ∀ c ∈ pad, isBlank c = true) : Scan.finish d a = Scan.finish d b := by
  obtain ⟨rfl, -, -⟩ := shifted
  unfold Scan.finish
  have pending : (d.chars.take a.matched).reverse ++ (a.pending ++ pad) =
      ((d.chars.take a.matched).reverse ++ a.pending) ++ pad := by simp
  simp only [pending]
  rw [← closeColumn_shifted blank ({ a with pending := _ } : Scan)]

theorem Tracks.finish {a b : Scan} (tracks : Tracks pad a b)
    (blank : ∀ c ∈ pad, isBlank c = true) : Scan.finish d a = Scan.finish d b := by
  rcases tracks with rfl | ⟨shifted, -⟩
  · rfl
  · exact shifted.finish blank

/-- Blanks read at the start of a line are held in the first column: none of them is a
delimiter character or a quote. -/
theorem foldl_step_blanks (lead : isBlank (d.chars.head d.nonempty) = false) :
    ∀ (w pending : List Char), (∀ c ∈ w, isBlank c = true) →
      w.foldl (Scan.step d) { pending := pending } = { pending := w.reverse ++ pending }
  | [], _, _ => rfl
  | c :: w, pending, blank => by
    have blankC : isBlank c = true := blank c List.mem_cons_self
    have other : d.chars[0]? ≠ some c := by
      obtain ⟨c0, rest, split⟩ := List.exists_cons_of_ne_nil d.nonempty
      intro first
      have : c0 = c := by simpa [split] using first
      simp [split, this, blankC] at lead
    have notQuote : c ≠ '"' := by
      rintro rfl
      exact absurd blankC (by decide)
    rw [List.foldl_cons, step_text (by simp) rfl rfl other notQuote]
    have rest := foldl_step_blanks lead w (c :: pending)
      (fun x member => blank x (List.mem_cons_of_mem c member))
    simpa using rest

end Scan

/-! ### Lines -/

theorem isPrefix_dropLineEnd (cs : List Char) : dropLineEnd cs <+: cs := by
  unfold dropLineEnd
  rw [← List.reverse_suffix, List.reverse_reverse]
  exact List.dropWhile_suffix _

theorem dropLineEnd_append_of_ne_nil (xs : List Char) {ys : List Char}
    (kept : dropLineEnd ys ≠ []) : dropLineEnd (xs ++ ys) = xs ++ dropLineEnd ys := by
  unfold dropLineEnd at kept ⊢
  have notEmpty : (ys.reverse.dropWhile fun c => c = '\n' ∨ c = '\r').isEmpty = false := by
    simpa using kept
  rw [List.reverse_append, List.dropWhile_append, notEmpty]
  simp

theorem dropLineEnd_append_of_nil (xs : List Char) {ys : List Char}
    (dropped : dropLineEnd ys = []) : dropLineEnd (xs ++ ys) = dropLineEnd xs := by
  unfold dropLineEnd at dropped ⊢
  have empty : (ys.reverse.dropWhile fun c => c = '\n' ∨ c = '\r').isEmpty = true := by
    simpa using dropped
  rw [List.reverse_append, List.dropWhile_append, empty]
  simp

/-- The columns of a line with blanks in front of it: the blanks join the first column and are
trimmed away with it. -/
theorem columnsOf_blank_append {d : Delimiter} (lead : isBlank (d.chars.head d.nonempty) = false)
    {w : List Char} (blank : ∀ c ∈ w, isBlank c = true) (cs : List Char)
    (unquoted : cs.head? ≠ some '"' ∨ d.chars[0]? = some '"') :
    d.columnsOf (w ++ cs) = d.columnsOf cs := by
  have padBlank : ∀ c ∈ w.reverse, isBlank c = true :=
    fun c member => blank c (List.mem_reverse.mp member)
  have start : Scan.Shifted w.reverse {} { pending := w.reverse } := ⟨by simp, rfl, rfl⟩
  unfold Delimiter.columnsOf
  rw [List.foldl_append,
    show ({} : Scan) = { pending := [] } from rfl, Scan.foldl_step_blanks lead w [] blank,
    List.append_nil]
  -- the first character is where the two runs could part: it must not open a quote
  cases cs with
  | nil => exact (start.finish padBlank).symm
  | cons c cs =>
    have first : c ≠ '"' ∨ d.chars[0]? = some '"' := by
      rcases unquoted with other | lead
      · exact .inl fun same => other (by rw [same]; rfl)
      · exact .inr lead
    have inStep := start.step (d := d) (c := c) padBlank
      (first.elim (.inr ∘ .inr ∘ .inl) (.inr ∘ .inr ∘ .inr))
    rw [List.foldl_cons, List.foldl_cons]
    exact ((Scan.Tracks.foldl padBlank cs inStep).finish padBlank).symm

/-- **Blanks in front of a line are insignificant, unless the line opens a quote.** For a
delimiter that does not begin with a blank, putting blanks in front of a line gives the same
columns, or the same absence of columns, whenever the line does not begin with a double quote
(or the delimiter itself does). -/
theorem split_blank_prefix (d : Delimiter) (lead : isBlank (d.chars.head d.nonempty) = false)
    (w s : String) (blank : isBlankText w = true)
    (unquoted : s.toList.head? ≠ some '"' ∨ d.chars[0]? = some '"') :
    d.split (w ++ s) = d.split s := by
  have blankChars : ∀ c ∈ w.toList, isBlank c = true := by
    simpa [isBlankText] using blank
  unfold Delimiter.split
  dsimp only
  rw [String.toList_append]
  by_cases kept : dropLineEnd s.toList = []
  · -- nothing but line ends follows the blanks: both lines are blank
    have prefixBlank : ∀ c ∈ dropLineEnd w.toList, isBlank c = true :=
      fun c member => blankChars c ((isPrefix_dropLineEnd _).subset member)
    rw [dropLineEnd_append_of_nil _ kept, kept]
    simp [List.all_eq_true.mpr prefixBlank]
  · rw [dropLineEnd_append_of_ne_nil _ kept]
    have sameBlank : (w.toList ++ dropLineEnd s.toList).all isBlank =
        (dropLineEnd s.toList).all isBlank := by
      simp [List.all_append, List.all_eq_true.mpr blankChars]
    rw [sameBlank]
    split
    · rfl
    · -- the line keeps its first character once its line end is dropped
      have sameHead : (dropLineEnd s.toList).head? = s.toList.head? := by
        obtain ⟨rest, split⟩ := isPrefix_dropLineEnd s.toList
        obtain ⟨c, cs, first⟩ := List.exists_cons_of_ne_nil kept
        have heads := congrArg List.head? split
        rw [first] at heads ⊢
        simpa using heads
      rw [columnsOf_blank_append lead blankChars _ (by rwa [sameHead])]

theorem split_blank_prefix_tabbed :
    isBlank (Delimiter.comma.chars.head Delimiter.comma.nonempty) = false ∧
      isBlankText " \t" = true ∧
      (("x, \"y\"" : String).toList.head? ≠ some '"' ∨ Delimiter.comma.chars[0]? = some '"') ∧
      Delimiter.comma.split (" \t" ++ "x, \"y\"") = Delimiter.comma.split "x, \"y\"" :=
  ⟨by decide, by decide, .inl (by decide),
    split_blank_prefix _ (by decide) _ _ (by decide) (.inl (by decide))⟩

/-- A blank in front of a line that opens a quote makes the quote text: the line `"a"` is the
column `a`, and ` "a"` the column `"a"`. -/
theorem split_blank_quote :
    Delimiter.comma.split (" " ++ "\"a\"") = some ["\"a\""] ∧
      Delimiter.comma.split "\"a\"" = some ["a"] := by
  decide +kernel

end Ingest.Delimited
