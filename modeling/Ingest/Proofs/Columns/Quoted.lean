import Ingest.Proofs.Columns.Scan

/-!
Contract: quoted values survive a round trip through the column splitter.

Owns: the run of the column machine over values that are each put between double quotes and
joined by the delimiter. Each value opens a quoted span at a column start, the closing quote
hands over to a full match of the delimiter, and the delimiter leaves the machine at a column
start again, before a double quote that no blank skip can swallow. So the values come back as
they were, whatever delimiter characters, blanks or line breaks they hold inside.

Does not own: lines without quotes, where splitting is a search for the delimiter; that is
`Columns.Search`.
-/

namespace Ingest.Delimited

open Ingest.Text

namespace Scan

variable {d : Delimiter}

/-- A value between double quotes. -/
def quotedField (v : List Char) : List Char :=
  '"' :: (v ++ ['"'])

/-- A quoted value read at a column start leaves its characters pending, and the machine is
back outside quotes with nothing matched. -/
theorem foldl_step_quotedField (columns : List String) (after : Bool) (v : List Char)
    (noQuote : '"' ∉ v) (lead : d.chars[0]? ≠ some '"') :
    (quotedField v).foldl (step d) ⟨columns, [], false, after, 0⟩ =
      ⟨columns, v.reverse, false, false, 0⟩ := by
  rw [quotedField, List.foldl_cons, step_openQuote rfl rfl lead rfl]
  dsimp only
  rw [List.foldl_append, foldl_step_quoted columns [] 0 v noQuote, List.foldl_cons,
    step_of_quoted (by simp) rfl, if_pos rfl]
  simp

/-- **Joined quoted values are read back.** The run starts at a column start; each value
followed by the delimiter closes one column, and the last value is closed by the end of the
line. -/
theorem finish_foldl_quotedFields (lead : d.chars[0]? ≠ some '"') :
    ∀ (vs : List (List Char)) (v : List Char) (columns : List String) (after : Bool),
      (∀ w ∈ v :: vs, '"' ∉ w ∧ trimChars w = w) →
      finish d ((d.chars.intercalate ((v :: vs).map quotedField)).foldl (step d)
          ⟨columns, [], false, after, 0⟩) =
        columns.reverse ++ (v :: vs).map String.ofList
  | [], v, columns, after, clean => by
      have ⟨noQuote, trimmed⟩ := clean v List.mem_cons_self
      rw [List.map_singleton, List.intercalate_singleton,
        foldl_step_quotedField columns after v noQuote lead]
      simp [finish, closeColumn, trimmed]
  | w :: vs, v, columns, after, clean => by
      have ⟨noQuote, trimmed⟩ := clean v List.mem_cons_self
      have delimiter := foldl_step_delimiter (d := d) columns v.reverse [] d.chars rfl d.nonempty
      rw [List.length_nil] at delimiter
      rw [List.map_cons, List.map_cons, List.intercalate_cons_cons, List.foldl_append,
        List.foldl_append, foldl_step_quotedField columns after v noQuote lead, delimiter,
        List.reverse_reverse, trimmed, ← List.map_cons,
        finish_foldl_quotedFields lead vs w _ true
          (fun u member => clean u (List.mem_cons_of_mem _ member))]
      simp

theorem intercalate_quotedFields_last (v : List Char) :
    ∀ vs : List (List Char),
      ∃ pre, d.chars.intercalate ((v :: vs).map quotedField) = pre ++ ['"']
  | [] => ⟨'"' :: v, by simp [quotedField]⟩
  | w :: vs => by
      obtain ⟨pre, last⟩ := intercalate_quotedFields_last w vs
      refine ⟨quotedField v ++ d.chars ++ pre, ?_⟩
      rw [List.map_cons, List.map_cons, List.intercalate_cons_cons, ← List.map_cons, last]
      simp

end Scan

open Scan in
/-- **Quoted round trip.** Values free of double quotes and of outer blanks, each put between
double quotes and joined by a delimiter that does not start with a double quote, split back
into the same values. A value may hold the delimiter, any part of it, inner blanks and line
breaks. -/
theorem split_join_quoted (d : Delimiter) (lead : d.chars[0]? ≠ some '"') (values : List String)
    (nonempty : values ≠ []) (noQuote : ∀ v ∈ values, '"' ∉ v.toList)
    (trimmed : ∀ v ∈ values, trim v = v) :
    d.split (d.text.intercalate (values.map fun v => "\"" ++ v ++ "\"")) = some values := by
  obtain ⟨v, vs, rfl⟩ := List.exists_cons_of_ne_nil nonempty
  have chars : (d.text.intercalate ((v :: vs).map fun v => "\"" ++ v ++ "\"")).toList =
      d.chars.intercalate ((v.toList :: vs.map String.toList).map quotedField) := by
    simp only [String.toList_intercalate, List.map_map, List.map_cons]
    congr 1
    · simp [Delimiter.text]
    · simp [quotedField]
  have clean : ∀ w ∈ v.toList :: vs.map String.toList, '"' ∉ w ∧ trimChars w = w := by
    intro w member
    obtain ⟨u, uMember, rfl⟩ : ∃ u ∈ v :: vs, u.toList = w := by
      simp only [List.mem_cons, List.mem_map] at member
      rcases member with head | ⟨u, uMember, same⟩
      · exact ⟨v, List.mem_cons_self, head.symm⟩
      · exact ⟨u, List.mem_cons_of_mem _ uMember, same⟩
    exact ⟨noQuote u uMember, by simpa [trim] using congrArg String.toList (trimmed u uMember)⟩
  obtain ⟨pre, last⟩ := intercalate_quotedFields_last (d := d) v.toList (vs.map String.toList)
  have notBlank : ¬(pre ++ ['"']).all isBlank = true := by
    simp only [List.all_append, List.all_cons, List.all_nil, Bool.and_true, Bool.and_eq_true,
      not_and]
    intro _
    decide
  rw [Delimiter.split, chars, last, dropLineEnd_append_of_ne pre (by decide) (by decide),
    if_neg notBlank, Delimiter.columnsOf, ← last]
  have run := finish_foldl_quotedFields lead (vs.map String.toList) v.toList [] false clean
  simp only [List.reverse_nil, List.nil_append] at run
  change some (finish d (List.foldl (step d) ⟨[], [], false, false, 0⟩ _)) = _
  rw [run]
  simp

/-- The three-character delimiter `<->`. -/
def arrow : Delimiter :=
  ⟨['<', '-', '>'], by simp⟩

/-- The arrow splits quoted values holding the arrow, a broken arrow and an empty value. -/
theorem split_join_quoted_arrow :
    arrow.chars[0]? ≠ some '"' ∧
      arrow.split (arrow.text.intercalate (["a<-", "", "x<->y"].map fun v => "\"" ++ v ++ "\"")) =
        some ["a<-", "", "x<->y"] :=
  ⟨by decide, split_join_quoted arrow (by decide) _ (by simp) (by decide) (by decide)⟩

end Ingest.Delimited
