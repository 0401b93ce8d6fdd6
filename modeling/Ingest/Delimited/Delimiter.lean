import Ingest.Text.Quoted

/-!
Column delimiters of delimiter-separated text.

A delimiter is a non-empty sequence of characters; it may be longer than one character. The
empty text is refused when a delimiter is made, so every operation on a `Delimiter` can rely on
a first character.
-/

namespace Ingest.Delimited

/-- A non-empty sequence of characters that separates columns. -/
structure Delimiter where
  chars : List Char
  nonempty : chars ≠ []

namespace Delimiter

/-- The delimiter spelled by a text, or `none` for the empty text. -/
def ofString? (s : String) : Option Delimiter :=
  if h : s.toList = [] then none else some ⟨s.toList, h⟩

/-- The comma, the delimiter when none is named. -/
def comma : Delimiter :=
  ⟨[','], by simp⟩

/-- The text of a delimiter. -/
def text (d : Delimiter) : String :=
  String.ofList d.chars

/-- Number of characters of a delimiter. -/
def length (d : Delimiter) : Nat :=
  d.chars.length

theorem length_pos (d : Delimiter) : 0 < d.length :=
  List.length_pos_iff.mpr d.nonempty

/-- How a splitter bound to a delimiter shows itself: its name and the quoted delimiter. -/
def describe (d : Delimiter) : String :=
  "DsvTokenizer(delimiter=" ++ Text.quote d.text ++ ")"

theorem ofString?_eq_none_iff (s : String) : ofString? s = none ↔ s.toList = [] := by
  unfold ofString?
  split <;> simp_all

end Delimiter

end Ingest.Delimited
