import Ingest.Delimited.Delimiter
import Ingest.Text.Blank

/-!
Splitting one line of delimiter-separated text into columns.

A line is read once from left to right by a small machine (`Scan`). Outside quotes it matches the
delimiter character by character. When a partial match breaks, the matched characters were data
after all: they go back into the column, and the current character is tried again against the
first character of the delimiter only. A complete match ends the column, and blanks right after
it are skipped. A double quote at the start of a column opens a quoted span, in which the
delimiter is plain text and the next double quote closes the span; a double quote elsewhere is
kept as text. Every column is trimmed of blanks at both ends.

Trailing line breaks are dropped first, and a line that is blank gives no columns at all.
-/

namespace Ingest.Delimited

open Ingest.Text

/-- The state of the column machine between two characters. -/
structure Scan where
  /-- Finished columns, already trimmed, the last first. -/
  columns : List String := []
  /-- Characters of the column being read, the last first. -/
  pending : List Char := []
  /-- Inside a quoted span. -/
  quoted : Bool := false
  /-- Right after a complete delimiter, where blanks are skipped. -/
  afterDelimiter : Bool := false
  /-- Number of delimiter characters matched so far. -/
  matched : Nat := 0

namespace Scan

/-- Ends the pending column: it is trimmed and added to the finished ones. -/
def closeColumn (s : Scan) : Scan :=
  { s with columns := String.ofList (trimChars s.pending.reverse) :: s.columns, pending := [] }

/-- Puts a broken partial match back into the column when `c` does not continue it. -/
def settle (d : Delimiter) (s : Scan) (c : Char) : Scan :=
  if s.matched ≠ 0 ∧ d.chars[s.matched]? ≠ some c then
    { s with pending := (d.chars.take s.matched).reverse ++ s.pending, matched := 0 }
  else s

/-- Reads one character outside a quoted span, after any broken match is settled. -/
def stepOpen (d : Delimiter) (s : Scan) (c : Char) : Scan :=
  if d.chars[s.matched]? = some c then
    if s.matched + 1 = d.length then
      { s.closeColumn with matched := 0, afterDelimiter := true }
    else { s with matched := s.matched + 1 }
  else if c = '"' then
    if s.pending = [] then { s with quoted := true } else { s with pending := c :: s.pending }
  else { s with pending := c :: s.pending }

/-- Reads one character of a line. -/
def step (d : Delimiter) (s : Scan) (c : Char) : Scan :=
  if s.afterDelimiter ∧ isBlank c then s
  else
    let s := { s with afterDelimiter := false }
    if s.quoted then
      if c = '"' then { s with quoted := false } else { s with pending := c :: s.pending }
    else stepOpen d (settle d s c) c

/-- Ends a line: a partial match is data, and the last column is closed. -/
def finish (d : Delimiter) (s : Scan) : List String :=
  (({ s with pending := (d.chars.take s.matched).reverse ++ s.pending } : Scan).closeColumn).columns.reverse

end Scan

/-- Drops the line feeds and carriage returns at the end of a line. -/
def dropLineEnd (cs : List Char) : List Char :=
  (cs.reverse.dropWhile (fun c => c = '\n' ∨ c = '\r')).reverse

/-- The columns of the characters of a line that is not blank. -/
def Delimiter.columnsOf (d : Delimiter) (cs : List Char) : List String :=
  Scan.finish d (cs.foldl (Scan.step d) {})

/-- The columns of a line, or `none` when the line is blank once its line end is dropped. -/
def Delimiter.split (d : Delimiter) (line : String) : Option (List String) :=
  let cs := dropLineEnd line.toList
  if cs.all isBlank then none else some (d.columnsOf cs)

/-- The columns of every line that is not blank, in order. -/
def Delimiter.rows (d : Delimiter) (lines : List String) : List (List String) :=
  lines.filterMap d.split

example : Delimiter.comma.split "a, b ,c\r\n" = some ["a", "b", "c"] := by decide +kernel

end Ingest.Delimited
