import Ingest.Yaml.Style
import Ingest.Text.Point

/-!
Writing YAML text with line width and indentation.

A `Writer` keeps the text written so far, the current column, and whether the last thing
written was a blank (`whitespace`) or indentation (`indention`). An indicator gets a blank in
front unless one is already there. Moving to an indentation level starts a new line unless the
writer stands in the indentation already.

Scalars are folded at blanks once the column passes the best width of 80: a plain or single
quoted scalar breaks at a single blank, a double-quoted one at any blank or escape, ending the
line with a backslash. A single-quoted scalar writes a line break as an empty line and doubles
its quotes; a double-quoted one escapes what is not printable ASCII (`\x`, `\u`, `\U` with
upper-case digits, or a letter escape), a lone surrogate included.
-/

namespace Ingest.Yaml

/-- The column after which scalars are folded. -/
def bestWidth : Nat := 80

/-- The state of a YAML writer. -/
structure Writer where
  /-- What was written, last piece first. -/
  pieces : List String := []
  column : Nat := 0
  whitespace : Bool := true
  indention : Bool := true

namespace Writer

/-- The text written so far. -/
def text (w : Writer) : String :=
  String.join w.pieces.reverse

/-- Writes characters that hold no line break. -/
def put (w : Writer) (cs : List Char) : Writer :=
  { w with pieces := String.ofList cs :: w.pieces, column := w.column + cs.length }

/-- Starts a new line. -/
def lineBreak (w : Writer) : Writer :=
  { w with pieces := "\n" :: w.pieces, column := 0, whitespace := true, indention := true }

/-- Writes an indicator, with a blank in front if `needBlank` and none is there; `whitespace`
tells whether the indicator counts as a blank, and `indention` whether it keeps the writer in its
indentation. -/
def indicator (w : Writer) (mark : String) (needBlank whitespace indention : Bool) : Writer :=
  let data := if w.whitespace || !needBlank then mark else " " ++ mark
  { w with pieces := data :: w.pieces, column := w.column + data.length,
           whitespace := whitespace, indention := w.indention && indention }

/-- Moves to an indentation level, on a new line unless the writer stands in its indentation. -/
def indent (w : Writer) (level : Nat) : Writer :=
  let w := if !w.indention || w.column > level || (w.column = level && !w.whitespace)
    then w.lineBreak else w
  if w.column < level then
    { w with pieces := String.ofList (List.replicate (level - w.column) ' ') :: w.pieces,
             column := level, whitespace := true }
  else w

/-- Splits a text into runs of blanks and runs of other characters. -/
def runs : List Char → List (List Char)
  | [] => []
  | c :: rest =>
    match runs rest with
    | (d :: run) :: more =>
      if (d = ' ') = (c = ' ') then (c :: d :: run) :: more else [c] :: (d :: run) :: more
    | _ => [[c]]

/-- Writes a plain scalar at indentation `level`; `split` allows folding. -/
def plain (w : Writer) (text : String) (level : Nat) (split : Bool) : Writer :=
  if text.isEmpty then w
  else
    let w := if w.whitespace then w else w.put [' ']
    let w := { w with whitespace := false, indention := false }
    (runs text.toList).foldl (fun w run =>
      if run.head? = some ' ' ∧ run.length = 1 ∧ w.column > bestWidth ∧ split then
        { w.indent level with whitespace := false, indention := false }
      else w.put run) w

/-- The state of a quoted writer between two characters: where the pending run starts, and
whether the last character was a blank or a line break. -/
structure Scan where
  start : Nat := 0
  spaces : Bool := false
  breaks : Bool := false

/-- Writes a single-quoted scalar at indentation `level`; `split` allows folding. -/
def singleQuoted (w : Writer) (text : String) (level : Nat) (split : Bool) : Writer :=
  let chars := text.toList.toArray
  let size := chars.size
  let slice (a b : Nat) : List Char := (chars.extract a b).toList
  let step := fun (acc : Writer × Scan) (p : Nat × Option Char) =>
    let (w, s) := acc
    let (stop, ch) := p
    let (w, s) :=
      if s.spaces then
        if ch ≠ some ' ' then
          if s.start + 1 = stop ∧ w.column > bestWidth ∧ split ∧ s.start ≠ 0 ∧ stop ≠ size then
            (w.indent level, { s with start := stop })
          else (w.put (slice s.start stop), { s with start := stop })
        else (w, s)
      else if s.breaks then
        if ch.all fun c => !isBreak c then
          let w := if chars[s.start]? = some '\n' then w.lineBreak else w
          let w := (slice s.start stop).foldl (fun w _ => w.lineBreak) w
          (w.indent level, { s with start := stop })
        else (w, s)
      else if ch.all (fun c => c = ' ' || isBreak c || c = '\'') then
        if s.start < stop then (w.put (slice s.start stop), { s with start := stop })
        else (w, s)
      else (w, s)
    let (w, s) := if ch = some '\'' then (w.put ['\'', '\''], { s with start := stop + 1 })
      else (w, s)
    match ch with
    | some c => (w, { s with spaces := c = ' ', breaks := isBreak c })
    | none => (w, s)
  let w := w.indicator "'" true false false
  let positions := (List.range (size + 1)).map fun i => (i, chars[i]?)
  let (w, _) := positions.foldl step (w, {})
  w.indicator "'" false false false

/-- The escape letter of a character, if it has one. -/
def escapeLetter (c : Char) : Option Char :=
  match c.toNat with
  | 0x00 => some '0'
  | 0x07 => some 'a'
  | 0x08 => some 'b'
  | 0x09 => some 't'
  | 0x0A => some 'n'
  | 0x0B => some 'v'
  | 0x0C => some 'f'
  | 0x0D => some 'r'
  | 0x1B => some 'e'
  | 0x22 => some '"'
  | 0x5C => some '\\'
  | 0x85 => some 'N'
  | 0xA0 => some '_'
  | 0x2028 => some 'L'
  | 0x2029 => some 'P'
  | _ => none

/-- The escape of a code point inside double quotes. -/
def escape : Text.Point → List Char
  | .char c =>
    match escapeLetter c with
    | some l => ['\\', l]
    | none =>
      if c.toNat ≤ 0xFF then '\\' :: 'x' :: Text.hexDigits true 2 c.toNat
      else if c.toNat ≤ 0xFFFF then '\\' :: 'u' :: Text.hexDigits true 4 c.toNat
      else '\\' :: 'U' :: Text.hexDigits true 8 c.toNat
  | .surrogate o => '\\' :: 'u' :: Text.hexDigits true 4 (0xD800 + o.val)

/-- Whether a code point is written through an escape inside double quotes. -/
def needsEscape : Text.Point → Bool
  | .char c =>
    c = '"' || c = '\\' || c = '\x85' || c = '\u2028' || c = '\u2029' || c = '\uFEFF' ||
      !(' ' ≤ c && c ≤ '~')
  | .surrogate _ => true

/-- Writes a double-quoted scalar at indentation `level`; `split` allows folding. -/
def doubleQuoted (w : Writer) (text : Text.Str) (level : Nat) (split : Bool) : Writer :=
  let points := text.points.toArray
  let size := points.size
  -- a run between escapes holds characters only, since a surrogate is always escaped
  let slice (a b : Nat) : List Char := (points.extract a b).toList.filterMap Text.Point.char?
  let step := fun (acc : Writer × Nat) (p : Nat × Option Text.Point) =>
    let (w, start) := acc
    let (stop, ch) := p
    let (w, start) :=
      if ch.all needsEscape then
        let (w, start) := if start < stop then (w.put (slice start stop), stop) else (w, start)
        match ch with
        | some c => (w.put (escape c), stop + 1)
        | none => (w, start)
      else (w, start)
    if 0 < stop ∧ stop + 1 < size ∧ (ch = some (.char ' ') ∨ start ≥ stop) ∧
        (w.column : Int) + stop - start > bestWidth ∧ split then
      let w := w.put (slice start stop ++ ['\\'])
      let start := if start < stop then stop else start
      let w := { w.indent level with whitespace := false, indention := false }
      let w := if points[start]? = some (.char ' ') then w.put ['\\'] else w
      (w, start)
    else (w, start)
  let w := w.indicator "\"" true false false
  let positions := (List.range (size + 1)).map fun i => (i, points[i]?)
  let (w, _) := positions.foldl step (w, 0)
  w.indicator "\"" false false false

end Writer

end Ingest.Yaml
