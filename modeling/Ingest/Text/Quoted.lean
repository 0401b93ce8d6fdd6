import Ingest.Text.Printable
import Ingest.Text.Point

/-!
Quoted texts, as messages and debug views show a text.

A text is put between single quotes, or between double quotes when it holds a single quote and
no double quote. Inside, the backslash and the chosen quote are escaped, tab, line feed and
carriage return take their letter escapes, and every other character that is not printable is
written by its code point in lower-case hexadecimal: two digits below `0x100`, four below
`0x10000`, eight above. A lone surrogate is not printable, so it is written as `\udxxx`.
-/

namespace Ingest.Text

/-- The quote that delimits a quoted text. -/
def quoteMark (cs : List Char) : Char :=
  if cs.contains '\'' && !cs.contains '"' then '"' else '\''

/-- The characters that stand for one character inside quotes delimited by `mark`. -/
def quotedChar (mark c : Char) : List Char :=
  if c = '\\' then ['\\', '\\']
  else if c = mark then ['\\', c]
  else if c = '\t' then ['\\', 't']
  else if c = '\n' then ['\\', 'n']
  else if c = '\r' then ['\\', 'r']
  else if isPrintable c then [c]
  else if c.toNat < 0x100 then '\\' :: 'x' :: hexDigits false 2 c.toNat
  else if c.toNat < 0x10000 then '\\' :: 'u' :: hexDigits false 4 c.toNat
  else '\\' :: 'U' :: hexDigits false 8 c.toNat

/-- A text between quotes, with its special characters escaped. -/
def quoteChars (cs : List Char) : List Char :=
  let mark := quoteMark cs
  mark :: (cs.flatMap (quotedChar mark) ++ [mark])

/-- A text between quotes, with its special characters escaped. -/
def quote (s : String) : String :=
  String.ofList (quoteChars s.toList)

/-- The characters that stand for one code point inside quotes delimited by `mark`. -/
def quotedPoint (mark : Char) : Point → List Char
  | .char c => quotedChar mark c
  | .surrogate o => '\\' :: 'u' :: hexDigits false 4 (0xD800 + o.val)

/-- A string of code points between quotes, with its special code points escaped. -/
def quoteStr (s : Str) : String :=
  let mark := quoteMark (s.points.filterMap Point.char?)
  String.ofList (mark :: (s.points.flatMap (quotedPoint mark) ++ [mark]))

theorem quoteStr_ofString (s : String) : quoteStr (Str.ofString s) = quote s := by
  have chars : (Str.ofString s).points.filterMap Point.char? = s.toList := by
    simp only [Str.ofString, Str.ofChars, List.filterMap_map, Point.char?_comp_char,
      List.filterMap_some]
  unfold quoteStr
  rw [chars]
  simp only [quote, quoteChars, Str.ofString, Str.ofChars, List.flatMap_map]
  rfl

example : quoteChars ['x'] = ['\'', 'x', '\''] ∧ quoteChars ['\''] = ['"', '\'', '"'] := by
  decide +kernel

example : quoteChars ['\x00'] = ['\'', '\\', 'x', '0', '0', '\''] := by decide +kernel

example : quoteStr ⟨[.surrogate 0]⟩ = "'\\ud800'" := by decide +kernel

end Ingest.Text
