/-!
Character classes as tables of code point ranges; blank characters and trimming.

Every character class of the library is written as a table of inclusive code point ranges
(`CodeRanges`). A table is data from a standard, so it is kept as a plain list that a reader can
check against the standard line by line; membership is a scan of that list.

A blank is a character of the Unicode white space class as a text library sees it: the ASCII
tab, line feed, vertical tab, form feed and carriage return, the four information separators
`0x1C`..`0x1F`, the space, the next-line control, the no-break spaces and the space separators
of Unicode 14.0. Trimming removes blanks from both ends of a text, and nothing else.
-/

namespace Ingest.Text

/-- A character class as inclusive ranges of code points. -/
structure CodeRanges where
  ranges : List (Nat × Nat)

namespace CodeRanges

/-- Whether a code point lies in one of the ranges. -/
def containsCode (table : CodeRanges) (code : Nat) : Bool :=
  table.ranges.any fun range => range.1 ≤ code && code ≤ range.2

/-- Whether a character lies in one of the ranges. -/
def contains (table : CodeRanges) (c : Char) : Bool :=
  table.containsCode c.toNat

theorem contains_iff (table : CodeRanges) (c : Char) :
    table.contains c = true ↔ ∃ range ∈ table.ranges, range.1 ≤ c.toNat ∧ c.toNat ≤ range.2 := by
  simp [contains, containsCode]

end CodeRanges

/-- Inclusive code point ranges of the blank characters. -/
def blankRanges : CodeRanges :=
  ⟨[(0x9, 0xD), (0x1C, 0x20), (0x85, 0x85), (0xA0, 0xA0), (0x1680, 0x1680), (0x2000, 0x200A),
    (0x2028, 0x2029), (0x202F, 0x202F), (0x205F, 0x205F), (0x3000, 0x3000)]⟩

/-- Whether a character is blank. -/
def isBlank (c : Char) : Bool :=
  blankRanges.contains c

/-- Every character that core calls whitespace is blank, and so is the form feed. -/
theorem isBlank_of_isWhitespace (c : Char) (h : c.isWhitespace = true) : isBlank c = true := by
  simp only [Char.isWhitespace, Bool.or_eq_true, decide_eq_true_eq] at h
  simp only [isBlank, CodeRanges.contains_iff, blankRanges]
  rcases h with ((h | h) | h) | h <;> simp [h]

example : isBlank '\x0c' = true ∧ isBlank '\u3000' = true ∧ isBlank '\u200B' = false := by decide

/-- Drops the blanks at the start of a character list. -/
def dropBlanks (cs : List Char) : List Char :=
  cs.dropWhile isBlank

/-- A character list with the blanks at both ends removed. -/
def trimChars (cs : List Char) : List Char :=
  (dropBlanks (dropBlanks cs).reverse).reverse

/-- A text with the blanks at both ends removed. -/
def trim (s : String) : String :=
  String.ofList (trimChars s.toList)

/-- Whether a text holds nothing but blanks. -/
def isBlankText (s : String) : Bool :=
  s.toList.all isBlank

example : trim "\t a b \u2028" = "a b" ∧ trim "   " = "" := by decide

/-- Inclusive code point ranges of the characters with the Unicode `White_Space` property. They
are the blanks less the four information separators `0x1C`..`0x1F`. -/
def whiteSpaceRanges : CodeRanges :=
  ⟨[(0x9, 0xD), (0x20, 0x20), (0x85, 0x85), (0xA0, 0xA0), (0x1680, 0x1680), (0x2000, 0x200A),
    (0x2028, 0x2029), (0x202F, 0x202F), (0x205F, 0x205F), (0x3000, 0x3000)]⟩

/-- Whether a character has the Unicode `White_Space` property. -/
def isWhiteSpace (c : Char) : Bool :=
  whiteSpaceRanges.contains c

/-- A character list with the `White_Space` characters at both ends removed. -/
def trimWhiteSpace (cs : List Char) : List Char :=
  ((cs.dropWhile isWhiteSpace).reverse.dropWhile isWhiteSpace).reverse

end Ingest.Text
