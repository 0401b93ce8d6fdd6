import Ingest.Text.Pattern

/-!
Implicit types of plain YAML scalars.

A plain (unquoted) scalar of YAML 1.1 is read as a boolean, a float, an integer, a merge key,
null, a timestamp, a value key or a tag indicator when its text has the form of one, and as a
string otherwise. A writer may therefore write a string plain only when its text has none of
these forms; otherwise it must quote it. The forms are those of the YAML 1.1 type repository:
booleans spelled `yes no true false on off` in lower, title or upper case; floats with a point
(a leading point needs a digit after it), sexagesimal floats and `.inf`, `.nan`; decimal, binary, octal, hexadecimal and sexagesimal
integers with `_` allowed between digits; `~`, `null` and the empty text for null; dates and
date-times.
-/

namespace Ingest.Yaml

open Ingest.Text Pattern

/-- Decimal digits. -/
def isDigit (c : Char) : Bool := c.isDigit

/-- Digits and underscores. -/
def isDigitOrUnderscore (c : Char) : Bool := c.isDigit || c = '_'

/-- An optional sign. -/
def sign : Pattern := opt (cls fun c => c = '-' || c = '+')

/-- Sexagesimal groups `:ss`, one or more. -/
def sexagesimal (fuel : Nat) : Pattern :=
  repeat1 (seqs [char ':', opt (cls fun c => '0' ≤ c && c ≤ '5'), cls isDigit]) fuel

/-- Texts read as booleans. -/
def booleanWords : List String :=
  ["yes", "Yes", "YES", "no", "No", "NO", "true", "True", "TRUE", "false", "False", "FALSE",
   "on", "On", "ON", "off", "Off", "OFF"]

/-- Texts read as null. -/
def nullWords : List String :=
  ["~", "null", "Null", "NULL", ""]

/-- Texts read as a merge key, a value key or a tag indicator. -/
def markWords : List String :=
  ["<<", "=", "!", "&", "*"]

/-- An exponent with a mandatory sign. -/
def exponent : Pattern :=
  opt (seqs [cls (fun c => c = 'e' || c = 'E'), cls (fun c => c = '-' || c = '+'), many1 isDigit])

/-- The form of a float. -/
def floatForm (fuel : Nat) : Pattern :=
  alts [
    seqs [sign, cls isDigit, many isDigitOrUnderscore, char '.', many isDigitOrUnderscore,
      exponent],
    seqs [char '.', cls isDigit, many isDigitOrUnderscore, exponent],
    seqs [sign, cls isDigit, many isDigitOrUnderscore, sexagesimal fuel, char '.',
      many isDigitOrUnderscore],
    seqs [sign, char '.', alts [word "inf".toList, word "Inf".toList, word "INF".toList]],
    seqs [char '.', alts [word "nan".toList, word "NaN".toList, word "NAN".toList]]]

/-- The form of an integer. -/
def integerForm (fuel : Nat) : Pattern :=
  alts [
    seqs [sign, word "0b".toList, many1 fun c => c = '0' || c = '1' || c = '_'],
    seqs [sign, char '0', many1 fun c => ('0' ≤ c && c ≤ '7') || c = '_'],
    seqs [sign, alt (char '0') (seq (cls fun c => '1' ≤ c && c ≤ '9') (many isDigitOrUnderscore))],
    seqs [sign, word "0x".toList, many1 fun c => c.isDigit || ('a' ≤ c && c ≤ 'f') ||
      ('A' ≤ c && c ≤ 'F') || c = '_'],
    seqs [sign, cls (fun c => '1' ≤ c && c ≤ '9'), many isDigitOrUnderscore, sexagesimal fuel]]

/-- Blanks inside a date-time. -/
def isSpaceOrTab (c : Char) : Bool := c = ' ' || c = '\t'

/-- The form of a date, `yyyy-mm-dd` with two-digit month and day, or of a date-time, whose
month, day and hour may have one digit. -/
def timestampForm : Pattern :=
  let twoDigits := seq (cls isDigit) (opt (cls isDigit))
  let year := seqs [cls isDigit, cls isDigit, cls isDigit, cls isDigit]
  let date := seqs [year, char '-', twoDigits, char '-', twoDigits]
  let dateOnly := seqs [year, char '-', cls isDigit, cls isDigit, char '-', cls isDigit,
    cls isDigit]
  let zone := seq (many isSpaceOrTab) (alt (char 'Z')
    (seqs [cls (fun c => c = '-' || c = '+'), twoDigits,
      opt (seqs [char ':', cls isDigit, cls isDigit])]))
  alt dateOnly (seqs [date, alt (cls fun c => c = 'T' || c = 't') (many1 isSpaceOrTab), twoDigits,
    char ':', cls isDigit, cls isDigit, char ':', cls isDigit, cls isDigit,
    opt (seq (char '.') (many isDigit)), opt zone])

/-- Whether a plain scalar with this text is read as something other than a string. -/
def hasImplicitType (s : String) : Bool :=
  let cs := s.toList
  booleanWords.contains s || nullWords.contains s || markWords.contains s ||
    fullMatch (floatForm cs.length) cs || fullMatch (integerForm cs.length) cs ||
    fullMatch timestampForm cs

example : hasImplicitType "1" ∧ hasImplicitType "007" ∧ hasImplicitType "1.5" ∧
    hasImplicitType "yes" ∧ hasImplicitType "" ∧ hasImplicitType "2001-12-14" := by decide +kernel

example : hasImplicitType "1e+22" = false ∧ hasImplicitType "inf" = false ∧
    hasImplicitType "ID-" = false ∧ hasImplicitType "._1" = false ∧
    hasImplicitType "2001-1-1" = false := by decide +kernel

end Ingest.Yaml
