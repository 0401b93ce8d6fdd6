import Ingest.Yaml.Implicit

/-!
Choosing how a YAML string scalar is written.

A string is written plain when it has no implicit type (`hasImplicitType`) and nothing in it
could be read as structure: it does not start with an indicator (`# , [ ] { } & * ! | > ' " % @`
and the backtick, or `? : -` before a blank), holds no `: ` and no ` #`, does not start with
`---` or `...`, has no blank at either end and no line break, and all its characters are
printable ASCII. Otherwise it is single-quoted, unless it holds characters that only escapes
can write (controls, non-ASCII) or a blank next to a line break, in which case it is
double-quoted. A key is never written across lines: an empty or multi-line key is quoted.
-/

namespace Ingest.Yaml

/-- How a scalar is written. -/
inductive ScalarStyle where
  | plain
  | singleQuoted
  | doubleQuoted
deriving DecidableEq, Repr

/-- What a scalar's characters allow. -/
structure Analysis where
  empty : Bool
  multiline : Bool
  allowPlain : Bool
  allowSingle : Bool

/-- Characters that end a line. -/
def isBreak (c : Char) : Bool :=
  c = '\n' || c = '\x85' || c = '\u2028' || c = '\u2029'

/-- Characters that count as a blank or a break around an indicator. -/
def isBlankOrBreak (c : Char) : Bool :=
  c = '\x00' || c = ' ' || c = '\t' || c = '\r' || isBreak c

/-- Characters that can be written without an escape in any style. -/
def isPlainAscii (c : Char) : Bool :=
  c = '\n' || (' ' ≤ c && c ≤ '~')

/-- The flags gathered while reading a scalar's characters. -/
structure Flags where
  indicators : Bool := false
  lineBreaks : Bool := false
  special : Bool := false
  leadingSpace : Bool := false
  leadingBreak : Bool := false
  trailingSpace : Bool := false
  trailingBreak : Bool := false
  breakSpace : Bool := false
  spaceBreak : Bool := false
  previousSpace : Bool := false
  previousBreak : Bool := false

/-- Reads one character at `index` of a scalar of `size` characters; `before` is the character
before it and `after` the one after it, if any. -/
def Flags.step (f : Flags) (size index : Nat) (before : Option Char) (c : Char)
    (after : Option Char) : Flags :=
  let followedByBlank := match after with
    | none => true
    | some a => isBlankOrBreak a
  let precededByBlank := match before with
    | none => true
    | some b => isBlankOrBreak b
  let indicator :=
    if index = 0 then
      "#,[]{}&*!|>'\"%@`".toList.contains c || ((c = '?' || c = ':') && followedByBlank) ||
        (c = '-' && followedByBlank)
    else (c = ':' && followedByBlank) || (c = '#' && precededByBlank)
  let f := { f with indicators := f.indicators || indicator,
                    lineBreaks := f.lineBreaks || isBreak c,
                    special := f.special || !isPlainAscii c }
  if c = ' ' then
    { f with leadingSpace := f.leadingSpace || index = 0,
             trailingSpace := f.trailingSpace || index + 1 = size,
             breakSpace := f.breakSpace || f.previousBreak,
             previousSpace := true, previousBreak := false }
  else if isBreak c then
    { f with leadingBreak := f.leadingBreak || index = 0,
             trailingBreak := f.trailingBreak || index + 1 = size,
             spaceBreak := f.spaceBreak || f.previousSpace,
             previousSpace := false, previousBreak := true }
  else { f with previousSpace := false, previousBreak := false }

/-- Reads the characters of a scalar from `index` on. -/
def Flags.run (size : Nat) : Flags → Nat → Option Char → List Char → Flags
  | f, _, _, [] => f
  | f, index, before, c :: rest => Flags.run size (f.step size index before c rest.head?)
      (index + 1) (some c) rest

/-- The analysis of a scalar's text. -/
def analyze (s : String) : Analysis :=
  let cs := s.toList
  if cs.isEmpty then ⟨true, false, true, true⟩
  else
    let documentMark := cs.take 3 = ['-', '-', '-'] || cs.take 3 = ['.', '.', '.']
    let f := Flags.run cs.length {} 0 none cs
    let plain := !(f.leadingSpace || f.leadingBreak || f.trailingSpace || f.trailingBreak) &&
      !f.breakSpace && !f.spaceBreak && !f.special && !f.lineBreaks &&
      !(f.indicators || documentMark)
    let single := !f.breakSpace && !f.spaceBreak && !f.special
    ⟨false, f.lineBreaks, plain, single⟩

/-- The style of a string scalar, as a key (`simpleKey`) or as a value. -/
def stringStyle (s : String) (simpleKey : Bool) : ScalarStyle :=
  let a := analyze s
  if !hasImplicitType s && !(simpleKey && (a.empty || a.multiline)) && a.allowPlain then .plain
  else if a.allowSingle && !(simpleKey && a.multiline) then .singleQuoted
  else .doubleQuoted

example : stringStyle "id" false = .plain ∧ stringStyle "1" false = .singleQuoted ∧
    stringStyle "##" false = .singleQuoted ∧ stringStyle "café" false = .doubleQuoted := by
  decide +kernel

end Ingest.Yaml
