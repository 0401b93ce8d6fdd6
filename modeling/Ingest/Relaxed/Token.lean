import Ingest.Relaxed.Fault
import Ingest.Text.Blank
import Ingest.Text.WordChar

/-!
Lexemes of relaxed documents.

At each position the lexer tries these classes in order and takes the first that matches:

* a run of blanks, which is skipped;
* a double-quoted or single-quoted string: the quote, then characters other than that quote,
  the backslash and controls below `0x20`, or a backslash with any character after it, then
  the same quote;
* a name: a run of word characters and `$ @ # * + -` that is followed, after optional blanks,
  by a colon;
* a number: an optional minus, `0` or a digit run not starting with `0`, an optional fraction
  of a point and digits, an optional exponent, and then no letter, digit, `_`, `$` or point;
* a literal `true`, `false` or `null` followed by no letter, digit, `_` or `$`;
* one of the marks `{ } [ ] , :`.

A quote that starts no string is an unterminated string, and any other character that starts
no lexeme is unexpected. The whole text is split before anything else is read, so such a fault
wins over every later one.
-/

namespace Ingest.Relaxed

open Ingest.Text

/-- Classes of lexemes. -/
inductive TokenKind where
  | string
  | singleQuoted
  | name
  | number
  | literal
  | mark
deriving DecidableEq, Repr

/-- A lexeme: its class, its characters and the offset of its first character. -/
structure Token where
  kind : TokenKind
  raw : List Char
  start : Nat

/-- Whether a lexeme is the given punctuation mark. -/
def Token.isMark (t : Token) (c : Char) : Bool :=
  t.kind == .mark && t.raw == [c]

/-- Characters of bare names besides the word characters. -/
def isNameChar (c : Char) : Bool :=
  isWordChar c || c = '$' || c = '@' || c = '#' || c = '*' || c = '+' || c = '-'

/-- Characters that may not follow a number. -/
def continuesNumber (c : Char) : Bool :=
  c.isAlphanum || c = '_' || c = '$' || c = '.'

/-- Characters that may not follow a literal. -/
def continuesWord (c : Char) : Bool :=
  c.isAlphanum || c = '_' || c = '$'

/-- The length of the rest of a quoted string after its opening quote `q`, closing quote
included, plus `acc`, or `none` when the string does not close. -/
def quotedLength (q : Char) (acc : Nat) : List Char → Option Nat
  | [] => none
  | c :: rest =>
    if c = q then some (acc + 1)
    else if c = '\\' then
      match rest with
      | [] => none
      | _ :: more => quotedLength q (acc + 2) more
    else if c.toNat < 0x20 then none
    else quotedLength q (acc + 1) rest

/-- The length of a bare name at the front of a text, when a colon follows it. -/
def nameLength (cs : List Char) : Option Nat :=
  let run := cs.takeWhile isNameChar
  if run.isEmpty then none
  else
    match ((cs.dropWhile isNameChar).dropWhile isBlank).head? with
    | some ':' => some run.length
    | _ => none

/-- The number of digits at the front of a text. -/
def digitRun (cs : List Char) : Nat :=
  (cs.takeWhile Char.isDigit).length

/-- The length of a fraction part at the front of a text, or 0 if there is none. -/
def fractionLength (cs : List Char) : Nat :=
  match cs with
  | '.' :: rest => if digitRun rest = 0 then 0 else digitRun rest + 1
  | _ => 0

/-- The length of an exponent part at the front of a text, or 0 if there is none. -/
def exponentLength (cs : List Char) : Nat :=
  match cs with
  | e :: rest =>
    if e = 'e' ∨ e = 'E' then
      let (sign, digits) := match rest with
        | '+' :: more => (1, more)
        | '-' :: more => (1, more)
        | _ => (0, rest)
      if digitRun digits = 0 then 0 else 1 + sign + digitRun digits
    else 0
  | [] => 0

/-- The length of the sign of a number at the front of a text: 1 for a minus, 0 otherwise. -/
def signLength : List Char → Nat
  | '-' :: _ => 1
  | _ => 0

/-- The length of the whole part of a number at the front of a text: a lone `0` or a run of
digits, or 0 if there is none. -/
def wholeLength : List Char → Nat
  | '0' :: _ => 1
  | c :: rest => if c.isDigit then digitRun (c :: rest) else 0
  | [] => 0

/-- The length of a number at the front of a text, when no letter, digit, `_`, `$` or point
follows it. -/
def numberLength (cs : List Char) : Option Nat :=
  let sign := signLength cs
  let body := cs.drop sign
  let whole := wholeLength body
  if whole = 0 then none
  else
    let afterWhole := body.drop whole
    let frac := fractionLength afterWhole
    let exp := exponentLength (afterWhole.drop frac)
    let size := sign + whole + frac + exp
    match (cs.drop size).head? with
    | some c => if continuesNumber c then none else some size
    | none => some size

/-- The length of a literal at the front of a text, when no letter, digit, `_` or `$` follows
it. -/
def literalLength (cs : List Char) : Option Nat :=
  let ends (n : Nat) : Option Nat :=
    match (cs.drop n).head? with
    | some c => if continuesWord c then none else some n
    | none => some n
  if cs.take 4 = ['t', 'r', 'u', 'e'] then ends 4
  else if cs.take 5 = ['f', 'a', 'l', 's', 'e'] then ends 5
  else if cs.take 4 = ['n', 'u', 'l', 'l'] then ends 4
  else none

/-- Whether a character is a punctuation mark. -/
def isMarkChar (c : Char) : Bool :=
  c = '{' || c = '}' || c = '[' || c = ']' || c = ',' || c = ':'

/-- What the text at one position starts with: blanks to skip, a lexeme of the given class
and length, or a fault. -/
inductive Lexeme where
  | blank (length : Nat)
  | token (kind : TokenKind) (length : Nat)
  | fault (f : Fault)

/-- Classifies the text that starts with `c` and goes on with `cs`. -/
def classify (c : Char) (cs : List Char) : Lexeme :=
  if isBlank c then .blank ((cs.takeWhile isBlank).length + 1)
  else match (if c = '"' then quotedLength '"' 0 cs else none) with
  | some n => .token .string (n + 1)
  | none => match (if c = '\'' then quotedLength '\'' 0 cs else none) with
    | some n => .token .singleQuoted (n + 1)
    | none => match nameLength (c :: cs) with
      | some n => .token .name n
      | none => match numberLength (c :: cs) with
        | some n => .token .number n
        | none => match literalLength (c :: cs) with
          | some n => .token .literal n
          | none =>
            if isMarkChar c then .token .mark 1
            else if c = '"' ∨ c = '\'' then .fault .unterminatedString
            else .fault (.unexpectedChar c)

/-- Splits a text, starting at offset `pos`, into lexemes, after those in `acc` (last first). -/
def scanFrom (pos : Nat) (acc : List Token) : List Char → Except SyntaxError (List Token)
  | [] => .ok acc.reverse
  | c :: cs =>
    match classify c cs with
    | .blank n => scanFrom (pos + n) acc (cs.drop (n - 1))
    | .token kind n => scanFrom (pos + n) (⟨kind, (c :: cs).take n, pos⟩ :: acc) (cs.drop (n - 1))
    | .fault f => .error ⟨f, pos⟩
termination_by cs => cs.length
decreasing_by all_goals (simp only [List.length_drop, List.length_cons]; omega)

/-- The lexemes of a text, blanks skipped. -/
def Token.scan (text : List Char) : Except SyntaxError (List Token) :=
  scanFrom 0 [] text

end Ingest.Relaxed
