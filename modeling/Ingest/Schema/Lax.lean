import Ingest.Text.Blank
import Ingest.Number.Decimal
import Ingest.Value.Basic
import Ingest.Schema.Error

/-!
Lax reading of typed options.

Options of the tokenizer arrive as texts or plain scalars and are read leniently.

An integer is an integer, a boolean (`1` or `0`), a finite floating point number without a
fraction, or a text. A text is read twice at most. First as it stands, as a strict numeral: an
optional minus sign and ASCII digits without a leading zero; a run of more than 4300 digits at
its start refuses the text for its size, whatever follows. Then leniently: trimmed of
`White_Space`, a sign set aside (a digit must follow it), its leading zeros (and the underscores
among them), a fraction of zeros and its underscores dropped, and read strictly again; more than
4300 digits make it unreadable. The steps take no account of one another, so `0-9` reads as
`-9`.

A boolean is a boolean, an integer `0` or `1`, a floating point number `0.0` or `1.0`, or one of
the texts `0 off f false n no` and `1 on t true y yes` in any ASCII letter case, exactly, with
no blank around it. An integer outside 64 signed bits is not a boolean at all.

A text that holds a lone surrogate is no text these rules can read.
-/

namespace Ingest.Schema.Lax

open Ingest.Text

/-- The most digits of an integer numeral that are read. -/
def integerTextLimit : Nat := 4300

/-- The sign and the rest of a text that may start with a minus sign. -/
def minusSign : List Char → Bool × List Char
  | '-' :: rest => (true, rest)
  | cs => (false, cs)

/-- The number of digits a numeral reader scans at the start of a text: after an optional minus
sign, the run of digits that starts with a nonzero digit. A run that starts with `0` is refused at
its second digit, so it never counts. -/
def leadingRun (cs : List Char) : Nat :=
  match (minusSign cs).2 with
  | c :: rest => if c.isDigit ∧ c ≠ '0' then 1 + (rest.takeWhile Char.isDigit).length else 0
  | [] => 0

/-- The sign and the digits of a numeral in strict form: an optional minus sign and ASCII digits
with no leading zero, `0` alone apart. -/
def strictNumeral? (cs : List Char) : Option (Bool × List Char) :=
  let (neg, body) := minusSign cs
  match body with
  | ['0'] => some (neg, body)
  | c :: _ => if c ≠ '0' ∧ body.all Char.isDigit then some (neg, body) else none
  | [] => none

/-- The value of a strict numeral of at most `integerTextLimit` digits. -/
def strictValue? (cs : List Char) : Option Int :=
  (strictNumeral? cs).bind fun (neg, digits) =>
    if digits.length > integerTextLimit then none
    else
      let n : Int := Decimal.digitsValue digits
      some (if neg then -n else n)

/-- A text without its leading zeros, and the underscores among them: the first digit or minus
sign after them starts the rest. Before any other character the last of them stays, so `00.0` is
`0.0`, and of a text of zeros and underscores only the last character stays. -/
def stripLeadingZeros : List Char → List Char
  | '0' :: rest => afterZeros '0' rest
  | cs => cs
where
  /-- The rest after the zeros and underscores read so far, the last of which is `last`. -/
  afterZeros (last : Char) : List Char → List Char
    | [] => [last]
    | c :: rest =>
      if c = '0' ∨ c = '_' then afterZeros c rest
      else if c.isDigit ∨ c = '-' then c :: rest
      else last :: c :: rest

/-- A text without a fraction of zeros after its first point: `3.00` is `3`. A point with no
zero after it is kept, and so is a fraction with another character. -/
def dropZeroFraction (cs : List Char) : List Char :=
  match cs.idxOf? '.' with
  | some i =>
    let fraction := cs.drop (i + 1)
    if !fraction.isEmpty ∧ fraction.all (· = '0') then cs.take i else cs
  | none => cs

/-- Whether a text has two underscores in a row. -/
def hasDoubleUnderscore : List Char → Bool
  | '_' :: '_' :: _ => true
  | _ :: rest => hasDoubleUnderscore rest
  | [] => false

/-- A text without its underscores, unless it starts or ends with one or has two in a row. -/
def stripUnderscores (cs : List Char) : List Char :=
  if cs.head? = some '_' ∨ cs.getLast? = some '_' ∨ hasDoubleUnderscore cs then cs
  else cs.filter (· ≠ '_')

/-- A text split at its sign, which must be followed by a digit: a plus sign is dropped and a
minus sign set aside. A text without a sign is all rest. -/
def splitSign : List Char → Option (Bool × List Char)
  | '-' :: rest => if rest.head?.any Char.isDigit then some (true, rest) else none
  | '+' :: rest => if rest.head?.any Char.isDigit then some (false, rest) else none
  | cs => some (false, cs)

/-- The numeral that a lenient reading makes of a text: trimmed of `White_Space`, its sign split
off, then without leading zeros, a zero fraction and underscores, in that order, and a minus
sign put back. -/
def laxNumeral (cs : List Char) : Option (List Char) :=
  (splitSign (trimWhiteSpace cs)).map fun (neg, t) =>
    let t := stripUnderscores (dropZeroFraction (stripLeadingZeros t))
    if neg then '-' :: t else t

/-- The integer of a text: a strict numeral as it stands, else the lenient numeral of the text.
Only the first reading refuses a text for its size. -/
def integerOfChars (cs : List Char) : Except OptionFault Int :=
  if leadingRun cs > integerTextLimit then .error .integerTooLarge
  else match strictValue? cs with
    | some n => .ok n
    | none => match (laxNumeral cs).bind strictValue? with
      | some n => .ok n
      | none => .error .unparsableInteger

/-- The integer of a text. -/
def integerOfText (s : Str) : Except OptionFault Int :=
  match s.toChars? with
  | none => .error .notUnicode
  | some cs => integerOfChars cs

example : (integerOfChars "1_000".toList).toOption = some 1000 ∧
    (integerOfChars "3.0".toList).toOption = some 3 ∧
    (integerOfChars "0-9".toList).toOption = some (-9) ∧
    (integerOfChars "+0-1".toList).toOption = some (-1) ∧
    (integerOfChars "+-5".toList).toOption = none ∧
    (integerOfChars "0__10".toList).toOption = some 10 ∧
    (integerOfChars "1__0".toList).toOption = none ∧
    (integerOfChars "0_".toList).toOption = none ∧
    (integerOfChars "2.".toList).toOption = none := by decide +kernel

/-- The integer of a finite floating point number without a fraction, within 64 signed bits. -/
def integerOfFloat (x : Binary64) : Except OptionFault Int :=
  if !x.isFinite then .error .notFinite
  else
    let (num, den) := x.toRatio
    if num % den ≠ 0 then .error .fractionalNumber
    else
      let n : Int := if x.negative then -((num / den : Nat) : Int) else (num / den : Nat)
      if -Int.pow 2 63 < n ∧ n < Int.pow 2 63 then .ok n else .error .integerTooLarge

/-- The integer of an option value. -/
def integer (v : Value) : Except OptionFault Int :=
  match v with
  | .scalar (.int n) => .ok n
  | .scalar (.bool b) => .ok (if b then 1 else 0)
  | .scalar (.str s) => integerOfText s
  | .scalar (.float x) => integerOfFloat x
  | _ => .error .notInteger

/-- The ASCII lower case of a text. -/
def lowerAscii (cs : List Char) : List Char :=
  cs.map fun c => if 'A' ≤ c ∧ c ≤ 'Z' then Char.ofNat (c.toNat + 32) else c

/-- The texts that spell `false`, in lower case. -/
def falseWords : List (List Char) :=
  [['0'], ['o', 'f', 'f'], ['f'], ['f', 'a', 'l', 's', 'e'], ['n'], ['n', 'o']]

/-- The texts that spell `true`, in lower case. -/
def trueWords : List (List Char) :=
  [['1'], ['o', 'n'], ['t'], ['t', 'r', 'u', 'e'], ['y'], ['y', 'e', 's']]

/-- The boolean of a text. -/
def booleanOfText (s : Str) : Except OptionFault Bool :=
  match s.toChars? with
  | none => .error .notUnicode
  | some cs =>
    let word := lowerAscii cs
    if falseWords.contains word then .ok false
    else if trueWords.contains word then .ok true
    else .error .unparsableBoolean

/-- The boolean of an option value. -/
def boolean (v : Value) : Except OptionFault Bool :=
  match v with
  | .scalar (.bool b) => .ok b
  | .scalar (.str s) => booleanOfText s
  | .scalar (.int n) =>
    if n = 0 then .ok false else if n = 1 then .ok true
    else if -Int.pow 2 63 ≤ n ∧ n < Int.pow 2 63 then .error .unparsableBoolean
    else .error .notBoolean
  | .scalar (.float x) =>
    match integerOfFloat x with
    | .ok 0 => .ok false
    | .ok 1 => .ok true
    | .ok _ => .error .unparsableBoolean
    | .error _ => .error .notBoolean
  | _ => .error .notBoolean

end Ingest.Schema.Lax
