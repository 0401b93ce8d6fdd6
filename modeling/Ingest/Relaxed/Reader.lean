import Ingest.Relaxed.Token
import Ingest.Relaxed.KeyCoercion
import Ingest.Value.Basic

/-!
Reading a relaxed document into a value tree.

The lexemes of the text (`Token.scan`) are read by recursive descent. A value is a string, a
number, a literal, a list `[a, b]` or a map `{k: v}`; the document is one value, or nothing at
all when the text holds no lexeme. A number with a point or an exponent is a floating point
number and any other an integer, refused when it has more than 4000 characters. A key is a
string or, if the options allow, a bare name, coerced when the options say so. Maps are built
slot by slot (`Entries.ofPairs`).

The document value is at depth 0, and the items and entry values of a list or map one deeper
than it; reading a value deeper than `maxDepth` fails. A fault is found where the lexeme that
shows it starts, or at the end of the text when the lexemes ran out.

Every step of the descent consumes at least one lexeme, so reading ends: each function returns
the lexemes left together with a proof that they are fewer.

The options switch each extension of JSON on or off, bound the nesting and say whether keys are
coerced. `Options.relaxed` allows both extensions, `Options.strict` neither; both allow 200
levels and leave keys as texts.
-/

namespace Ingest.Relaxed

/-- How a relaxed document is read. -/
structure Options where
  /-- Whether a map key may be a bare word. -/
  unquotedKeys : Bool := true
  /-- Whether a string may be written between single quotes. -/
  singleQuotes : Bool := true
  /-- The deepest nesting level of a value; the whole document is level 0. -/
  maxDepth : Int := 200
  /-- Whether map keys are turned into the scalar they spell. -/
  coerceKeys : Bool := false

/-- Both extensions of JSON allowed. -/
def Options.relaxed : Options := {}

/-- Plain JSON. -/
def Options.strict : Options := { unquotedKeys := false, singleQuotes := false }

/-- Why reading a document failed: a syntax error, or a key with too many digits. -/
inductive ReadError where
  | malformed (e : SyntaxError)
  | digitLimit (e : DigitLimit)

/-- A reading context: the options and the length of the text. -/
structure Reader where
  options : Options
  textLength : Nat

/-- A value or key read from lexemes, with the lexemes left, which are fewer. -/
abbrev Parsed (α : Type) (ts : List Token) := Except ReadError { p : α × List Token // p.2.length < ts.length }

namespace Reader

/-- The offset of the next lexeme, or the end of the text when none is left. -/
def offsetAt (r : Reader) : List Token → Nat
  | [] => r.textLength
  | t :: _ => t.start

/-- A syntax error at an offset. -/
def fail {α : Type} (f : Fault) (offset : Nat) : Except ReadError α :=
  .error (.malformed ⟨f, offset⟩)

/-- The most characters an integer may have. -/
def integerLimit : Nat := 4000

/-- The text of a string lexeme. A single-quoted string becomes a double-quoted literal first:
an escaped single quote is the quote itself, another escape is kept, and a double quote is
escaped. -/
def stringText (r : Reader) (t : Token) : Except ReadError Text.Str :=
  let literal := match t.kind with
    | .singleQuoted => '"' :: requote ((t.raw.drop 1).dropLast) ++ ['"']
    | _ => t.raw
  if t.kind = .singleQuoted ∧ !r.options.singleQuotes then fail .singleQuotes t.start
  else match Text.readLiteral literal with
    | .ok s => .ok s
    | .error (f, pos) => fail (.badString f) (t.start + pos)
where
  /-- The body of a single-quoted string as the body of a double-quoted one. -/
  requote : List Char → List Char
    | '\\' :: c :: rest => (if c = '\'' then ['\''] else ['\\', c]) ++ requote rest
    | '"' :: rest => '\\' :: '"' :: requote rest
    | c :: rest => c :: requote rest
    | [] => []

/-- The scalar of a number lexeme. -/
def numberScalar (t : Token) : Except ReadError Scalar :=
  if t.raw.any (fun c => c = '.' ∨ c = 'e' ∨ c = 'E') then
    match Decimal.Numeral.read? t.raw with
    | some n => .ok (.float n.toBinary64)
    | none => fail (.expectedValue t.raw) t.start
  else if t.raw.length > integerLimit then fail .numberTooLarge t.start
  else
    let (neg, digits) := Decimal.spanSign t.raw
    let n := Decimal.digitsValue digits
    .ok (.int (if neg then -(n : Int) else n))

/-- The scalar of a literal lexeme. -/
def literalScalar (raw : List Char) : Scalar :=
  if raw = ['t', 'r', 'u', 'e'] then .bool true
  else if raw = ['f', 'a', 'l', 's', 'e'] then .bool false
  else .null

/-- Reads a map key. -/
def key (r : Reader) : (ts : List Token) → Parsed Scalar ts
  | [] => fail .unexpectedEnd r.textLength
  | t :: rest => do
    let name ← match t.kind with
      | .string | .singleQuoted => r.stringText t
      | .name =>
        if r.options.unquotedKeys then pure (Text.Str.ofChars t.raw)
        else fail (.unquotedKey t.raw) t.start
      | _ => fail (.expectedKey t.raw) t.start
    let k ← if r.options.coerceKeys then
        match coerceKey name with
        | .ok k => pure k
        | .error e => .error (.digitLimit e)
      else pure (.str name)
    pure ⟨(k, rest), by simp⟩

/-- Reads the colon after a key. -/
def colon (r : Reader) : (ts : List Token) → Parsed Unit ts
  | [] => fail .unexpectedEnd r.textLength
  | t :: rest =>
    if t.isMark ':' then .ok ⟨((), rest), by simp⟩ else fail (.expectedMark ':' t.raw) t.start

theorem length_lt_of_cons {t : Token} {rest : List Token} {n : Nat}
    (h : (t :: rest).length < n) : rest.length < n := by
  simp at h
  omega

mutual

/-- Reads a value at a depth. -/
def value (r : Reader) (depth : Nat) (ts : List Token) : Parsed Value ts :=
  if r.options.maxDepth < depth then fail .tooDeep (r.offsetAt ts)
  else
    match ts with
    | [] => fail .unexpectedEnd r.textLength
    | t :: rest =>
      match t.kind with
      | .string | .singleQuoted => do
        let s ← r.stringText t
        pure ⟨(.scalar (.str s), rest), by simp⟩
      | .number => do
        let s ← numberScalar t
        pure ⟨(.scalar s, rest), by simp⟩
      | .literal => .ok ⟨(.scalar (literalScalar t.raw), rest), by simp⟩
      | .name => fail (.expectedValue t.raw) t.start
      | .mark =>
        if t.raw = ['['] then
          match r.listBody (depth + 1) rest with
          | .ok ⟨p, h⟩ => .ok ⟨p, by simp; omega⟩
          | .error e => .error e
        else if t.raw = ['{'] then
          match r.mapBody (depth + 1) rest with
          | .ok ⟨p, h⟩ => .ok ⟨p, by simp; omega⟩
          | .error e => .error e
        else fail (.expectedValue t.raw) t.start
termination_by 3 * ts.length

/-- Reads the items of a list after its opening bracket. -/
def listBody (r : Reader) (depth : Nat) (ts : List Token) : Parsed Value ts :=
  match ts with
  | [] => fail .unexpectedEnd r.textLength
  | t :: rest =>
    if t.isMark ']' then .ok ⟨(.list [], rest), by simp⟩
    else r.listItems depth [] (t :: rest)
termination_by 3 * ts.length + 2

/-- Reads list items after those in `acc` (last first), up to the closing bracket. -/
def listItems (r : Reader) (depth : Nat) (acc : List Value) (ts : List Token) :
    Parsed Value ts :=
  match r.value depth ts with
  | .error e => .error e
  | .ok ⟨(v, after), h⟩ =>
    match after, h with
    | [], _ => fail .unexpectedEnd r.textLength
    | t :: rest, h =>
      have shorter : rest.length < ts.length := length_lt_of_cons h
      if t.isMark ']' then .ok ⟨(.list (v :: acc).reverse, rest), shorter⟩
      else if t.isMark ',' then
        match r.listItems depth (v :: acc) rest with
        | .ok ⟨p, h'⟩ => .ok ⟨p, Nat.lt_trans h' shorter⟩
        | .error e => .error e
      else fail (.expectedSeparator ']' t.raw) t.start
termination_by 3 * ts.length + 1

/-- Reads the entries of a map after its opening brace. -/
def mapBody (r : Reader) (depth : Nat) (ts : List Token) : Parsed Value ts :=
  match ts with
  | [] => fail .unexpectedEnd r.textLength
  | t :: rest =>
    if t.isMark '}' then .ok ⟨(.map [], rest), by simp⟩
    else r.mapEntries depth [] (t :: rest)
termination_by 3 * ts.length + 2

/-- Reads map entries after the pairs in `acc` (last first), up to the closing brace. -/
def mapEntries (r : Reader) (depth : Nat) (acc : List (Scalar × Value)) (ts : List Token) :
    Parsed Value ts :=
  match r.key ts with
  | .error e => .error e
  | .ok ⟨(k, afterKey), hk⟩ =>
    match r.colon afterKey with
    | .error e => .error e
    | .ok ⟨((), afterColon), hc⟩ =>
      have beforeValue : afterColon.length < ts.length := Nat.lt_trans hc hk
      match r.value depth afterColon with
      | .error e => .error e
      | .ok ⟨(v, after), hv⟩ =>
        match after, hv with
        | [], _ => fail .unexpectedEnd r.textLength
        | t :: rest, hv =>
          have shorter : rest.length < ts.length := Nat.lt_trans (length_lt_of_cons hv) beforeValue
          if t.isMark '}' then
            .ok ⟨(.map (Entries.ofPairs ((k, v) :: acc).reverse), rest), shorter⟩
          else if t.isMark ',' then
            match r.mapEntries depth ((k, v) :: acc) rest with
            | .ok ⟨p, h'⟩ => .ok ⟨p, Nat.lt_trans h' shorter⟩
            | .error e => .error e
          else fail (.expectedSeparator '}' t.raw) t.start
termination_by 3 * ts.length + 1

end

/-- Reads a whole document: `none` when the text has no lexeme. -/
def document (r : Reader) (ts : List Token) : Except ReadError (Option Value) :=
  match ts with
  | [] => .ok none
  | _ =>
    match r.value 0 ts with
    | .error e => .error e
    | .ok ⟨(v, []), _⟩ => .ok (some v)
    | .ok ⟨(_, t :: _), _⟩ => fail .extraData t.start

end Reader

/-- Reads a relaxed document: its value, `none` for a text without lexemes, or why it cannot
be read. -/
def read (options : Options) (text : String) : Except ReadError (Option Value) :=
  let cs := text.toList
  match Token.scan cs with
  | .error e => .error (.malformed e)
  | .ok ts => Reader.document ⟨options, cs.length⟩ ts

end Ingest.Relaxed
