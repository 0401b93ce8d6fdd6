import Ingest.Text.JsonString
import Ingest.Text.Quoted

/-!
Faults of relaxed documents and where they are.

A `SyntaxError` is a fault and the offset, counted in characters from the start of the text,
where it was found. Its line is one more than the number of line feeds before the offset, and
its column one more than the number of characters between the last such line feed and the
offset; a carriage return does not end a line.
-/

namespace Ingest.Relaxed

/-- Why a relaxed document cannot be read. -/
inductive Fault where
  /-- A quote that no string literal can start with. -/
  | unterminatedString
  /-- A character that starts no lexeme. -/
  | unexpectedChar (c : Char)
  /-- A string literal whose escapes cannot be read. -/
  | badString (fault : Text.LiteralFault)
  /-- The lexemes ended where more were needed. -/
  | unexpectedEnd
  /-- A lexeme stands where a given punctuation mark must. -/
  | expectedMark (mark : Char) (got : List Char)
  /-- A single-quoted string where those are not allowed. -/
  | singleQuotes
  /-- A bare key where those are not allowed. -/
  | unquotedKey (raw : List Char)
  /-- A lexeme stands where a key must. -/
  | expectedKey (got : List Char)
  /-- A lexeme stands where a value must. -/
  | expectedValue (got : List Char)
  /-- A lexeme stands where a comma or the closing bracket must. -/
  | expectedSeparator (close : Char) (got : List Char)
  /-- A value nested deeper than the options allow. -/
  | tooDeep
  /-- An integer with more characters than a reader converts. -/
  | numberTooLarge
  /-- Lexemes after the value of the document. -/
  | extraData

/-- The text of a lexeme as messages quote it. -/
def quoteRaw (raw : List Char) : String :=
  Text.quote (String.ofList raw)

/-- The message of a fault, without its position. -/
def Fault.message : Fault → String
  | .unterminatedString => "unterminated string"
  | .unexpectedChar c => "unexpected character " ++ Text.quote (String.singleton c)
  | .badString f => "bad string escape: " ++ f.message
  | .unexpectedEnd => "unexpected end of input"
  | .expectedMark m got => "expected '" ++ String.singleton m ++ "', got " ++ quoteRaw got
  | .singleQuotes => "single-quoted strings are not allowed"
  | .unquotedKey raw => "unquoted key " ++ quoteRaw raw ++ " is not allowed"
  | .expectedKey got => "expected an object key, got " ++ quoteRaw got
  | .expectedValue got => "unexpected " ++ quoteRaw got ++ ", expected a value"
  | .expectedSeparator c got => "expected ',' or '" ++ String.singleton c ++ "', got " ++ quoteRaw got
  | .tooDeep => "maximum nesting depth exceeded"
  | .numberTooLarge => "number too large"
  | .extraData => "extra data after the document value"

/-- A fault of a document and the character offset where it was found. -/
structure SyntaxError where
  fault : Fault
  offset : Nat

namespace SyntaxError

/-- The line of the offset, counting from 1. -/
def line (e : SyntaxError) (text : List Char) : Nat :=
  (text.take e.offset).count '\n' + 1

/-- Where the line of the offset starts: just after the last newline before it. -/
def lineStart (e : SyntaxError) (text : List Char) : Nat :=
  let before := text.take e.offset
  before.length - (before.reverse.takeWhile (· ≠ '\n')).length

/-- The column of the offset, counting from 1. An offset past the end of the text, as the
escape of a single-quoted string can have once its quotes are escaped, counts on from the start
of the last line. -/
def column (e : SyntaxError) (text : List Char) : Nat :=
  e.offset - e.lineStart text + 1

/-- The full message: the fault and its line and column. -/
def message (e : SyntaxError) (text : List Char) : String :=
  e.fault.message ++ " (line " ++ toString (e.line text) ++ ", column " ++
    toString (e.column text) ++ ")"

end SyntaxError

end Ingest.Relaxed
