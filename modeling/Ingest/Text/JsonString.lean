import Ingest.Text.Point

/-!
JSON string literals.

Writing: a text goes between double quotes; the double quote and the backslash are escaped,
line feed, carriage return, tab, backspace and form feed take their letter escapes, every other
character below `0x20` becomes `\u00xx` in lower-case hexadecimal, and all else, a lone
surrogate included, is written as it is.

Reading (`readLiteral`) takes a whole literal, quotes included, and either gives its text or
the fault and the position in the literal where reading stopped: a bad escape is blamed on its
backslash, a bad `\uXXXX` escape on its `u`. A high surrogate escape followed by a low
surrogate escape is one character; a surrogate that stays alone is kept as a surrogate code
point, so the text read is a `Str`.
-/

namespace Ingest.Text

/-- The characters that stand for one character inside a JSON string literal. -/
def jsonChar (c : Char) : List Char :=
  if c = '"' then ['\\', '"']
  else if c = '\\' then ['\\', '\\']
  else if c = '\n' then ['\\', 'n']
  else if c = '\r' then ['\\', 'r']
  else if c = '\t' then ['\\', 't']
  else if c = '\x08' then ['\\', 'b']
  else if c = '\x0c' then ['\\', 'f']
  else if c.toNat < 0x20 then '\\' :: 'u' :: hexDigits false 4 c.toNat
  else [c]

/-- The JSON string literal of a list of characters. -/
def jsonLiteralChars (cs : List Char) : List Char :=
  '"' :: (cs.flatMap jsonChar ++ ['"'])

/-- The JSON string literal of a text. -/
def jsonLiteral (s : String) : String :=
  String.ofList (jsonLiteralChars s.toList)

/-- The code points that stand for one code point inside a JSON string literal. -/
def jsonPoint : Point → List Point
  | .char c => (jsonChar c).map .char
  | .surrogate o => [.surrogate o]

/-- The JSON string literal of a string of code points. -/
def jsonText (s : Str) : Str :=
  ⟨.char '"' :: (s.points.flatMap jsonPoint ++ [.char '"'])⟩

theorem jsonText_ofString (s : String) : jsonText (Str.ofString s) = Str.ofString (jsonLiteral s) := by
  simp [jsonText, jsonLiteral, jsonLiteralChars, Str.ofString, Str.ofChars, jsonPoint,
    List.map_flatMap, List.flatMap_map]

/-- Why a JSON string literal cannot be read. -/
inductive LiteralFault where
  | badEscape
  | badUnicodeEscape
  | unterminated
  | controlCharacter
deriving DecidableEq, Repr

/-- The words a JSON reader uses for a fault. -/
def LiteralFault.message : LiteralFault → String
  | .badEscape => "Invalid \\escape"
  | .badUnicodeEscape => "Invalid \\uXXXX escape"
  | .unterminated => "Unterminated string starting at"
  | .controlCharacter => "Invalid control character at"

/-- The character of a simple escape letter. -/
def simpleEscape : Char → Option Char
  | '"' => some '"'
  | '\\' => some '\\'
  | '/' => some '/'
  | 'b' => some '\x08'
  | 'f' => some '\x0c'
  | 'n' => some '\n'
  | 'r' => some '\r'
  | 't' => some '\t'
  | _ => none

/-- The value of a hexadecimal digit of either case. -/
def hexValue? (c : Char) : Option Nat :=
  if '0' ≤ c ∧ c ≤ '9' then some (c.toNat - 48)
  else if 'a' ≤ c ∧ c ≤ 'f' then some (c.toNat - 87)
  else if 'A' ≤ c ∧ c ≤ 'F' then some (c.toNat - 55)
  else none

/-- The value of the four hexadecimal digits at the front of a list. -/
def hex4? : List Char → Option Nat
  | a :: b :: c :: d :: _ => do
    let a ← hexValue? a
    let b ← hexValue? b
    let c ← hexValue? c
    let d ← hexValue? d
    pure (((a * 16 + b) * 16 + c) * 16 + d)
  | _ => none

/-- Whether a code is a high surrogate. -/
def isHighSurrogate (n : Nat) : Bool := 0xD800 ≤ n && n ≤ 0xDBFF

/-- Whether a code is a low surrogate. -/
def isLowSurrogate (n : Nat) : Bool := 0xDC00 ≤ n && n ≤ 0xDFFF


/-- Reads the rest of a literal from position `pos`; `size` is the length of the whole literal
and `acc` the code points read so far, the last first. -/
def readFrom (size : Nat) : List Char → Nat → List Point → Except (LiteralFault × Nat) (List Point)
  | [], _, _ => .error (.unterminated, 0)
  | ['\\'], _, _ => .error (.unterminated, 0)
  | '\\' :: 'u' :: rest, pos, acc =>
    if size ≤ pos + 6 then .error (.badUnicodeEscape, pos + 1)
    else
      match hex4? rest with
      | none => .error (.badUnicodeEscape, pos + 1)
      | some code =>
        if isHighSurrogate code ∧ pos + 12 < size then
          match hrest : rest.drop 4 with
          | '\\' :: 'u' :: more =>
            match hex4? more with
            | none => .error (.badUnicodeEscape, pos + 7)
            | some low =>
              if isLowSurrogate low then
                readFrom size (more.drop 4) (pos + 12)
                  (.char (Char.ofNat (0x10000 + (code - 0xD800) * 0x400 + (low - 0xDC00))) :: acc)
              else readFrom size (rest.drop 4) (pos + 6) (Point.ofCode code :: acc)
          | _ => readFrom size (rest.drop 4) (pos + 6) (Point.ofCode code :: acc)
        else readFrom size (rest.drop 4) (pos + 6) (Point.ofCode code :: acc)
  | '\\' :: e :: rest, pos, acc =>
    match simpleEscape e with
    | some c => readFrom size rest (pos + 2) (.char c :: acc)
    | none => .error (.badEscape, pos)
  | c :: rest, pos, acc =>
    if c = '"' then .ok acc
    else if c.toNat < 0x20 then .error (.controlCharacter, pos)
    else readFrom size rest (pos + 1) (.char c :: acc)
termination_by cs => cs.length
decreasing_by
  all_goals simp_wf
  all_goals grind [List.length_drop]

/-- The string of a whole JSON string literal, quotes included, or the fault and its position
in the literal. -/
def readLiteral (lit : List Char) : Except (LiteralFault × Nat) Str :=
  match lit with
  | '"' :: rest => (readFrom lit.length rest 1 []).map fun acc => ⟨acc.reverse⟩
  | _ => .error (.unterminated, 0)

example : (readLiteral ['"', 'a', '\\', 'n', '"']).toOption = some (Str.ofString "a\n") := by
  decide +kernel

example : (readLiteral "\"\\ud800\"".toList).toOption = some ⟨[.surrogate 0]⟩ := by
  decide +kernel

end Ingest.Text
