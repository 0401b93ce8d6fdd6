import Ingest.Value.Basic
import Ingest.Number.Notation
import Ingest.Text.JsonString

/-!
Compact text of a value tree.

Scalars are written as JSON writes them: `null`, `true`, `false`, integers in decimal, floating
point numbers by their shortest digits (`Notation.json`), texts as JSON string literals. Lists
are `[a,b]` and maps `{k:v}` with no blanks, and a map key is written like any other scalar, so
the integer key `1` is written `1` and the text key `"1"` is written `"1"`. A lone surrogate of a
text is written as it is, so the compact text is a `Text.Str` too.
-/

namespace Ingest

/-- The compact text of a scalar. -/
def Scalar.render : Scalar → Text.Str
  | .null => "null"
  | .bool b => if b then "true" else "false"
  | .int n => Text.Str.ofString (toString n)
  | .float x => Text.Str.ofString (Notation.json.write x)
  | .str s => Text.jsonText s

namespace Value

mutual

/-- The compact text of a value tree. -/
def render : Value → Text.Str
  | .scalar s => s.render
  | .list xs => "[" ++ renderItems xs ++ "]"
  | .map es => "\x7b" ++ renderEntries es ++ "\x7d"

/-- The items of a list, separated by commas. -/
def renderItems : List Value → Text.Str
  | [] => ""
  | [x] => render x
  | x :: xs => render x ++ "," ++ renderItems xs

/-- The entries of a map, separated by commas. -/
def renderEntries : List (Scalar × Value) → Text.Str
  | [] => ""
  | [(k, v)] => k.render ++ ":" ++ render v
  | (k, v) :: es => k.render ++ ":" ++ render v ++ "," ++ renderEntries es

end

end Value

end Ingest
