import Ingest.Value.Basic
import Ingest.Number.Notation
import Ingest.Text.Quoted

/-!
Debug view of a value tree.

Scalars show as `None`, `True`, `False`, integers in decimal, floating point numbers by their
shortest digits (`Notation.standard`) and texts quoted (`Text.quoteStr`). A list shows as a tuple:
`()`, `(a,)` for one item, `(a, b)` for more. A map shows as `RelaxedMap({k: v, ...})`. The
empty document shows as `NO_VALUE`.
-/

namespace Ingest

/-- The debug view of a scalar. -/
def Scalar.view : Scalar → String
  | .null => "None"
  | .bool b => if b then "True" else "False"
  | .int n => toString n
  | .float x => Notation.standard.write x
  | .str s => Text.quoteStr s

namespace Value

mutual

/-- The debug view of a value tree. -/
def view : Value → String
  | .scalar s => s.view
  | .list [] => "()"
  | .list [x] => "(" ++ view x ++ ",)"
  | .list xs => "(" ++ viewItems xs ++ ")"
  | .map es => "RelaxedMap(\x7b" ++ viewEntries es ++ "\x7d)"

/-- The items of a tuple, separated by a comma and a blank. -/
def viewItems : List Value → String
  | [] => ""
  | [x] => view x
  | x :: xs => view x ++ ", " ++ viewItems xs

/-- The entries of a map, separated by a comma and a blank. -/
def viewEntries : List (Scalar × Value) → String
  | [] => ""
  | [(k, v)] => k.view ++ ": " ++ view v
  | (k, v) :: es => k.view ++ ": " ++ view v ++ ", " ++ viewEntries es

end

end Value

/-- The debug view of a document: its value, or `NO_VALUE` when it is empty. -/
def documentView : Option Value → String
  | some v => v.view
  | none => "NO_VALUE"

end Ingest
