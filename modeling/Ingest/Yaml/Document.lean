import Ingest.Yaml.Writer

/-!
YAML documents in block style.

A document is a tree of string, integer and boolean scalars, sequences and mappings with text
keys. Mappings are written one key per line, nested mappings two blanks deeper; a sequence is
written as `- ` items, at the indentation of the mapping key that holds it and two blanks deeper
elsewhere; an empty sequence or mapping is written `[]` or `{}` after its key. Strings take the
style that `stringStyle` chooses, and a string with a lone surrogate is double-quoted, the only
style that can show it; integers and booleans are plain. The document ends with a
line break.
-/

namespace Ingest.Yaml

/-- A YAML node. -/
inductive Node where
  | str (s : Text.Str)
  | int (n : Int)
  | bool (b : Bool)
  | seq (items : List Node)
  | map (entries : List (String × Node))

/-- Writes a string scalar in its style; `level` is the indentation of folded lines. -/
def Writer.scalar (w : Writer) (text : Text.Str) (level : Nat) (simpleKey : Bool) : Writer :=
  match text.toString? with
  | none => w.doubleQuoted text level !simpleKey
  | some s =>
    match stringStyle s simpleKey with
    | .plain => w.plain s level !simpleKey
    | .singleQuoted => w.singleQuoted s level !simpleKey
    | .doubleQuoted => w.doubleQuoted text level !simpleKey

/-- The indentation of a scalar inside the node at `indent`. -/
def scalarLevel : Option Nat → Nat
  | none => 2
  | some i => i + 2

mutual

/-- Writes a node whose parent is at `indent` (`none` for the document); `inMapping` tells
whether it is the value of a mapping key. -/
def Writer.node (w : Writer) (indent : Option Nat) (inMapping : Bool) : Node → Writer
  | .str s => w.scalar s (scalarLevel indent) false
  | .int n => w.plain (toString n) (scalarLevel indent) true
  | .bool b => w.plain (if b then "true" else "false") (scalarLevel indent) true
  | .seq [] => (w.indicator "[" true true false).indicator "]" false false false
  | .seq items =>
    let level := match indent with
      | none => 0
      | some i => if inMapping && !w.indention then i else i + 2
    w.items level items
  | .map [] => (w.indicator "\x7b" true true false).indicator "\x7d" false false false
  | .map entries =>
    let level := match indent with
      | none => 0
      | some i => i + 2
    w.entries level entries

/-- Writes sequence items at an indentation level. -/
def Writer.items (w : Writer) (level : Nat) : List Node → Writer
  | [] => w
  | x :: xs =>
    let w := (w.indent level).indicator "-" true false true
    (w.node (some level) false x).items level xs

/-- Writes mapping entries at an indentation level. -/
def Writer.entries (w : Writer) (level : Nat) : List (String × Node) → Writer
  | [] => w
  | (k, v) :: es =>
    let w := ((w.indent level).scalar (Text.Str.ofString k) (level + 2) true).indicator ":" false
      false false
    (w.node (some level) true v).entries level es

end

/-- The text of a YAML document. -/
def Node.document (n : Node) : String :=
  (((({} : Writer).node none false n)).indent 0).text

example : (Node.map [("a", .str (Text.Str.ofString "1")),
    ("b", .seq [.map [("c", .bool false)]])]).document = "a: '1'\nb:\n- c: false\n" := by
  decide +kernel

end Ingest.Yaml
