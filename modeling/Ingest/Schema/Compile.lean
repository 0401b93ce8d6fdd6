import Ingest.Schema.Column
import Ingest.Value.Basic
import Ingest.Text.Blank
import Ingest.Number.Decimal
import Ingest.Number.Notation

/-!
Compiling a config document into a load schema.

The document is a map with a `version`, a `dsv_config` map that has at least `n_columns`, and
an optional list of `mappings`. Each mapping has a `key` and a `set`, each a column reference
with an optional `type` and `remove_prefix` (a `set` may also be a fixed text, and its type is
`string` when none is given), a `binList` that is a non-empty list of bins, and an optional
`secondary_mapping` flag. A bin has a `name`, a fixed text or a column reference, and a `value`,
a fixed text or a typed column reference. A column reference has exactly one of a 1-based
`column_position` and a `column_name`. A field whose value is null counts as absent.

Compiling stops at the first fault, in document order: sections and fields are checked in the
order just given, and a fault names the path of the field it blames and its fragment.
-/

namespace Ingest.Schema

open Ingest.Text

/-- The value of a field of a map, a null value counting as absent. -/
def field? (entries : List (Scalar × Value)) (name : String) : Option Value :=
  match Entries.get? entries (.str name) with
  | some (.scalar .null) => none
  | v => v

/-- A schema fault. -/
def refuse {α : Type} (fault : Fault) (path : String) (fragment : Value) : Except SchemaError α :=
  .error ⟨fault, path, fragment⟩

/-- The entries of a value that must be a map. -/
def requireMap (v : Value) (path : String) : Except SchemaError (List (Scalar × Value)) :=
  match v with
  | .map entries => .ok entries
  | other => refuse (.notAMap other.kind) path other

/-- The text of a scalar setting: a text as it is, booleans as `true` and `false`, numbers as
their decimal text. -/
def settingText (v : Value) (path : String) : Except SchemaError Text.Str :=
  match v with
  | .scalar (.str s) => .ok s
  | .scalar (.bool b) => .ok (if b then "true" else "false")
  | .scalar (.int n) => .ok (toString n)
  | .scalar (.float x) => .ok (Notation.standard.write x)
  | other => refuse (.notAScalar other.kind) path other

/-- The text of an optional field. -/
def optionalText (entries : List (Scalar × Value)) (name path : String) :
    Except SchemaError (Option Text.Str) :=
  match field? entries name with
  | none => .ok none
  | some v => some <$> settingText v (joinPath path name)

/-- The ASCII lower case of a text. -/
def lowerAscii (cs : List Char) : List Char :=
  cs.map fun c => if 'A' ≤ c ∧ c ≤ 'Z' then Char.ofNat (c.toNat + 32) else c

/-- A flag: a boolean, or a text that spells `true` or `false` in any letter case once trimmed;
a text with a lone surrogate spells neither. -/
def flag (v : Value) (path : String) : Except SchemaError Bool :=
  match v with
  | .scalar (.bool b) => .ok b
  | .scalar (.str s) =>
    let word := (s.toChars?.map fun cs => lowerAscii (trimChars cs)).getD []
    if word = ['t', 'r', 'u', 'e'] then .ok true
    else if word = ['f', 'a', 'l', 's', 'e'] then .ok false
    else refuse (.notABoolean v) path v
  | other => refuse (.notABoolean other) path other

/-- Whether a text is an optional sign and ASCII digits. -/
def isIntegerText (cs : List Char) : Bool :=
  match cs with
  | '+' :: ds | '-' :: ds => !ds.isEmpty && ds.all Char.isDigit
  | ds => !ds.isEmpty && ds.all Char.isDigit

/-- The integer spelled by a sign and digits. -/
def integerOfText (cs : List Char) : Int :=
  let (neg, ds) := Decimal.spanSign cs
  let n : Int := Decimal.digitsValue ds
  if neg then -n else n

/-- A 1-based column position from the document, returned 0-based. It is an integer, or a text
of at most 20 characters once trimmed that spells one. -/
def position (v : Value) (path : String) : Except SchemaError Int := do
  let n ← match v with
    | .scalar (.int n) => pure n
    | .scalar (.str s) =>
      let t := (s.toChars?.map trimChars).getD []
      if isIntegerText t ∧ t.length ≤ 20 then pure (integerOfText t)
      else refuse (.positionNotInteger v) path v
    | other => refuse (.positionNotInteger other) path other
  if n < 1 then refuse (.positionBelowOne n) path v else pure (n - 1)

/-- The column reference of a map node, with the given converter settings. -/
def columnRef (node : Value) (entries : List (Scalar × Value)) (path : String)
    (srcType dstType encoding removePrefix : Option Text.Str) : Except SchemaError ColumnRef := do
  -- the reference is made through the check that it has exactly one selector
  match field? entries "column_position", field? entries "column_name" with
  | some _, some _ => refuse .selectorsExclusive path node
  | none, none => refuse .selectorMissing path node
  | some p, none =>
    ColumnRef.ofParts (some (← position p (joinPath path "column_position"))) none srcType dstType
      encoding removePrefix
  | none, some n =>
    ColumnRef.ofParts none (some (← settingText n (joinPath path "column_name"))) srcType dstType
      encoding removePrefix

/-- A key or set given as a column reference with an optional type and prefix; an empty or
absent type falls back to `default`. -/
def metaColumn (node : Value) (path : String) (default : Option Text.Str) :
    Except SchemaError Source := do
  let entries ← requireMap node path
  let srcType ← optionalText entries "type" path
  let srcType := match srcType with
    | some t => if t.points.isEmpty then default else some t
    | none => default
  let removePrefix ← optionalText entries "remove_prefix" path
  return .column (← columnRef node entries path srcType none none removePrefix)

/-- The name of a bin: a fixed text or an untyped column reference. -/
def binName (bin : Value) (entries : List (Scalar × Value)) (path : String) :
    Except SchemaError Source := do
  let namePath := joinPath path "name"
  match field? entries "name" with
  | none => refuse (.missingKey "name" "bin") namePath bin
  | some (.scalar (.str s)) => return .fixed s
  | some (.map nameEntries) =>
    return .column (← columnRef (.map nameEntries) nameEntries namePath none none none none)
  | some other => refuse .binNameShape namePath other

/-- The value of a bin: a fixed text or a column reference that must have a type. -/
def binValue (bin : Value) (entries : List (Scalar × Value)) (path : String) :
    Except SchemaError Source := do
  let valuePath := joinPath path "value"
  match field? entries "value" with
  | none => refuse (.missingKey "value" "bin") valuePath bin
  | some (.scalar (.str s)) => return .fixed s
  | some (.map valueEntries) =>
    let node := Value.map valueEntries
    match ← optionalText valueEntries "type" valuePath with
    | none => refuse (.missingKey "type" "bin value") (joinPath valuePath "type") bin
    | some srcType =>
      let dstType ← optionalText valueEntries "dst_type" valuePath
      let encoding ← optionalText valueEntries "encoding" valuePath
      let removePrefix ← optionalText valueEntries "remove_prefix" valuePath
      return .column (← columnRef node valueEntries valuePath (some srcType) dstType encoding
        removePrefix)
  | some other => refuse .binValueShape valuePath other

/-- A bin. -/
def bin (node : Value) (path : String) : Except SchemaError Bin := do
  let entries ← requireMap node path
  let name ← binName node entries path
  let value ← binValue node entries path
  return ⟨name, value⟩

/-- The items of a list, each with its path `path[i]`. -/
def indexed (items : List Value) (path : String) : List (Value × String) :=
  (List.range items.length).zip items |>.map fun (i, v) => (v, path ++ "[" ++ toString i ++ "]")

/-- A mapping. -/
def mapping (node : Value) (path : String) : Except SchemaError Mapping := do
  let entries ← requireMap node path
  let secondary ← match field? entries "secondary_mapping" with
    | none => pure false
    | some v => flag v (joinPath path "secondary_mapping")
  let key ← match field? entries "key" with
    | none => refuse (.missingKey "key" "mapping") (joinPath path "key") node
    | some k => metaColumn k (joinPath path "key") none
  let set ← match field? entries "set" with
    | none => refuse (.missingKey "set" "mapping") (joinPath path "set") node
    | some (.scalar (.str s)) => pure (.fixed s)
    | some s => metaColumn s (joinPath path "set") (some (Text.Str.ofString "string"))
  let binsPath := joinPath path "binList"
  let bins ← match field? entries "binList" with
    | none => refuse (.missingKey "binList" "mapping") binsPath node
    | some (.list []) => refuse (.emptyList "binList") binsPath node
    | some (.list items) => (indexed items binsPath).mapM fun (b, p) => bin b p
    | some other => refuse (.notAList "binList") binsPath other
  return ⟨secondary, key, set, bins⟩

/-- The tokenizer settings: version and column count, then delimiter and header flag when
given, all as texts. -/
def settings (root : Value) (entries : List (Scalar × Value)) :
    Except SchemaError (List (String × Text.Str)) := do
  let version ← match field? entries "version" with
    | none => refuse (.missingKey "version" "config") "version" root
    | some v => pure v
  let dsv ← match field? entries "dsv_config" with
    | none => refuse (.missingKey "dsv_config" "config") "dsv_config" root
    | some v => pure v
  let dsvEntries ← requireMap dsv "dsv_config"
  let columns ← match field? dsvEntries "n_columns" with
    | none => refuse (.missingKey "n_columns" "dsv_config") "dsv_config.n_columns" dsv
    | some v => pure v
  let versionText ← settingText version "version"
  let columnsText ← settingText columns "dsv_config.n_columns"
  let delimiter ← optionalText dsvEntries "delimiter" "dsv_config"
  let header ← optionalText dsvEntries "header_exist" "dsv_config"
  return [("version", versionText), ("n_columns", columnsText)] ++
    (delimiter.map fun d => [("delimiter", d)]).getD [] ++
    (header.map fun h => [("header_exist", h)]).getD []

/-- The mappings, none when the field is absent. -/
def mappings (entries : List (Scalar × Value)) : Except SchemaError (List Mapping) :=
  match field? entries "mappings" with
  | none => .ok []
  | some (.list items) => (indexed items "mappings").mapM fun (m, p) => mapping m p
  | some other => refuse (.notAList "mappings") "mappings" other

/-- Compiles a document, `none` being the empty document, into a load schema. -/
def compile (doc : Option Value) : Except SchemaError Compiled :=
  match doc with
  | none | some (.scalar .null) => refuse .emptyDocument "" Value.null
  | some root => do
    let entries ← requireMap root ""
    let settings ← settings root entries
    let mappings ← mappings entries
    return ⟨settings, mappings⟩

end Ingest.Schema
