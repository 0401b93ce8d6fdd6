import Ingest.Schema.Column
import Ingest.Yaml.Document

/-!
A compiled schema as a YAML document.

The document has the tokenizer settings under `dsv_config` and the mappings under `mappings`.
A mapping lists `secondary_mapping`, `key`, `set` and `bins`; a key or set is a `static_value`
or a `column`; a bin has a `static_name` or a `name_column` and a `static_value` or a
`value_column`; a column lists its `position` (0-based) or `name`, then whichever of
`src_type`, `dst_type`, `encoding` and `remove_prefix` it has. Fields without a value are left
out.
-/

namespace Ingest.Schema

open Ingest.Yaml

/-- The fields of a column reference. -/
def ColumnRef.document (c : ColumnRef) : Node :=
  let selector := match c.selector with
    | .position i => ("position", Node.int i)
    | .name n => ("name", Node.str n)
  let optional (name : String) : Option Text.Str → List (String × Node)
    | some v => [(name, .str v)]
    | none => []
  .map (selector :: optional "src_type" c.srcType ++ optional "dst_type" c.dstType ++
    optional "encoding" c.encoding ++ optional "remove_prefix" c.removePrefix)

/-- The fields of a key or set. -/
def Source.metaDocument : Source → Node
  | .fixed t => .map [("static_value", .str t)]
  | .column c => .map [("column", c.document)]

/-- The fields of a bin. -/
def Bin.document (b : Bin) : Node :=
  let name := match b.name with
    | .fixed t => ("static_name", Node.str t)
    | .column c => ("name_column", c.document)
  let value := match b.value with
    | .fixed t => ("static_value", Node.str t)
    | .column c => ("value_column", c.document)
  .map [name, value]

/-- The fields of a mapping. -/
def Mapping.document (m : Mapping) : Node :=
  .map [("secondary_mapping", .bool m.secondary), ("key", m.key.metaDocument),
    ("set", m.set.metaDocument), ("bins", .seq (m.bins.map Bin.document))]

/-- The document of a compiled schema. -/
def Compiled.document (s : Compiled) : Node :=
  .map [("dsv_config", .map (s.settings.map fun (k, v) => (k, .str v))),
    ("mappings", .seq (s.mappings.map Mapping.document))]

end Ingest.Schema
