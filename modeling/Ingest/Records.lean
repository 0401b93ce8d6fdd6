import Ingest.Relaxed.Reader
import Ingest.Schema.Compile
import Ingest.Schema.Options
import Ingest.Delimited.Columns

/-!
Records of delimited data under a load schema.

A config text is read as a relaxed document, compiled into a load schema, and the schema's
settings are read into typed options. The data lines are then split with the options'
delimiter, blank lines skipped. When the options say the data has a header, the first row is
the header and names columns for the rest. Every other row gives one record per mapping, in
order: the key, the set and the name and value of each bin, each a text or nothing when its
column is absent from the row.

The first fault of any stage ends the run.
-/

namespace Ingest

open Ingest.Schema

/-- The texts a mapping gives for one row. -/
structure Record where
  key : Option Text.Str
  set : Option Text.Str
  bins : List (Option Text.Str × Option Text.Str)

/-- The texts of a mapping for one row. -/
def Schema.Mapping.record (m : Mapping) (columns : List String) (header : Option (List String)) :
    Except IndexFault Record := do
  let key ← m.key.resolve columns header
  let set ← m.set.resolve columns header
  let bins ← m.bins.mapM fun b => do
    let name ← b.name.resolve columns header
    let value ← b.value.resolve columns header
    pure (name, value)
  return ⟨key, set, bins⟩

/-- A data row and its records, one per mapping. -/
structure RowRecords where
  columns : List String
  records : List Record

/-- The outcome of a run: the options, the header row if any, and the other rows. -/
structure Load where
  options : Schema.Options
  header : Option (List String)
  rows : List RowRecords

/-- Why a run failed. -/
inductive LoadError where
  | read (e : Relaxed.ReadError)
  | schema (e : SchemaError)
  | index (e : IndexFault)

/-- Splits the rows of data under the options, taking the header off when there is one. -/
def splitRows (opts : Schema.Options) (lines : List String) :
    Option (List String) × List (List String) :=
  let rows := opts.delimiter.rows lines
  if opts.header then
    match rows with
    | [] => (none, [])
    | h :: rest => (some h, rest)
  else (none, rows)

/-- Reads a config text with the given reader options and turns data lines into records. -/
def load (readOptions : Relaxed.Options) (config : String) (lines : List String) :
    Except LoadError Load := do
  let doc ← (Relaxed.read readOptions config).mapError LoadError.read
  let schema ← (compile doc).mapError LoadError.schema
  let opts ← (Schema.Options.ofTexts schema.settings).mapError LoadError.schema
  let (header, rows) := splitRows opts lines
  let rows ← rows.mapM fun columns => do
    let records ← (schema.mappings.mapM fun (m : Mapping) => m.record columns header).mapError
      LoadError.index
    pure ⟨columns, records⟩
  return ⟨opts, header, rows⟩

end Ingest
