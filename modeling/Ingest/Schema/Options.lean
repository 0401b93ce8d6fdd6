import Ingest.Schema.Lax
import Ingest.Delimited.Delimiter

/-!
Typed tokenizer options.

The settings of a compiled schema are texts; the options are what they mean: the version text,
a column count of at least 1, a non-empty delimiter (a comma when none is given) and whether the
data starts with a header row (no, when not given). The settings are read leniently
(`Schema.Lax`), field by field in that order, and the first fault is reported with the path of
its field and the value it saw. The version may hold a lone surrogate; the other settings
cannot be read from a text that does.
-/

namespace Ingest.Schema

/-- The typed options of the tokenizer. -/
structure Options where
  version : Text.Str
  columns : Int
  columns_pos : 1 ≤ columns
  delimiter : Delimited.Delimiter
  header : Bool

namespace Options

/-- A fault of an option field. -/
def refuse {α : Type} (name : String) (given : Option Value) (f : OptionFault) :
    Except SchemaError α :=
  .error ⟨.option f, if name = "version" then name else "dsv_config." ++ name,
    given.getD Value.null⟩

/-- Reads the options from named values, in order of the fields. -/
def ofSettings (settings : List (String × Value)) : Except SchemaError Options := do
  let given (name : String) : Option Value := settings.lookup name
  let version ← match given "version" with
    | none => refuse "version" none .required
    | some (.scalar (.str s)) => pure s
    | some v => refuse "version" v .notString
  let columns ← match given "n_columns" with
    | none => refuse "n_columns" none .required
    | some v => match Lax.integer v with
      | .ok n => pure n
      | .error f => refuse "n_columns" v f
  if h : 1 ≤ columns then
    let delimiter ← match given "delimiter" with
      | none => pure Delimited.Delimiter.comma
      | some (.scalar (.str s)) => match s.toString? with
        | none => refuse "delimiter" (given "delimiter") .notUnicode
        | some t => match Delimited.Delimiter.ofString? t with
          | some d => pure d
          | none => refuse "delimiter" (given "delimiter") .tooShort
      | some v => refuse "delimiter" v .notString
    let header ← match given "header_exist" with
      | none => pure false
      | some v => match Lax.boolean v with
        | .ok b => pure b
        | .error f => refuse "header_exist" v f
    return ⟨version, columns, h, delimiter, header⟩
  else refuse "n_columns" (given "n_columns") .belowOne

/-- Reads the options from the text settings of a compiled schema. -/
def ofTexts (settings : List (String × Text.Str)) : Except SchemaError Options :=
  ofSettings (settings.map fun (k, v) => (k, .scalar (.str v)))

end Options

end Ingest.Schema
