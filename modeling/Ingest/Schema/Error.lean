import Ingest.Value.Render

/-!
Faults of load schemas.

A config document that reads fine can still describe no valid schema. A `SchemaError` names the
fault, the dotted path of the field it blames (`dsv_config.n_columns`, `mappings[0].key`; empty
for the whole document) and the fragment of the document that shows it. Faults fall into four
classes: a required field is missing, a field has a value of the wrong shape, a column is
referred to wrongly, or a list of mappings or bins is not a non-empty list.
-/

namespace Ingest.Schema

/-- Classes of schema faults. -/
inductive FaultClass where
  | missingField
  | invalidValue
  | invalidColumnRef
  | badList
deriving DecidableEq, Repr

/-- Why a typed option cannot be read from its text. -/
inductive OptionFault where
  | required
  | notString
  | notUnicode
  | notInteger
  | unparsableInteger
  | fractionalNumber
  | notFinite
  | integerTooLarge
  | belowOne
  | tooShort
  | notBoolean
  | unparsableBoolean
deriving DecidableEq, Repr

/-- The message of an option fault. -/
def OptionFault.message : OptionFault → String
  | .required => "Field required"
  | .notString => "Input should be a valid string"
  | .notUnicode => "Input should be a valid string, unable to parse raw data as a unicode string"
  | .notInteger => "Input should be a valid integer"
  | .unparsableInteger => "Input should be a valid integer, unable to parse string as an integer"
  | .fractionalNumber => "Input should be a valid integer, got a number with a fractional part"
  | .notFinite => "Input should be a finite number"
  | .integerTooLarge => "Unable to parse input string as an integer, exceeded maximum size"
  | .belowOne => "Input should be greater than or equal to 1"
  | .tooShort => "String should have at least 1 character"
  | .notBoolean => "Input should be a valid boolean"
  | .unparsableBoolean => "Input should be a valid boolean, unable to interpret input"

/-- Why a document describes no valid schema. -/
inductive Fault where
  /-- The document is empty or null. -/
  | emptyDocument
  /-- A required field of a part of the document is missing. -/
  | missingKey (field place : String)
  /-- A map was expected. -/
  | notAMap (kind : Kind)
  /-- A scalar was expected. -/
  | notAScalar (kind : Kind)
  /-- A boolean, or a text spelling one, was expected. -/
  | notABoolean (shown : Value)
  /-- A column position must be an integer or a text spelling one. -/
  | positionNotInteger (shown : Value)
  /-- Column positions count from 1. -/
  | positionBelowOne (n : Int)
  /-- A bin name is neither a text nor a map. -/
  | binNameShape
  /-- A bin value is neither a text nor a map. -/
  | binValueShape
  /-- A column reference gives both a position and a name. -/
  | selectorsExclusive
  /-- A column reference gives neither a position nor a name. -/
  | selectorMissing
  /-- A column reference must have exactly one of a position and a name. -/
  | selectorNotUnique
  /-- A field must be a list. -/
  | notAList (field : String)
  /-- A list must not be empty. -/
  | emptyList (field : String)
  /-- A typed option cannot be read. -/
  | option (f : OptionFault)

namespace Fault

/-- The class of a fault. -/
def faultClass : Fault → FaultClass
  | .emptyDocument | .missingKey _ _ => .missingField
  | .selectorsExclusive | .selectorMissing | .selectorNotUnique => .invalidColumnRef
  | .notAList _ | .emptyList _ => .badList
  | _ => .invalidValue

/-- The words of a fault; a value it shows is written in its compact text, which may hold a
lone surrogate. -/
def reason : Fault → Text.Str
  | .emptyDocument => "config document is empty"
  | .missingKey field place => "'" ++ field ++ "' key is missing in " ++ place
  | .notAMap k => "expected an object, got " ++ k.name
  | .notAScalar k => "expected a scalar, got " ++ k.name
  | .notABoolean v => "expected a boolean, got " ++ v.render
  | .positionNotInteger v => "column_position must be an integer, got " ++ v.render
  | .positionBelowOne n => "column_position is 1-based, got " ++ toString n
  | .binNameShape => "bin name must be a string or an object"
  | .binValueShape => "bin value must be a string or an object"
  | .selectorsExclusive => "column_position and column_name are mutually exclusive"
  | .selectorMissing => "column_position or column_name is required"
  | .selectorNotUnique => "exactly one of column_position or column_name must be set"
  | .notAList field => "'" ++ field ++ "' must be an array"
  | .emptyList field => "'" ++ field ++ "' must not be empty"
  | .option f => f.message

end Fault

/-- A schema fault, the path of the field it blames and the fragment that shows it. -/
structure SchemaError where
  fault : Fault
  path : String := ""
  fragment : Value := Value.null

/-- The message of a schema error: the path, if any, and the reason. -/
def SchemaError.message (e : SchemaError) : Text.Str :=
  if e.path.isEmpty then e.fault.reason else Text.Str.ofString (e.path ++ ": ") ++ e.fault.reason

/-- The dotted path of a field of the node at `path`. -/
def joinPath (path field : String) : String :=
  if path.isEmpty then field else path ++ "." ++ field

end Ingest.Schema
