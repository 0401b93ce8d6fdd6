import Ingest.Schema.Error

/-!
Column references and the parts of a load schema.

A column is referred to by its 0-based position or by its name in the header row, never both:
the `Selector` says which. Picking a column from a row gives its text with a configured prefix
removed, or nothing when the row is too short or the header lacks the name. A negative position
counts from the end of the row; one that reaches past its start is out of range, and one below
the least signed 64-bit word cannot index a row at all.

A `Source` is a fixed text or a column. A mapping gives the key, the set and the bins of a
record; a compiled schema is the text settings of the tokenizer and the mappings in order.
-/

namespace Ingest.Schema

/-- How a column is found: by 0-based position or by header name. -/
inductive Selector where
  | position (index : Int)
  | name (text : Text.Str)
deriving DecidableEq, Repr

/-- A reference to one column of a row, with what a converter downstream needs to know. -/
structure ColumnRef where
  selector : Selector
  srcType : Option Text.Str := none
  dstType : Option Text.Str := none
  encoding : Option Text.Str := none
  removePrefix : Option Text.Str := none
deriving DecidableEq, Repr

/-- Why a negative position cannot pick a column of a row. -/
inductive IndexFault where
  /-- The position reaches past the start of the row. -/
  | outOfRange
  /-- The position is below the least signed 64-bit word, so it cannot index a row at all. -/
  | notIndexSized
deriving DecidableEq, Repr

/-- The message of an index fault. -/
def IndexFault.message : IndexFault → String
  | .outOfRange => "list index out of range"
  | .notIndexSized => "cannot fit 'int' into an index-sized integer"

namespace ColumnRef

/-- A reference from an optional position and an optional name, exactly one of which must be
given; the fault's fragment shows both. -/
def ofParts (position : Option Int) (name : Option Text.Str) (srcType dstType encoding
    removePrefix : Option Text.Str) : Except SchemaError ColumnRef :=
  let extra (s : Selector) : ColumnRef := ⟨s, srcType, dstType, encoding, removePrefix⟩
  match position, name with
  | some p, none => .ok (extra (.position p))
  | none, some n => .ok (extra (.name n))
  | _, _ =>
    let shown (o : Option Value) : Value := o.getD Value.null
    .error { fault := .selectorNotUnique
             fragment := .map [(.str "position", shown (position.map fun p => .scalar (.int p))),
                               (.str "name", shown (name.map fun n => .scalar (.str n)))] }

theorem ofParts_position (p : Int) (srcType dstType encoding removePrefix : Option Text.Str) :
    ofParts (some p) none srcType dstType encoding removePrefix =
      .ok ⟨.position p, srcType, dstType, encoding, removePrefix⟩ := rfl

theorem ofParts_name (n : Text.Str) (srcType dstType encoding removePrefix : Option Text.Str) :
    ofParts none (some n) srcType dstType encoding removePrefix =
      .ok ⟨.name n, srcType, dstType, encoding, removePrefix⟩ := rfl

/-- The 0-based index of the column: its position, or the first place of its name in the
header. -/
def indexIn (c : ColumnRef) (header : Option (List String)) : Option Int :=
  match c.selector with
  | .position i => some i
  | .name n => header.bind fun h => ((h.map Text.Str.ofString).idxOf? n).map Int.ofNat

/-- A text with the configured prefix removed, when the prefix is not empty and the text
starts with it. -/
def stripPrefix (c : ColumnRef) (raw : Text.Str) : Text.Str :=
  match c.removePrefix with
  | some p => if !p.points.isEmpty ∧ p.points.isPrefixOf raw.points then
      ⟨raw.points.drop p.length⟩ else raw
  | none => raw

/-- The text of the column in a row, prefix removed, or `none` when it is absent. -/
def pick (c : ColumnRef) (columns : List String) (header : Option (List String)) :
    Except IndexFault (Option Text.Str) :=
  let text (s : String) : Text.Str := c.stripPrefix (Text.Str.ofString s)
  match c.indexIn header with
  | none => .ok none
  | some i =>
    if (columns.length : Int) ≤ i then .ok none
    else if 0 ≤ i then .ok ((columns[i.toNat]?).map text)
    else if i < -Int.pow 2 63 then .error .notIndexSized
    else if (columns.length : Int) + i < 0 then .error .outOfRange
    else .ok ((columns[(columns.length + i).toNat]?).map text)

end ColumnRef

/-- Where a text of a record comes from: a fixed text or a column. -/
inductive Source where
  | fixed (text : Text.Str)
  | column (ref : ColumnRef)
deriving DecidableEq, Repr

namespace Source

/-- The column type of a source taken from a column. -/
def srcType : Source → Option Text.Str
  | .fixed _ => none
  | .column c => c.srcType

/-- The text of a source for a row. -/
def resolve (s : Source) (columns : List String) (header : Option (List String)) :
    Except IndexFault (Option Text.Str) :=
  match s with
  | .fixed t => .ok (some t)
  | .column c => c.pick columns header

end Source

/-- A destination bin: its name and its value. -/
structure Bin where
  name : Source
  value : Source
deriving DecidableEq, Repr

/-- A mapping from a row to a record: key, set and bins. -/
structure Mapping where
  secondary : Bool
  key : Source
  set : Source
  bins : List Bin
deriving DecidableEq, Repr

/-- A compiled load schema: the tokenizer settings as texts, in order, and the mappings. -/
structure Compiled where
  settings : List (String × Text.Str)
  mappings : List Mapping
deriving DecidableEq, Repr

namespace Compiled

/-- The index of the first mapping that is not secondary. -/
def primaryIndex? (s : Compiled) : Option Nat :=
  s.mappings.findIdx? fun m => !m.secondary

/-- The indices of the secondary mappings. -/
def secondaryIndices (s : Compiled) : List Nat :=
  ((List.range s.mappings.length).zip s.mappings).filterMap fun (i, m) =>
    if m.secondary then some i else none

end Compiled

end Ingest.Schema
