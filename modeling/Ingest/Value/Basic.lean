import Ingest.Number.Binary64
import Ingest.Text.Point

/-!
Values of relaxed documents.

A document is a tree: scalars (null, booleans, integers, floating point numbers, texts) at the
leaves, lists and maps inside. A text is a string of code points (`Text.Str`), since a document
can spell a lone surrogate. Map keys are scalars only, so a key can never be a list or a map;
a map keeps its entries in the order the document declares them.

Every value has a `Kind`. Integers have two kinds by size: those that fit in 32 signed bits and
the others, which the document format calls 64-bit whatever their size.

A map holds at most one entry per slot (`Scalar.sameSlot`). Putting a key whose slot is taken
replaces that entry in place: the entry keeps its position and takes the new key and the new
value. A key whose slot is free is appended. Building a map from pairs puts them one by one, so
a map reads like its pairs with the later of two same-slot pairs moved to the earlier's place.
Looking up a key of any kind finds the value in its slot; a list or a map is in no slot.
-/

namespace Ingest

/-- A leaf of a value tree, and the only thing that can be a map key. -/
inductive Scalar where
  | null
  | bool (b : Bool)
  | int (n : Int)
  | float (x : Binary64)
  | str (s : Text.Str)
deriving DecidableEq, Inhabited

/-- A value tree: a scalar, a list of values, or a map from scalar keys to values with its
entries in order. -/
inductive Value where
  | scalar (s : Scalar)
  | list (items : List Value)
  | map (entries : List (Scalar × Value))
deriving Inhabited

/-- The kinds of values. -/
inductive Kind where
  | null
  | bool
  | int32
  | int64
  | float
  | string
  | list
  | map
deriving DecidableEq, Repr

/-- The name of a kind, as messages spell it. -/
def Kind.name : Kind → String
  | .null => "null"
  | .bool => "bool"
  | .int32 => "int32"
  | .int64 => "int64"
  | .float => "float"
  | .string => "string"
  | .list => "list"
  | .map => "map"

/-- Whether an integer fits in 32 signed bits. -/
def fitsInt32 (n : Int) : Bool :=
  -2147483648 ≤ n && n ≤ 2147483647

namespace Scalar

/-- The kind of a scalar. -/
def kind : Scalar → Kind
  | .null => .null
  | .bool _ => .bool
  | .int n => if fitsInt32 n then .int32 else .int64
  | .float _ => .float
  | .str _ => .string

/-- Whether two keys occupy the same place of a map: same kind, integers of both sizes
counting as one kind, and equal values, `0.0` and `-0.0` counting as equal. So `1`, `true` and
`1.0` are three different keys. -/
def sameSlot : Scalar → Scalar → Bool
  | .null, .null => true
  | .bool a, .bool b => a == b
  | .int a, .int b => a == b
  | .float a, .float b => a.sameValue b
  | .str a, .str b => a == b
  | _, _ => false

/-- The numeric value of a boolean or an integer. -/
def asInt? : Scalar → Option Int
  | .bool b => some (if b then 1 else 0)
  | .int n => some n
  | _ => none

/-- Loose equality of scalars: null equals null, texts compare as texts, and booleans,
integers and floating point numbers compare as numbers, so `true`, `1` and `1.0` are equal. -/
def looseEq : Scalar → Scalar → Bool
  | .null, .null => true
  | .str a, .str b => a == b
  | .float a, .float b => a.sameValue b
  | .float a, b => match b.asInt? with
    | some n => a.eqInt n
    | none => false
  | a, .float b => match a.asInt? with
    | some n => b.eqInt n
    | none => false
  | a, b => match a.asInt?, b.asInt? with
    | some m, some n => m == n
    | _, _ => false

end Scalar

namespace Value

/-- The null value. -/
def null : Value := .scalar .null

/-- The kind of a value. -/
def kind : Value → Kind
  | .scalar s => s.kind
  | .list _ => .list
  | .map _ => .map

/-- The number of items of a list or entries of a map. -/
def size? : Value → Option Nat
  | .list items => some items.length
  | .map entries => some entries.length
  | .scalar _ => none

end Value

namespace Entries

/-- Puts one key and value into a list of entries. -/
def put : List (Scalar × Value) → Scalar → Value → List (Scalar × Value)
  | [], k, v => [(k, v)]
  | (k', v') :: rest, k, v => if k'.sameSlot k then (k, v) :: rest else (k', v') :: put rest k v

/-- The entries of a map built from pairs in order. -/
def ofPairs (pairs : List (Scalar × Value)) : List (Scalar × Value) :=
  pairs.foldl (fun acc p => put acc p.1 p.2) []

/-- The value in the slot of a key. -/
def get? (entries : List (Scalar × Value)) (k : Scalar) : Option Value :=
  (entries.find? fun e => e.1.sameSlot k).map Prod.snd

/-- The value in the slot of a key of any kind. A list or a map is in no slot, so looking one up
finds nothing, as a missing key does. -/
def lookup (entries : List (Scalar × Value)) : Value → Option Value
  | .scalar k => get? entries k
  | _ => none

end Entries

end Ingest
