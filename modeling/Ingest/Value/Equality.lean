import Ingest.Value.Basic

/-!
Loose equality of value trees, and value trees as a host program holds them.

Scalars compare loosely (`Scalar.looseEq`). Lists are equal when they have the same length and
equal items in order. Maps are equal when they have the same number of entries and every entry
of the first has an entry in the same slot of the second with an equal value; the order of the
entries does not count. A list never equals a map or a scalar.

A host program holds a tree in its own dictionaries, which tell keys apart by loose equality
only, so keys that differ only in kind fall together: `1`, `true` and `1.0` are one key. When
two keys fall together, the entry keeps the first key and its position and takes the later
value. `plain` turns every map of a tree into such a dictionary; lists and scalars stay as they
are.
-/

namespace Ingest.Value

mutual

/-- Loose equality of value trees. -/
def looseEq : Value → Value → Bool
  | .scalar a, .scalar b => a.looseEq b
  | .list xs, .list ys => looseEqItems xs ys
  | .map es, .map fs => es.length == fs.length && looseEqEntries es fs
  | _, _ => false

/-- Loose equality of two lists of items, position by position. -/
def looseEqItems : List Value → List Value → Bool
  | [], [] => true
  | x :: xs, y :: ys => looseEq x y && looseEqItems xs ys
  | _, _ => false

/-- Whether every entry of the first list has an equal value in its slot of the second. -/
def looseEqEntries : List (Scalar × Value) → List (Scalar × Value) → Bool
  | [], _ => true
  | (k, v) :: es, fs =>
    (match Entries.get? fs k with
      | some w => looseEq v w
      | none => false) && looseEqEntries es fs

end

/-- Equality of documents: two empty documents are equal, an empty document equals no value,
and two values are equal when they are loosely equal. -/
def documentEq : Option Value → Option Value → Bool
  | some a, some b => looseEq a b
  | none, none => true
  | _, _ => false

/-- Whether a value tree holds a list anywhere. -/
def hasList : Value → Bool
  | .scalar _ => false
  | .list _ => true
  | .map es => hasListEntries es
where
  /-- Whether the value of some entry holds a list. -/
  hasListEntries : List (Scalar × Value) → Bool
    | [] => false
    | (_, v) :: es => hasList v || hasListEntries es

/-- Equality of a document with a value built by a host program, whose arrays are either
read-only sequences like the document's lists (`arraysAreSequences`) or mutable lists, which
never equal a document's list. -/
def equalsHost (doc host : Value) (arraysAreSequences : Bool) : Bool :=
  looseEq doc host && (arraysAreSequences || !host.hasList)

/-- Puts a key and value into dictionary entries that tell keys apart by loose equality. -/
def plainPut : List (Scalar × Value) → Scalar → Value → List (Scalar × Value)
  | [], k, v => [(k, v)]
  | (k', v') :: rest, k, v =>
    if k'.looseEq k then (k', v) :: rest else (k', v') :: plainPut rest k v

mutual

/-- A value tree with every map collapsed into a host dictionary. -/
def plain : Value → Value
  | .scalar s => .scalar s
  | .list xs => .list (plainItems xs)
  | .map es => .map (plainEntries [] es)

/-- Every item of a list, made plain. -/
def plainItems : List Value → List Value
  | [] => []
  | x :: xs => plain x :: plainItems xs

/-- Dictionary entries `acc` with the plain entries of a map put after them, one by one. -/
def plainEntries (acc : List (Scalar × Value)) : List (Scalar × Value) → List (Scalar × Value)
  | [] => acc
  | (k, v) :: es => plainEntries (plainPut acc k (plain v)) es

end

end Ingest.Value
