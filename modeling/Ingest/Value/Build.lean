import Ingest.Value.Equality

/-!
Building maps from pairs of arbitrary values.

Only scalars can be map keys: building a map from pairs refuses the first pair whose key is a
list or a map, naming its kind.

A host dictionary can be the source of a map too. It is built first, and it refuses a key that
holds a map anywhere, since a map has no hash; a list of hashable items is a fine dictionary key.
Its keys fall together by loose equality (the first key and position stay, the last value wins),
and the map is then built from its entries, which refuses a remaining list key.

A `Draft` describes a value as a host program spells it, maps as pairs of drafts. A map inside
a draft is built pair by pair: the key, then the value, and then the key is checked, before the
next pair is built; a list builds its items in order. The pairs given for a map itself are all
built first (`Draft.buildPairs`), and only then are their keys checked.
-/

namespace Ingest.Value

/-- Why a map cannot be built from pairs. -/
inductive KeyFault where
  /-- A key of a kind that a map cannot hold. -/
  | notScalar (kind : Kind)
  /-- A key that a host dictionary cannot hash. -/
  | unhashable

/-- The message of a key fault. -/
def KeyFault.message : KeyFault → String
  | .notScalar k => "unhashable map key kind: " ++ k.name
  | .unhashable => "unhashable type: 'RelaxedMap'"

/-- The entries of a map from pairs, or the kind of the first key that is not a scalar. -/
def entriesOfPairs (pairs : List (Value × Value)) : Except KeyFault (List (Scalar × Value)) :=
  (pairs.mapM keyed).map Entries.ofPairs
where
  /-- A pair whose key is a scalar. -/
  keyed (p : Value × Value) : Except KeyFault (Scalar × Value) :=
    match p.1 with
    | .scalar s => .ok (s, p.2)
    | other => .error (.notScalar other.kind)

/-- Whether a value holds a map anywhere. -/
def hasMap : Value → Bool
  | .scalar _ => false
  | .list xs => hasMapItems xs
  | .map _ => true
where
  /-- Whether some item holds a map. -/
  hasMapItems : List Value → Bool
    | [] => false
    | x :: xs => hasMap x || hasMapItems xs

/-- Puts a pair into host dictionary entries, whose keys fall together by loose equality. -/
def hostPut : List (Value × Value) → Value → Value → List (Value × Value)
  | [], k, v => [(k, v)]
  | (k', v') :: rest, k, v => if k'.looseEq k then (k', v) :: rest else (k', v') :: hostPut rest k v

/-- The entries of a host dictionary built from pairs, or a refusal of an unhashable key. -/
def hostEntries (pairs : List (Value × Value)) : Except KeyFault (List (Value × Value)) :=
  if pairs.any (fun p => p.1.hasMap) then .error .unhashable
  else .ok (pairs.foldl (fun acc p => hostPut acc p.1 p.2) [])

/-- The map built from pairs. -/
def mapOfPairs (pairs : List (Value × Value)) : Except KeyFault Value :=
  (entriesOfPairs pairs).map Value.map

/-- The map built from a host dictionary of the pairs. -/
def mapOfHostPairs (pairs : List (Value × Value)) : Except KeyFault Value := do
  let entries ← hostEntries pairs
  mapOfPairs entries

/-- A value as a host program describes it: a scalar, a list of drafts, or a map given by pairs
of drafts whose keys need not be scalars. -/
inductive Draft where
  | scalar (s : Scalar)
  | list (items : List Draft)
  | map (pairs : List (Draft × Draft))

mutual

/-- The value of a draft, or the refusal of the first key, in the order of building, that is not
a scalar. -/
def Draft.build : Draft → Except KeyFault Value
  | .scalar s => .ok (.scalar s)
  | .list items => (Draft.buildItems items).map Value.list
  | .map pairs => (Draft.buildEntries pairs).map fun es => Value.map (Entries.ofPairs es)

/-- The values of drafts, in order. -/
def Draft.buildItems : List Draft → Except KeyFault (List Value)
  | [] => .ok []
  | x :: xs => do
    let v ← x.build
    let vs ← Draft.buildItems xs
    pure (v :: vs)

/-- The entries of pairs of drafts, pair by pair: a key and its value are built and the key is
checked before the next pair. -/
def Draft.buildEntries : List (Draft × Draft) → Except KeyFault (List (Scalar × Value))
  | [] => .ok []
  | (k, v) :: rest => do
    let k ← k.build
    let v ← v.build
    let e ← entriesOfPairs.keyed (k, v)
    let es ← Draft.buildEntries rest
    pure (e :: es)

end

/-- The pairs of values of pairs of drafts, in order, the key of a pair before its value. -/
def Draft.buildPairs : List (Draft × Draft) → Except KeyFault (List (Value × Value))
  | [] => .ok []
  | (k, v) :: rest => do
    let k ← k.build
    let v ← v.build
    let r ← Draft.buildPairs rest
    pure ((k, v) :: r)

end Ingest.Value
