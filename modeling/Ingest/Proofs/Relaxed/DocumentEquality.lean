import Mathlib
import Ingest.Proofs.Relaxed.Lookup
import Ingest.Proofs.Value.Comparison

/-!
Contract: two documents that read are equal exactly when they are equal as a host program
compares them: empty with empty, and values by `Value.Equal`, keys by slot and values loosely.

Owns: that every value reading builds holds one entry per slot in each of its maps, at every
depth (`ParseTree.build_keyed`, `read_keyed`), and from it equality of the documents read
(`read_documentEq_iff`).

Does not own: the relation itself and its decision on such trees; those are `Value.Comparison`.
-/

namespace Ingest.Relaxed

namespace ParseTree

variable {coerce : Bool}

mutual

/-- **Every value a parse tree builds holds one entry per slot in each of its maps**, and every
key shares its own slot. -/
theorem build_keyed (p : ParseTree coerce) : p.build.Keyed := by
  cases p with
  | scalar s => exact .scalar s
  | list items =>
    rw [build, buildItems_eq]
    refine .list fun x member => ?_
    obtain ⟨item, listed, rfl⟩ := List.mem_map.mp member
    exact items_keyed items item listed
  | object members =>
    rw [build_object]
    have own : ∀ p ∈ members.map entry, p.1.sameSlot p.1 = true := by
      intro p listed
      obtain ⟨m, -, rfl⟩ := List.mem_map.mp listed
      exact m.keyReads.sameSlot_self
    -- the entries are pairs of members, one per slot
    obtain ⟨pairs, apart⟩ := Entries.ofPairs_keyed own
    refine .map (fun e member => own e (pairs e member)) apart fun e member => ?_
    obtain ⟨m, listed, rfl⟩ := List.mem_map.mp (pairs e member)
    exact members_keyed members m listed

theorem items_keyed (items : List (ParseTree coerce)) : ∀ item ∈ items, item.build.Keyed := by
  cases items with
  | nil => exact fun _ absent => by cases absent
  | cons item rest => exact List.forall_mem_cons.mpr ⟨build_keyed item, items_keyed rest⟩

theorem members_keyed (members : List (Member coerce (ParseTree coerce))) :
    ∀ m ∈ members, m.value.build.Keyed := by
  cases members with
  | nil => exact fun _ absent => by cases absent
  | cons m rest => exact List.forall_mem_cons.mpr ⟨build_keyed m.value, members_keyed rest⟩

end

end ParseTree

/-- Every value reading builds holds one entry per slot in each of its maps. -/
theorem read_keyed {o : Options} {text : String} {v : Value} (readOk : read o text = .ok (some v)) :
    v.Keyed := by
  rw [read_eq_readTree] at readOk
  cases parsed : readTree o text with
  | error e =>
    rw [parsed] at readOk
    cases readOk
  | ok tree? =>
    rw [parsed] at readOk
    cases tree? with
    | none => cases readOk
    | some tree =>
      rw [← Option.some.inj (Except.ok.inj readOk)]
      exact tree.build_keyed

/-- **Documents read are equal exactly when they are equal as a host program compares them.**
Under any options, of two texts that read, the documents are equal when both are empty, or both
are values equal as `Value.Equal` says: scalars as numbers, texts and null compare, lists item by
item, and maps by the same slots of their keys, keys of different kinds lying in different slots,
with equal values in each slot, whatever the order of the entries. An empty document equals no
value, and a scalar, a list and a map never equal one another. -/
theorem read_documentEq_iff {o₁ o₂ : Options} {t₁ t₂ : String} {d₁ d₂ : Option Value}
    (read₁ : read o₁ t₁ = .ok d₁) (read₂ : read o₂ t₂ = .ok d₂) :
    Value.documentEq d₁ d₂ = true ↔
      (d₁ = none ∧ d₂ = none) ∨ ∃ a b, d₁ = some a ∧ d₂ = some b ∧ a.Equal b := by
  cases d₁ with
  | none =>
    cases d₂ with
    | none => simp [Value.documentEq]
    | some b => simp [Value.documentEq]
  | some a =>
    cases d₂ with
    | none => simp [Value.documentEq]
    | some b =>
      rw [Value.documentEq, Value.looseEq_iff_equal (read_keyed read₁) (read_keyed read₂)]
      simp

/-- A map of a number and a list, and the same map with its entries the other way round, its
keys quoted, and its numbers spelled as a boolean and a float. -/
def ordered : String := "\x7ba: 1, b: [2, 'x']\x7d"

def reordered : String := "\x7b\"b\": [2.0, \"x\"], \"a\": true\x7d"

theorem read_documentEq_iff_reordered :
    ∃ d₁ d₂, read .relaxed ordered = .ok d₁ ∧ read .relaxed reordered = .ok d₂ ∧
      (Value.documentEq d₁ d₂ = true ↔
        (d₁ = none ∧ d₂ = none) ∨ ∃ a b, d₁ = some a ∧ d₂ = some b ∧ a.Equal b) := by
  have reads₁ : (read .relaxed ordered).isOk = true := by decide +kernel
  have reads₂ : (read .relaxed reordered).isOk = true := by decide +kernel
  cases read₁ : read .relaxed ordered with
  | error e =>
    rw [read₁] at reads₁
    cases reads₁
  | ok d₁ =>
    cases read₂ : read .relaxed reordered with
    | error e =>
      rw [read₂] at reads₂
      cases reads₂
    | ok d₂ => exact ⟨d₁, d₂, rfl, rfl, read_documentEq_iff read₁ read₂⟩

/-- The two documents are equal: `1` equals `true` and `2` equals `2.0`. -/
example : Value.documentEq (read .relaxed ordered).toOption.join
    (read .relaxed reordered).toOption.join = true := by
  decide +kernel

/-- Keys are compared by kind: `1` and `true` are equal values but different keys. -/
example : Value.documentEq (read { coerceKeys := true } "\x7b1: 'x'\x7d").toOption.join
    (read { coerceKeys := true } "\x7btrue: 'x'\x7d").toOption.join = false := by
  decide +kernel

end Ingest.Relaxed
