import Ingest.Schema.Column

/-!
Contract: picking a column of a row refuses exactly the indices that reach before the row's
start, and otherwise gives the addressed column with its prefix taken off, or nothing.

Owns: how an index addresses a place of a sequence (`Addresses`: from the start when it is 0 or
more, from the end when it is negative); what taking a prefix off once means (`PrefixRemoved`);
one lemma for each way picking can end (`ColumnRef.pick_of_past` and the others); and from
them the exact outcome of picking, for every reference, row and header
(`ColumnRef.pick_outcome`), which the fixed and column sources of a record inherit.

Does not own: which references a compiled schema holds; those are `Schema.WellFormed`.
-/

namespace Ingest.Schema

open Ingest.Text

/-- Whether index `i` picks place `k` of a sequence of `n` items, as a host sequence is indexed:
an index from 0 counts from the start, a negative one from the end. -/
def Addresses (n : Nat) (i : Int) (k : Nat) : Prop :=
  k < n ∧ (i = k ∨ i = k - n)

/-- `s` is `raw` with the prefix `p?` taken off once when it is a non-empty prefix of `raw`, and
`raw` itself otherwise. -/
def PrefixRemoved (p? : Option Str) (raw s : Str) : Prop :=
  (∃ p, p? = some p ∧ p.points ≠ [] ∧ raw.points = p.points ++ s.points) ∨
    ((∀ p, p? = some p → p.points = [] ∨ ¬p.points <+: raw.points) ∧ s = raw)

namespace ColumnRef

variable (c : ColumnRef) (columns : List String) (header : Option (List String))

theorem stripPrefix_removes (raw : Str) : PrefixRemoved c.removePrefix raw (c.stripPrefix raw) := by
  cases given : c.removePrefix with
  | none =>
    simp only [stripPrefix, given]
    exact .inr ⟨fun p absent => (by cases absent), rfl⟩
  | some p =>
    simp only [stripPrefix, given]
    by_cases strips : !p.points.isEmpty ∧ p.points.isPrefixOf raw.points
    · rw [if_pos strips]
      obtain ⟨nonempty, isPrefix⟩ := strips
      obtain ⟨rest, split⟩ := List.isPrefixOf_iff_prefix.mp isPrefix
      refine .inl ⟨p, rfl, by simpa using nonempty, ?_⟩
      simp [← split, Str.length]
    · rw [if_neg strips]
      refine .inr ⟨fun q same => ?_, rfl⟩
      cases same
      by_cases empty : p.points = []
      · exact .inl empty
      · refine .inr fun isPrefix => strips ⟨by simpa using empty, List.isPrefixOf_iff_prefix.mpr isPrefix⟩

theorem prefixRemoved_unique {p? : Option Str} {raw s t : Str} (one : PrefixRemoved p? raw s)
    (other : PrefixRemoved p? raw t) : s = t := by
  rcases one with ⟨p, given, nonempty, split⟩ | ⟨kept, rfl⟩ <;>
    rcases other with ⟨q, given', nonempty', split'⟩ | ⟨kept', rfl⟩
  · rw [given] at given'
    cases given'
    rw [split] at split'
    cases s
    cases t
    simpa using split'
  · rcases kept' p given with empty | notPrefix
    · exact absurd empty nonempty
    · exact absurd ⟨_, split.symm⟩ notPrefix
  · rcases kept q given' with empty | notPrefix
    · exact absurd empty nonempty'
    · exact absurd ⟨_, split'.symm⟩ notPrefix
  · rfl

theorem pow63_pos : (0 : Int) < Int.pow 2 63 := by decide

/-- An index of a sequence lies past its end, reaches before its start or below the least
signed 64-bit word, or addresses one of its places. -/
theorem index_cases (n : Nat) (i : Int) :
    (n : Int) ≤ i ∨ (i < -(n : Int) ∨ i < -Int.pow 2 63) ∨
      (-Int.pow 2 63 ≤ i ∧ ∃ k, Addresses n i k) := by
  by_cases past : (n : Int) ≤ i
  · exact .inl past
  by_cases before : i < -(n : Int) ∨ i < -Int.pow 2 63
  · exact .inr (.inl before)
  refine .inr (.inr ⟨by omega, ?_⟩)
  by_cases ahead : 0 ≤ i
  · exact ⟨i.toNat, by omega, .inl (by omega)⟩
  · exact ⟨(n + i).toNat, by omega, .inr (by omega)⟩

theorem not_addresses_of_past {n k : Nat} {i : Int} (past : (n : Int) ≤ i) : ¬Addresses n i k := by
  unfold Addresses
  omega

theorem not_addresses_of_before {n k : Nat} {i : Int} (before : i < -(n : Int)) :
    ¬Addresses n i k := by
  unfold Addresses
  omega

/-- An index addresses at most one place. -/
theorem addresses_unique {n k k' : Nat} {i : Int} (one : Addresses n i k) (other : Addresses n i k') :
    k = k' := by
  unfold Addresses at one other
  omega

variable {c columns header} {i : Int}

theorem pick_of_indexIn_none (found : c.indexIn header = none) :
    c.pick columns header = .ok none := by
  unfold pick
  rw [found]

theorem pick_of_past (found : c.indexIn header = some i) (past : (columns.length : Int) ≤ i) :
    c.pick columns header = .ok none := by
  unfold pick
  rw [found]
  dsimp only
  rw [if_pos past]

theorem pick_of_addresses {k : Nat} (found : c.indexIn header = some i)
    (addressed : Addresses columns.length i k) (sized : -Int.pow 2 63 ≤ i) :
    c.pick columns header =
      .ok ((columns[k]?).map fun raw => c.stripPrefix (Str.ofString raw)) := by
  obtain ⟨within, ahead | behind⟩ := addressed
  · unfold pick
    rw [found]
    dsimp only
    rw [if_neg (by omega), if_pos (by omega), ahead, Int.toNat_natCast]
  · unfold pick
    rw [found]
    dsimp only
    rw [if_neg (by omega), if_neg (by omega), if_neg (Int.not_lt.mpr sized), if_neg (by omega),
      behind, show ((columns.length : Int) + (k - columns.length)).toNat = k by omega]

theorem pick_of_before (found : c.indexIn header = some i)
    (before : i < -(columns.length : Int) ∨ i < -Int.pow 2 63) :
    c.pick columns header =
      .error (if i < -Int.pow 2 63 then .notIndexSized else .outOfRange) := by
  have negative : ¬0 ≤ i := by
    have := pow63_pos
    omega
  unfold pick
  rw [found]
  dsimp only
  rw [if_neg (by omega), if_neg negative]
  by_cases tiny : i < -Int.pow 2 63
  · rw [if_pos tiny, if_pos tiny]
  · rw [if_neg tiny, if_neg tiny, if_pos (by omega)]

theorem pick_eq_error_iff (f : IndexFault) :
    c.pick columns header = .error f ↔ ∃ i, c.indexIn header = some i ∧
      (i < -(columns.length : Int) ∨ i < -Int.pow 2 63) ∧
      f = if i < -Int.pow 2 63 then .notIndexSized else .outOfRange := by
  cases found : c.indexIn header with
  | none => simp [pick_of_indexIn_none found]
  | some i =>
    rcases index_cases columns.length i with past | before | ⟨sized, k, addressed⟩
    · simp only [pick_of_past found past, reduceCtorEq, false_iff, not_exists, not_and]
      intro j same
      cases same
      have := pow63_pos
      omega
    · rw [pick_of_before found before, Except.error.injEq]
      constructor
      · rintro rfl
        exact ⟨i, rfl, before, rfl⟩
      · rintro ⟨j, same, -, rfl⟩
        cases same
        rfl
    · rw [pick_of_addresses found addressed sized]
      simp only [reduceCtorEq, Option.some.injEq, false_iff, not_exists, not_and]
      rintro j rfl (before | tiny)
      · exact absurd addressed (not_addresses_of_before before)
      · omega

theorem pick_eq_none_iff :
    c.pick columns header = .ok none ↔
      c.indexIn header = none ∨ ∃ i, c.indexIn header = some i ∧ (columns.length : Int) ≤ i := by
  cases found : c.indexIn header with
  | none => simp [pick_of_indexIn_none found]
  | some i =>
    rcases index_cases columns.length i with past | before | ⟨sized, k, addressed⟩
    · simp [pick_of_past found past, past]
    · rw [pick_of_before found before]
      simp only [reduceCtorEq, Option.some.injEq, false_iff, not_or, not_exists, not_and]
      refine ⟨nofun, ?_⟩
      rintro j rfl past
      have := pow63_pos
      omega
    · rw [pick_of_addresses found addressed sized, Except.ok.injEq, Option.map_eq_none_iff,
        List.getElem?_eq_none_iff]
      simp only [reduceCtorEq, Option.some.injEq, false_or, exists_eq_left']
      exact ⟨fun short => absurd addressed.1 (by omega),
        fun past => absurd addressed (not_addresses_of_past past)⟩

theorem pick_eq_some_iff (s : Str) :
    c.pick columns header = .ok (some s) ↔
      ∃ i k raw, c.indexIn header = some i ∧ -Int.pow 2 63 ≤ i ∧ Addresses columns.length i k ∧
        columns[k]? = some raw ∧ PrefixRemoved c.removePrefix (Str.ofString raw) s := by
  cases found : c.indexIn header with
  | none => simp [pick_of_indexIn_none found]
  | some i =>
    rcases index_cases columns.length i with past | before | ⟨sized, k, addressed⟩
    · simp only [pick_of_past found past, Except.ok.injEq, reduceCtorEq, false_iff, not_exists,
        not_and, Option.some.injEq]
      rintro j k raw rfl - addressed
      exact absurd addressed (not_addresses_of_past past)
    · simp only [pick_of_before found before, reduceCtorEq, false_iff, not_exists, not_and,
        Option.some.injEq]
      rintro j k raw rfl sized addressed
      rcases before with before | tiny
      · exact absurd addressed (not_addresses_of_before before)
      · omega
    · rw [pick_of_addresses found addressed sized]
      have within := addressed.1
      obtain ⟨raw, listed⟩ : ∃ raw, columns[k]? = some raw :=
        ⟨columns[k], List.getElem?_eq_getElem within⟩
      rw [listed, Option.map_some, Except.ok.injEq, Option.some.injEq]
      constructor
      · rintro rfl
        exact ⟨i, k, raw, rfl, sized, addressed, listed, stripPrefix_removes c _⟩
      · rintro ⟨j, k', raw', same, -, addressed', listed', removed⟩
        cases same
        obtain rfl := addresses_unique addressed addressed'
        rw [listed] at listed'
        cases listed'
        exact prefixRemoved_unique (stripPrefix_removes c _) removed

/-- **Picking a column.** For every reference, row and header: picking fails exactly when the
index reaches before the start of the row, or lies below the least signed 64-bit word, which
cannot index a row at all, and it names which of the two. Otherwise it gives nothing exactly
when the reference has no index (a name the header lacks, or no header) or the index lies past
the end of the row, and it gives the column the index addresses, counting a negative index from
the end, with the configured prefix taken off once when it is a non-empty prefix of it. A fixed
source gives its text, and a column source gives what its reference picks. -/
theorem pick_outcome (c : ColumnRef) (columns : List String) (header : Option (List String)) :
    (∀ f, c.pick columns header = .error f ↔ ∃ i, c.indexIn header = some i ∧
        (i < -(columns.length : Int) ∨ i < -Int.pow 2 63) ∧
        f = if i < -Int.pow 2 63 then .notIndexSized else .outOfRange) ∧
      (c.pick columns header = .ok none ↔
        c.indexIn header = none ∨ ∃ i, c.indexIn header = some i ∧ (columns.length : Int) ≤ i) ∧
      (∀ s, c.pick columns header = .ok (some s) ↔
        ∃ i k raw, c.indexIn header = some i ∧ -Int.pow 2 63 ≤ i ∧
          Addresses columns.length i k ∧ columns[k]? = some raw ∧
          PrefixRemoved c.removePrefix (Str.ofString raw) s) ∧
      (∀ t, (Source.fixed t).resolve columns header = .ok (some t)) ∧
      (Source.column c).resolve columns header = c.pick columns header :=
  ⟨pick_eq_error_iff, pick_eq_none_iff, pick_eq_some_iff, fun _ => rfl, rfl⟩

/-- A reference to the third column from the end of a row of two. -/
def thirdFromEnd : ColumnRef := ⟨.position (-3), none, none, none, none⟩

/-- Picking the third column from the end of a row of two fails: the index reaches before the
start of the row. -/
theorem pick_thirdFromEnd : thirdFromEnd.pick ["a", "b"] none = .error .outOfRange := rfl

end ColumnRef

end Ingest.Schema
