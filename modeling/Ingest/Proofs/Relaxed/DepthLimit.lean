import Ingest.Proofs.Relaxed.TreeSteps
import Ingest.Proofs.Relaxed.Sugar

/-!
Contract: the nesting limit of the reader is exact.

Owns: that `ParseTree.firstDeep` finds a value too deep exactly when the tree is nested deeper
than the limit (`firstDeep_eq_none_iff`), and points inside the tree (`firstDeep_lt_width`); the
same reader with another limit (`Reader.limited`); how a failure inside a list, an object or the
document fails the whole; the simulation of the two readers (`Reader.Limits`): where a reader
reads a tree, the same reader with limit `m` reads its value when no value lies under more than
`m` containers, and otherwise fails at the first lexeme of the first value, in the order of the
text, that does; and from these the reading of a whole text under any limit, compared with its
reading under a limit that lets it through (`read_nestingLimit`).

The limit is checked when a value is about to be read, not when a list or object is entered: an
empty list or object at the limit holds no value and passes, and the document itself is a
value under no container, so a negative limit refuses every document that has a value.

The values counted are those of the text, that is of the parse tree: a member whose key a later
member repeats is dropped from the map built, but it was read, and checked, all the same
(`read_repeatedDeepKey`).

Does not own: the lexemes and the other faults of the reader.
-/

namespace Ingest.Relaxed

open Ingest.Text

/-! ### The first value too deep -/

namespace ParseTree

variable {coerce : Bool} (m : Int)

theorem firstDeep_of_deep {level : Nat} (deep : m < level) (p : ParseTree coerce) :
    p.firstDeep m level = some 0 := by
  rw [firstDeep.eq_def, if_pos deep]

theorem firstDeep_list {level : Nat} (shallow : ¬m < level) (items : List (ParseTree coerce)) :
    (list items).firstDeep m level = (firstDeepItems m (level + 1) items).map (· + 1) := by
  rw [firstDeep, if_neg shallow]

theorem firstDeep_object {level : Nat} (shallow : ¬m < level)
    (members : List (Member coerce (ParseTree coerce))) :
    (object members).firstDeep m level = (firstDeepMembers m (level + 1) members).map (· + 1) := by
  rw [firstDeep, if_neg shallow]

theorem firstDeep_scalar {level : Nat} (shallow : ¬m < level) (s : Scalar) :
    (scalar s : ParseTree coerce).firstDeep m level = none := by
  rw [firstDeep, if_neg shallow]

theorem itemsNesting_le_iff {level : Int} (shallow : level ≤ m) :
    ∀ items : List (ParseTree coerce),
      level + itemsNesting items ≤ m ↔ ∀ item ∈ items, level + 1 + item.nesting ≤ m
  | [] => by simp [itemsNesting, shallow]
  | item :: rest => by
      rw [itemsNesting, List.forall_mem_cons, ← itemsNesting_le_iff shallow rest]
      omega

theorem membersNesting_le_iff {level : Int} (shallow : level ≤ m) :
    ∀ members : List (Member coerce (ParseTree coerce)),
      level + membersNesting members ≤ m ↔ ∀ mem ∈ members, level + 1 + mem.value.nesting ≤ m
  | [] => by simp [membersNesting, shallow]
  | ⟨_, _, value, _⟩ :: rest => by
      rw [membersNesting, List.forall_mem_cons, ← membersNesting_le_iff shallow rest]
      dsimp only
      omega

mutual

/-- **No value is too deep exactly when the tree is nested within the limit.** -/
theorem firstDeep_eq_none_iff : ∀ (level : Nat) (p : ParseTree coerce),
    p.firstDeep m level = none ↔ (level : Int) + p.nesting ≤ m
  | level, p => by
      by_cases deep : m < level
      · rw [firstDeep_of_deep m deep]
        simp only [reduceCtorEq, false_iff, Int.not_le]
        omega
      cases p with
      | scalar s =>
          rw [firstDeep_scalar m deep, nesting]
          simp only [true_iff]
          omega
      | list items =>
          rw [firstDeep_list m deep, Option.map_eq_none_iff, firstDeepItems_eq_none_iff, nesting,
            itemsNesting_le_iff m (by omega)]
          simp only [Nat.cast_add, Nat.cast_one]
      | object members =>
          rw [firstDeep_object m deep, Option.map_eq_none_iff, firstDeepMembers_eq_none_iff,
            nesting, membersNesting_le_iff m (by omega)]
          simp only [Nat.cast_add, Nat.cast_one]

theorem firstDeepItems_eq_none_iff : ∀ (level : Nat) (items : List (ParseTree coerce)),
    firstDeepItems m level items = none ↔ ∀ item ∈ items, (level : Int) + item.nesting ≤ m
  | level, [] => by simp [firstDeepItems]
  | level, item :: rest => by
      rw [firstDeepItems, Option.or_eq_none_iff, firstDeep_eq_none_iff, Option.map_eq_none_iff,
        firstDeepItems_eq_none_iff, List.forall_mem_cons]

theorem firstDeepMembers_eq_none_iff :
    ∀ (level : Nat) (members : List (Member coerce (ParseTree coerce))),
      firstDeepMembers m level members = none ↔
        ∀ mem ∈ members, (level : Int) + mem.value.nesting ≤ m
  | level, [] => by simp [firstDeepMembers]
  | level, ⟨text, key, value, reads⟩ :: rest => by
      rw [firstDeepMembers, Option.or_eq_none_iff, Option.map_eq_none_iff, firstDeep_eq_none_iff,
        Option.map_eq_none_iff, firstDeepMembers_eq_none_iff, List.forall_mem_cons]

end

theorem width_pos (p : ParseTree coerce) : 0 < p.width := by
  cases p with
  | scalar s => exact Nat.one_pos
  | list items => cases items <;> simp [width]
  | object members => cases members <;> simp [width]

mutual

/-- The value found too deep starts at a lexeme of the tree. -/
theorem firstDeep_lt_width : ∀ (level : Nat) (p : ParseTree coerce) (i : Nat),
    p.firstDeep m level = some i → i < p.width
  | level, p, i, found => by
      by_cases deep : m < level
      · rw [firstDeep_of_deep m deep] at found
        cases found
        exact width_pos p
      cases p with
      | scalar s =>
          rw [firstDeep_scalar m deep] at found
          cases found
      | list items =>
          rw [firstDeep_list m deep] at found
          obtain ⟨j, inner, rfl⟩ := Option.map_eq_some_iff.mp found
          have within := firstDeepItems_lt_width (level + 1) items j inner
          cases items with
          | nil => cases inner
          | cons item rest =>
              rw [width_list (List.cons_ne_nil item rest)]
              omega
      | object members =>
          rw [firstDeep_object m deep] at found
          obtain ⟨j, inner, rfl⟩ := Option.map_eq_some_iff.mp found
          have within := firstDeepMembers_lt_width (level + 1) members j inner
          cases members with
          | nil => cases inner
          | cons mem rest =>
              rw [width_object (List.cons_ne_nil mem rest)]
              omega

theorem firstDeepItems_lt_width : ∀ (level : Nat) (items : List (ParseTree coerce)) (i : Nat),
    firstDeepItems m level items = some i → i < itemsWidth items
  | level, [], i, found => by cases found
  | level, item :: rest, i, found => by
      rw [firstDeepItems] at found
      rw [itemsWidth]
      cases head : item.firstDeep m level with
      | some j =>
          rw [head, Option.some_or] at found
          obtain rfl : j = i := Option.some.inj found
          have := firstDeep_lt_width level item j head
          omega
      | none =>
          rw [head, Option.none_or] at found
          obtain ⟨j, inner, rfl⟩ := Option.map_eq_some_iff.mp found
          have := firstDeepItems_lt_width level rest j inner
          omega

theorem firstDeepMembers_lt_width :
    ∀ (level : Nat) (members : List (Member coerce (ParseTree coerce))) (i : Nat),
      firstDeepMembers m level members = some i → i < membersWidth members
  | level, [], i, found => by cases found
  | level, ⟨text, key, value, reads⟩ :: rest, i, found => by
      rw [firstDeepMembers] at found
      rw [membersWidth]
      cases head : value.firstDeep m level with
      | some j =>
          rw [head, Option.map_some, Option.some_or] at found
          obtain rfl : j + 2 = i := Option.some.inj found
          have := firstDeep_lt_width level value j head
          omega
      | none =>
          rw [head, Option.map_none, Option.none_or] at found
          obtain ⟨j, inner, rfl⟩ := Option.map_eq_some_iff.mp found
          have := firstDeepMembers_lt_width level rest j inner
          omega

end

theorem build_list (items : List (ParseTree coerce)) :
    (list items).build = .list (items.map build) := by
  rw [build, buildItems_eq]

theorem items_of_next {acc items rest : List (ParseTree coerce)} {item : ParseTree coerce}
    (same : list (acc.reverse ++ items) = list ((item :: acc).reverse ++ rest)) :
    items = item :: rest := by
  simpa using list.inj same

theorem members_of_next {acc members rest : List (Member coerce (ParseTree coerce))}
    {m : Member coerce (ParseTree coerce)}
    (same : object (acc.reverse ++ members) = object ((m :: acc).reverse ++ rest)) :
    members = m :: rest := by
  simpa using object.inj same

end ParseTree

/-- Dropping past a front part and the element after it, then `j` more. -/
theorem drop_past {α : Type} (front : List α) (a : α) (rest : List α) (j : Nat) :
    (front ++ a :: rest).drop (j + (front.length + 1)) = rest.drop j := by
  have past : j + (front.length + 1) - front.length = j + 1 := by omega
  rw [List.drop_append, List.drop_eq_nil_of_le (by omega), past]
  rfl

/-! ### The same reader with another limit -/

namespace Reader

/-- The reader `r` with the nesting limit `m` in place of its own. -/
def limited (r : Reader) (m : Int) : Reader :=
  ⟨{ r.options with maxDepth := m }, r.textLength⟩

section Limited

variable (r : Reader) (m : Int)

theorem stringText_limited (t : Token) : (r.limited m).stringText t = r.stringText t := rfl

theorem key_limited (ts : List Token) : (r.limited m).key ts = r.key ts := rfl

theorem colon_limited (ts : List Token) : (r.limited m).colon ts = r.colon ts := rfl

end Limited

/-! ### Failures that pass up the descent -/

section Failures

variable (r : Reader) {d : Nat} {t : Token} {ts rest : List Token} {e : ReadError}

theorem value_tooDeep (deep : r.options.maxDepth < d) :
    r.value d ts = fail .tooDeep (r.offsetAt ts) := by
  rw [value.eq_def, if_pos deep]

theorem value_list_error (shallow : ¬r.options.maxDepth < d) (kind : t.kind = .mark)
    (raw : t.raw = ['[']) (body : r.listBody (d + 1) rest = .error e) :
    r.value d (t :: rest) = .error e := by
  rw [value, if_neg shallow]
  simp only [kind, raw, if_true, body]

theorem value_map_error (shallow : ¬r.options.maxDepth < d) (kind : t.kind = .mark)
    (raw : t.raw = ['{']) (body : r.mapBody (d + 1) rest = .error e) :
    r.value d (t :: rest) = .error e := by
  have notList : (['{'] : List Char) ≠ ['['] := by decide
  rw [value, if_neg shallow]
  simp only [kind, raw, notList, if_false, if_true, body]

theorem listItems_error {acc : List Value} (item : r.value d ts = .error e) :
    r.listItems d acc ts = .error e := by
  rw [listItems, item]

theorem listItems_next_error {acc : List Value} {v : Value}
    (item : Gives (r.value d ts) v (t :: rest)) (open_ : t.isMark ']' = false)
    (comma : t.isMark ',' = true) (next : r.listItems d (v :: acc) rest = .error e) :
    r.listItems d acc ts = .error e := by
  obtain ⟨h, item⟩ := item
  rw [listItems]
  simp only [item, open_, comma, Bool.false_eq_true, if_false, if_true, next]

variable {k : Scalar} {afterKey afterColon : List Token}

theorem mapEntries_error {acc : List (Scalar × Value)} (key : Gives (r.key ts) k afterKey)
    (colon : Gives (r.colon afterKey) () afterColon) (value : r.value d afterColon = .error e) :
    r.mapEntries d acc ts = .error e := by
  obtain ⟨hk, key⟩ := key
  obtain ⟨hc, colon⟩ := colon
  rw [mapEntries]
  simp only [key, colon, value]

theorem mapEntries_next_error {acc : List (Scalar × Value)} {v : Value}
    (key : Gives (r.key ts) k afterKey) (colon : Gives (r.colon afterKey) () afterColon)
    (value : Gives (r.value d afterColon) v (t :: rest)) (open_ : t.isMark '}' = false)
    (comma : t.isMark ',' = true) (next : r.mapEntries d ((k, v) :: acc) rest = .error e) :
    r.mapEntries d acc ts = .error e := by
  obtain ⟨hk, key⟩ := key
  obtain ⟨hc, colon⟩ := colon
  obtain ⟨hv, value⟩ := value
  rw [mapEntries]
  simp only [key, colon, value, open_, comma, Bool.false_eq_true, if_false, if_true, next]

theorem document_error (nonempty : ts ≠ []) (read : r.value 0 ts = .error e) :
    r.document ts = .error e := by
  obtain ⟨t, ts, rfl⟩ := List.exists_cons_of_ne_nil nonempty
  rw [document, read]
  exact List.cons_ne_nil t ts

end Failures

theorem key_of_parseKey {r : Reader} {ts more : List Token} {k : KeyRead r.options.coerceKeys}
    (gives : Gives (r.parseKey ts) k more) : Gives (r.key ts) k.1.2 more := by
  obtain ⟨h, read⟩ := gives
  rw [key_eq_parseKey, read]
  exact ⟨h, rfl⟩

/-! ### The simulation -/

variable (r : Reader) (m : Int) in
/-- On every list of fewer than `n` lexemes, each function of the descent under the limit `m`
does what the parse under `r` says of it: where no value of the tree read lies deeper than `m`,
it reads the value of that tree and leaves the same lexemes, and otherwise it fails as too deep
at the first lexeme of the first value that does. For the body of a list or object, the items
and members are those after the ones accumulated. -/
structure Limits (n : Nat) : Prop where
  value : ∀ {d : Nat} {ts more : List Token} {p : ParseTree r.options.coerceKeys},
    ts.length < n → Gives (r.parseValue d ts) p more →
    (p.firstDeep m d = none → Gives ((r.limited m).value d ts) p.build more) ∧
    ∀ i, p.firstDeep m d = some i →
      (r.limited m).value d ts = fail .tooDeep (r.offsetAt (ts.drop i))
  listBody : ∀ {d : Nat} {ts more : List Token} {items : List (ParseTree r.options.coerceKeys)},
    ts.length < n → Gives (r.parseListBody d ts) (.list items) more →
    (ParseTree.firstDeepItems m d items = none →
      Gives ((r.limited m).listBody d ts) (ParseTree.list items).build more) ∧
    ∀ i, ParseTree.firstDeepItems m d items = some i →
      (r.limited m).listBody d ts = fail .tooDeep (r.offsetAt (ts.drop i))
  listItems : ∀ {d : Nat} {acc items : List (ParseTree r.options.coerceKeys)}
    {ts more : List Token}, ts.length < n →
    Gives (r.parseListItems d acc ts) (.list (acc.reverse ++ items)) more →
    (ParseTree.firstDeepItems m d items = none →
      Gives ((r.limited m).listItems d (acc.map ParseTree.build) ts)
        (ParseTree.list (acc.reverse ++ items)).build more) ∧
    ∀ i, ParseTree.firstDeepItems m d items = some i →
      (r.limited m).listItems d (acc.map ParseTree.build) ts =
        fail .tooDeep (r.offsetAt (ts.drop i))
  mapBody : ∀ {d : Nat} {ts more : List Token}
    {members : List (Member r.options.coerceKeys (ParseTree r.options.coerceKeys))},
    ts.length < n → Gives (r.parseMapBody d ts) (.object members) more →
    (ParseTree.firstDeepMembers m d members = none →
      Gives ((r.limited m).mapBody d ts) (ParseTree.object members).build more) ∧
    ∀ i, ParseTree.firstDeepMembers m d members = some i →
      (r.limited m).mapBody d ts = fail .tooDeep (r.offsetAt (ts.drop i))
  mapEntries : ∀ {d : Nat}
    {acc members : List (Member r.options.coerceKeys (ParseTree r.options.coerceKeys))}
    {ts more : List Token}, ts.length < n →
    Gives (r.parseMapEntries d acc ts) (.object (acc.reverse ++ members)) more →
    (ParseTree.firstDeepMembers m d members = none →
      Gives ((r.limited m).mapEntries d (acc.map ParseTree.entry) ts)
        (ParseTree.object (acc.reverse ++ members)).build more) ∧
    ∀ i, ParseTree.firstDeepMembers m d members = some i →
      (r.limited m).mapEntries d (acc.map ParseTree.entry) ts =
        fail .tooDeep (r.offsetAt (ts.drop i))

section Steps

variable {r : Reader} {m : Int} {d : Nat} {ts more : List Token}

theorem value_limits {p : ParseTree r.options.coerceKeys} (below : r.Limits m ts.length)
    (gives : Gives (r.parseValue d ts) p more) :
    (p.firstDeep m d = none → Gives ((r.limited m).value d ts) p.build more) ∧
    ∀ i, p.firstDeep m d = some i →
      (r.limited m).value d ts = fail .tooDeep (r.offsetAt (ts.drop i)) := by
  cases ts with
  | nil => exact (parseValue_gives_nil gives).elim
  | cons t rest =>
  by_cases deep : m < d
  · -- the value itself lies too deep, and fails at its own first lexeme
    rw [ParseTree.firstDeep_of_deep m deep]
    refine ⟨fun found => (by cases found), fun i found => ?_⟩
    obtain rfl : 0 = i := Option.some.inj found
    exact (r.limited m).value_tooDeep deep
  obtain ⟨-, ways⟩ := parseValue_gives gives
  rcases ways with ⟨kind, ⟨s, text, rfl⟩, rfl⟩ | ⟨kind, ⟨s, scalar, rfl⟩, rfl⟩ |
    ⟨kind, rfl, rfl⟩ | ⟨opening, body⟩ | ⟨opening, body⟩
  · rw [ParseTree.firstDeep_scalar m deep]
    exact ⟨fun _ => value_quoted deep kind ((r.stringText_limited m t).trans text),
      fun i found => (by cases found)⟩
  · rw [ParseTree.firstDeep_scalar m deep]
    exact ⟨fun _ => (r.limited m).value_number deep kind scalar, fun i found => (by cases found)⟩
  · rw [ParseTree.firstDeep_scalar m deep]
    exact ⟨fun _ => (r.limited m).value_literal deep kind, fun i found => (by cases found)⟩
  · simp only [Token.view, Prod.mk.injEq] at opening
    obtain ⟨items, -, rfl, -, -⟩ := (r.consumes _).listBody (Nat.lt_succ_self _) body
    obtain ⟨fits, tooDeep⟩ := below.listBody (by simp) body
    rw [ParseTree.firstDeep_list m deep]
    refine ⟨fun found => ?_, fun i found => ?_⟩
    · exact (r.limited m).value_list deep opening.1 opening.2
        (fits (Option.map_eq_none_iff.mp found))
    · obtain ⟨j, inner, rfl⟩ := Option.map_eq_some_iff.mp found
      exact (r.limited m).value_list_error deep opening.1 opening.2 (tooDeep j inner)
  · simp only [Token.view, Prod.mk.injEq] at opening
    obtain ⟨members, -, rfl, -, -⟩ := (r.consumes _).mapBody (Nat.lt_succ_self _) body
    obtain ⟨fits, tooDeep⟩ := below.mapBody (by simp) body
    rw [ParseTree.firstDeep_object m deep]
    refine ⟨fun found => ?_, fun i found => ?_⟩
    · exact (r.limited m).value_map deep opening.1 opening.2
        (fits (Option.map_eq_none_iff.mp found))
    · obtain ⟨j, inner, rfl⟩ := Option.map_eq_some_iff.mp found
      exact (r.limited m).value_map_error deep opening.1 opening.2 (tooDeep j inner)

theorem listItems_limits {acc items : List (ParseTree r.options.coerceKeys)}
    (below : r.Limits m ts.length)
    (gives : Gives (r.parseListItems d acc ts) (.list (acc.reverse ++ items)) more) :
    (ParseTree.firstDeepItems m d items = none →
      Gives ((r.limited m).listItems d (acc.map ParseTree.build) ts)
        (ParseTree.list (acc.reverse ++ items)).build more) ∧
    ∀ i, ParseTree.firstDeepItems m d items = some i →
      (r.limited m).listItems d (acc.map ParseTree.build) ts =
        fail .tooDeep (r.offsetAt (ts.drop i)) := by
  obtain ⟨item, t, after, itemRead, ways⟩ := parseListItems_gives gives
  obtain ⟨itemFits, itemTooDeep⟩ := value_limits below itemRead
  obtain ⟨itemLexemes, split, size⟩ := parseValue_consumes itemRead
  rcases ways with ⟨close, same, rfl⟩ | ⟨open_, comma, next⟩
  · -- the item closes the list
    obtain rfl : items = [item] := ParseTree.items_of_next (by rw [same, List.append_nil])
    rw [ParseTree.firstDeepItems, ParseTree.firstDeepItems, Option.map_none, Option.or_none]
    refine ⟨fun found => ?_, fun i found => (r.limited m).listItems_error (itemTooDeep i found)⟩
    have built : (ParseTree.list (acc.reverse ++ [item])).build =
        .list (item.build :: acc.map ParseTree.build).reverse := by
      simp [ParseTree.build_list]
    rw [built]
    exact (r.limited m).listItems_last (itemFits found) close
  · -- a comma hands the items after it to the next step
    have shorter : after.length < ts.length := by
      rw [split]
      simp only [List.length_append, List.length_cons]
      omega
    obtain ⟨rest, -, -, same, -, -⟩ := (r.consumes _).listItems (Nat.lt_succ_self _) next
    rw [same] at next
    obtain rfl := ParseTree.items_of_next same
    obtain ⟨restFits, restTooDeep⟩ := below.listItems shorter next
    rw [ParseTree.firstDeepItems]
    cases head : item.firstDeep m d with
    | some i =>
        rw [Option.some_or]
        refine ⟨fun found => (by cases found), fun i' found => ?_⟩
        obtain rfl : i = i' := Option.some.inj found
        exact (r.limited m).listItems_error (itemTooDeep i head)
    | none =>
        rw [Option.none_or]
        refine ⟨fun found => ?_, fun i found => ?_⟩
        · rw [same]
          exact (r.limited m).listItems_next (itemFits head) open_ comma
            (restFits (Option.map_eq_none_iff.mp found))
        · obtain ⟨j, inner, rfl⟩ := Option.map_eq_some_iff.mp found
          have skip : ts.drop (j + (item.width + 1)) = after.drop j := by
            rw [split, ← size, drop_past]
          rw [skip]
          exact (r.limited m).listItems_next_error (itemFits head) open_ comma (restTooDeep j inner)

theorem listBody_limits {items : List (ParseTree r.options.coerceKeys)}
    (below : r.Limits m ts.length) (gives : Gives (r.parseListBody d ts) (.list items) more) :
    (ParseTree.firstDeepItems m d items = none →
      Gives ((r.limited m).listBody d ts) (ParseTree.list items).build more) ∧
    ∀ i, ParseTree.firstDeepItems m d items = some i →
      (r.limited m).listBody d ts = fail .tooDeep (r.offsetAt (ts.drop i)) := by
  cases ts with
  | nil => exact (parseListBody_gives_nil gives).elim
  | cons t rest =>
  rcases parseListBody_gives gives with ⟨close, same, rfl⟩ | ⟨open_, itemsRead⟩
  · -- an empty list holds no value to check
    obtain rfl : items = [] := ParseTree.list.inj same
    exact ⟨fun _ => (r.limited m).listBody_close close, fun i found => (by cases found)⟩
  · rw [(r.limited m).listBody_items open_]
    exact listItems_limits below itemsRead

theorem mapEntries_limits
    {acc members : List (Member r.options.coerceKeys (ParseTree r.options.coerceKeys))}
    (below : r.Limits m ts.length)
    (gives : Gives (r.parseMapEntries d acc ts) (.object (acc.reverse ++ members)) more) :
    (ParseTree.firstDeepMembers m d members = none →
      Gives ((r.limited m).mapEntries d (acc.map ParseTree.entry) ts)
        (ParseTree.object (acc.reverse ++ members)).build more) ∧
    ∀ i, ParseTree.firstDeepMembers m d members = some i →
      (r.limited m).mapEntries d (acc.map ParseTree.entry) ts =
        fail .tooDeep (r.offsetAt (ts.drop i)) := by
  obtain ⟨key, afterKey, afterColon, item, t, after, keyRead, colonRead, itemRead, ways⟩ :=
    parseMapEntries_gives gives
  cases ts with
  | nil => exact (parseKey_gives_nil keyRead).elim
  | cons tk restKey =>
  obtain rfl := parseKey_gives keyRead
  cases afterKey with
  | nil => exact (colon_gives_nil colonRead).elim
  | cons tc restColon =>
  obtain ⟨-, rfl⟩ := colon_gives colonRead
  have key' : Gives ((r.limited m).key (tk :: tc :: afterColon)) key.1.2 (tc :: afterColon) := by
    rw [key_limited]
    exact key_of_parseKey keyRead
  have colon' : Gives ((r.limited m).colon (tc :: afterColon)) () afterColon := by
    rw [colon_limited]
    exact colonRead
  obtain ⟨itemFits, itemTooDeep⟩ := below.value (by simp) itemRead
  obtain ⟨itemLexemes, split, size⟩ := parseValue_consumes itemRead
  rcases ways with ⟨close, same, rfl⟩ | ⟨open_, comma, next⟩
  · -- the member closes the object
    obtain rfl : members = [⟨key.1.1, key.1.2, item, key.2⟩] :=
      ParseTree.members_of_next (by rw [same, List.append_nil])
    rw [ParseTree.firstDeepMembers, ParseTree.firstDeepMembers, Option.map_none, Option.or_none]
    refine ⟨fun found => ?_, fun i found => ?_⟩
    · have built : (ParseTree.object (acc.reverse ++ [⟨key.1.1, key.1.2, item, key.2⟩])).build =
          .map (Entries.ofPairs ((key.1.2, item.build) :: acc.map ParseTree.entry).reverse) := by
        simp [ParseTree.build_object, ParseTree.entries, ParseTree.entry]
      rw [built]
      exact (r.limited m).mapEntries_last key' colon' (itemFits (Option.map_eq_none_iff.mp found))
        close
    · obtain ⟨j, inner, rfl⟩ := Option.map_eq_some_iff.mp found
      exact (r.limited m).mapEntries_error key' colon' (itemTooDeep j inner)
  · -- a comma hands the members after it to the next step
    have shorter : after.length < (tk :: tc :: afterColon).length := by
      rw [split]
      simp only [List.length_append, List.length_cons]
      omega
    obtain ⟨rest, -, -, same, -, -⟩ := (r.consumes _).mapEntries (Nat.lt_succ_self _) next
    rw [same] at next
    obtain rfl := ParseTree.members_of_next same
    obtain ⟨restFits, restTooDeep⟩ := below.mapEntries shorter next
    rw [ParseTree.firstDeepMembers]
    cases head : item.firstDeep m d with
    | some i =>
        rw [Option.map_some, Option.some_or]
        refine ⟨fun found => (by cases found), fun i' found => ?_⟩
        obtain rfl : i + 2 = i' := Option.some.inj found
        exact (r.limited m).mapEntries_error key' colon' (itemTooDeep i head)
    | none =>
        rw [Option.map_none, Option.none_or]
        refine ⟨fun found => ?_, fun i found => ?_⟩
        · rw [same]
          exact (r.limited m).mapEntries_next key' colon' (itemFits head) open_ comma
            (restFits (Option.map_eq_none_iff.mp found))
        · obtain ⟨j, inner, rfl⟩ := Option.map_eq_some_iff.mp found
          have skip : (tk :: tc :: afterColon).drop (j + (item.width + 3)) = after.drop j := by
            rw [show j + (item.width + 3) = j + (itemLexemes.length + 1) + 1 + 1 by omega,
              List.drop_succ_cons, List.drop_succ_cons, split, drop_past]
          rw [skip]
          exact (r.limited m).mapEntries_next_error key' colon' (itemFits head) open_ comma
            (restTooDeep j inner)

theorem mapBody_limits
    {members : List (Member r.options.coerceKeys (ParseTree r.options.coerceKeys))}
    (below : r.Limits m ts.length) (gives : Gives (r.parseMapBody d ts) (.object members) more) :
    (ParseTree.firstDeepMembers m d members = none →
      Gives ((r.limited m).mapBody d ts) (ParseTree.object members).build more) ∧
    ∀ i, ParseTree.firstDeepMembers m d members = some i →
      (r.limited m).mapBody d ts = fail .tooDeep (r.offsetAt (ts.drop i)) := by
  cases ts with
  | nil => exact (parseMapBody_gives_nil gives).elim
  | cons t rest =>
  rcases parseMapBody_gives gives with ⟨close, same, rfl⟩ | ⟨open_, entriesRead⟩
  · -- an empty object holds no value to check
    obtain rfl : members = [] := ParseTree.object.inj same
    refine ⟨fun _ => ?_, fun i found => (by cases found)⟩
    rw [ParseTree.build_object]
    exact (r.limited m).mapBody_close close
  · rw [(r.limited m).mapBody_entries open_]
    exact mapEntries_limits below entriesRead

theorem Limits.mono {n k : Nat} (limits : r.Limits m n) (le : k ≤ n) : r.Limits m k :=
  ⟨fun short => limits.value (by omega), fun short => limits.listBody (by omega),
    fun short => limits.listItems (by omega), fun short => limits.mapBody (by omega),
    fun short => limits.mapEntries (by omega)⟩

theorem Limits.succ {n : Nat} (below : r.Limits m n) : r.Limits m (n + 1) :=
  ⟨fun short => value_limits (below.mono (by omega)),
    fun short => listBody_limits (below.mono (by omega)),
    fun short => listItems_limits (below.mono (by omega)),
    fun short => mapBody_limits (below.mono (by omega)),
    fun short => mapEntries_limits (below.mono (by omega))⟩

end Steps

/-- The induction on the number of lexemes left. -/
theorem limits (r : Reader) (m : Int) (n : Nat) : r.Limits m n := by
  induction n with
  | zero => exact ⟨nofun, nofun, nofun, nofun, nofun⟩
  | succ n below => exact below.succ

/-- A document is read from all its lexemes. -/
theorem parseDocument_width {r : Reader} {ts : List Token} {p : ParseTree r.options.coerceKeys}
    (read : r.parseDocument ts = .ok (some p)) : ts.length = p.width := by
  cases ts with
  | nil =>
      rw [parseDocument] at read
      cases read
  | cons t rest =>
      obtain ⟨q, same, gives⟩ := parseDocument_gives read
      cases same
      obtain ⟨lexemes, split, size⟩ := parseValue_consumes gives
      rw [split, List.append_nil, size]

/-- **The whole document under another limit.** Where `r` reads the tree of a document, `r`
with the limit `m` reads its value when no value of it lies deeper than `m`, and otherwise fails
as too deep at the first lexeme of the first value that does. -/
theorem document_limits (r : Reader) (m : Int) {ts : List Token}
    {doc : Option (ParseTree r.options.coerceKeys)} (read : r.parseDocument ts = .ok doc) :
    ((∀ p ∈ doc, p.firstDeep m 0 = none) →
        (r.limited m).document ts = .ok (doc.map ParseTree.build)) ∧
      ∀ p ∈ doc, ∀ i, p.firstDeep m 0 = some i →
        (r.limited m).document ts = fail .tooDeep (r.offsetAt (ts.drop i)) := by
  cases ts with
  | nil =>
      rw [parseDocument] at read
      cases read
      exact ⟨fun _ => rfl, fun p member => by cases member⟩
  | cons t rest =>
      obtain ⟨p, rfl, gives⟩ := parseDocument_gives read
      obtain ⟨fits, tooDeep⟩ := (r.limits m _).value (Nat.lt_succ_self _) gives
      refine ⟨fun shallow => ?_, fun q member i found => ?_⟩
      · exact (r.limited m).document_of_value (List.cons_ne_nil t rest) (fits (shallow p rfl))
      · obtain rfl := Option.mem_some_iff.mp member
        exact (r.limited m).document_error (List.cons_ne_nil t rest) (tooDeep i found)

theorem offsetAt_drop (r : Reader) {ts : List Token} {i : Nat} (inside : i < ts.length) :
    r.offsetAt (ts.drop i) = ts[i].start := by
  rw [List.drop_eq_getElem_cons inside]
  rfl

end Reader

/-- **The nesting limit is exact.** Take any options `o` and a text whose tree some limit `N`
accepts. Reading it under the limit of `o` gives the same document exactly when no value of its
tree, the members whose key a later one repeats included, lies under more than `o.maxDepth`
containers. When one does, the reading fails as too deep at the first lexeme of the first such
value in the order of the text. -/
theorem read_nestingLimit {o : Options} {N : Int} {text : String} {ts : List Token}
    {doc : Option (ParseTree o.coerceKeys)} (scanned : Token.scan text.toList = .ok ts)
    (accepted : readTree { o with maxDepth := N } text = .ok doc) :
    (read o text = read { o with maxDepth := N } text ↔
        ∀ p ∈ doc, (p.nesting : Int) ≤ o.maxDepth) ∧
      ∀ p ∈ doc, o.maxDepth < p.nesting →
        ∃ i tok, p.firstDeep o.maxDepth 0 = some i ∧ ts[i]? = some tok ∧
          read o text = .error (.malformed ⟨.tooDeep, tok.start⟩) := by
  -- the reader that accepts the text, and the same reader with the limit of `o`
  let r : Reader := ⟨{ o with maxDepth := N }, text.toList.length⟩
  have parsed : r.parseDocument ts = .ok doc := by
    rw [readTree, scanned] at accepted
    exact accepted
  have limitedRead : read o text = (r.limited o.maxDepth).document ts := by
    rw [read, scanned]
    rfl
  have fullRead : read { o with maxDepth := N } text = .ok (doc.map ParseTree.build) := by
    rw [read_eq_readTree, accepted]
    rfl
  obtain ⟨fits, tooDeep⟩ := r.document_limits o.maxDepth parsed
  have deep : ∀ p ∈ doc, o.maxDepth < p.nesting →
      ∃ i tok, p.firstDeep o.maxDepth 0 = some i ∧ ts[i]? = some tok ∧
        read o text = .error (.malformed ⟨.tooDeep, tok.start⟩) := by
    intro p member exceeds
    cases found : p.firstDeep o.maxDepth 0 with
    | none =>
        have within := (ParseTree.firstDeep_eq_none_iff o.maxDepth 0 p).mp found
        omega
    | some i =>
        -- the value found starts at a lexeme of the document, which is read from all of them
        obtain rfl : doc = some p := member
        have inside : i < ts.length := by
          rw [Reader.parseDocument_width parsed]
          exact ParseTree.firstDeep_lt_width o.maxDepth 0 p i found
        refine ⟨i, ts[i], rfl, List.getElem?_eq_getElem inside, ?_⟩
        rw [limitedRead, tooDeep p rfl i found, Reader.offsetAt_drop r inside]
        rfl
  refine ⟨⟨fun same p member => ?_, fun within => ?_⟩, deep⟩
  · by_contra exceeds
    obtain ⟨i, tok, -, -, failed⟩ := deep p member (by omega)
    rw [same, fullRead] at failed
    cases failed
  · rw [limitedRead, fullRead]
    refine fits fun p member => (ParseTree.firstDeep_eq_none_iff o.maxDepth 0 p).mpr ?_
    have := within p member
    omega

/-- A key written twice, first with a list of lists and then with a number. -/
def deepRepeated : String :=
  "\x7b\"a\": [[1]], \"a\": 1\x7d"

theorem read_nestingLimit_deepRepeated :
    ∃ (ts : List Token) (doc : Option (ParseTree false)),
      Token.scan deepRepeated.toList = .ok ts ∧
      readTree { ({ maxDepth := 1 } : Options) with maxDepth := 200 } deepRepeated = .ok doc ∧
      (read { maxDepth := 1 } deepRepeated =
          read { ({ maxDepth := 1 } : Options) with maxDepth := 200 } deepRepeated ↔
        ∀ p ∈ doc, (p.nesting : Int) ≤ 1) ∧
      ∀ p ∈ doc, (1 : Int) < p.nesting →
        ∃ i tok, p.firstDeep 1 0 = some i ∧ ts[i]? = some tok ∧
          read { maxDepth := 1 } deepRepeated = .error (.malformed ⟨.tooDeep, tok.start⟩) := by
  have scans : (Token.scan deepRepeated.toList).isOk = true := by decide +kernel
  have reads : (readTree { ({ maxDepth := 1 } : Options) with maxDepth := 200 }
      deepRepeated).isOk = true := by
    decide +kernel
  cases scanned : Token.scan deepRepeated.toList with
  | error e =>
      rw [scanned] at scans
      cases scans
  | ok ts =>
  cases accepted : readTree { ({ maxDepth := 1 } : Options) with maxDepth := 200 } deepRepeated with
  | error e =>
      rw [accepted] at reads
      cases reads
  | ok doc => exact ⟨ts, doc, rfl, rfl, read_nestingLimit scanned accepted⟩

/-- Counted on the map built, the repeated key hides the deeper value: the document reads to a
map one deep, yet the limit one refuses it, for its first member was read, and checked. -/
theorem read_repeatedDeepKey :
    ∃ v, read .relaxed deepRepeated = .ok (some v) ∧ v.nesting = 1 ∧
      (read { maxDepth := 1 } deepRepeated).isOk = false := by
  have nested : (read .relaxed deepRepeated).toOption.join.map Value.nesting = some 1 := by
    decide +kernel
  have refused : (read { maxDepth := 1 } deepRepeated).isOk = false := by decide +kernel
  cases found : read .relaxed deepRepeated with
  | error e =>
      rw [found] at nested
      cases nested
  | ok doc =>
      rw [found] at nested
      cases doc with
      | none => cases nested
      | some v => exact ⟨v, rfl, Option.some.inj nested, refused⟩

end Ingest.Relaxed
