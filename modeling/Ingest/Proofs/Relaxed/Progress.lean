import Mathlib
import Ingest.Proofs.Relaxed.DepthLimit

/-!
Contract: every step of reading that succeeds consumes lexemes, whatever the options and the
depth, so reading ends on every text.

The descent is defined by recursion on the lexemes left, measured as three times their number
plus a constant for each function, so that a function handing all its lexemes to another is
still below it; the depth and the nesting limit are not in the measure. This module says what
each step consumes, exactly (`Reader.steps_consume`): a value is read from as many lexemes as
its parse tree has, at least one; a key and the colon after it from one lexeme each; and the
loop over the items of a list, or the members of a map, from each item's lexemes and the comma
or closing mark after it, or each member's key, colon, value and the mark after it.

Owns: the widths of the items of a list and the members of an object as sums, and the lift of
the consumption of the parse-tree reader (`Reader.Consumes`) to the descent that builds values.

Does not own: the consumption of the parse-tree reader itself; that is `Relaxed.TreeSteps`.
-/

namespace Ingest.Relaxed

namespace ParseTree

variable {coerce : Bool}

/-- The items of a list are read each with the mark after it. -/
theorem itemsWidth_eq_sum (items : List (ParseTree coerce)) :
    itemsWidth items = (items.map fun item => item.width + 1).sum := by
  induction items with
  | nil => rfl
  | cons item rest ih => rw [itemsWidth, ih, List.map_cons, List.sum_cons, Nat.add_assoc]

/-- The members of an object are read each with its key and colon before it and the mark
after it. -/
theorem membersWidth_eq_sum (members : List (Member coerce (ParseTree coerce))) :
    membersWidth members = (members.map fun m => m.value.width + 3).sum := by
  induction members with
  | nil => rfl
  | cons m rest ih =>
    obtain ⟨text, key, value, reads⟩ := m
    rw [membersWidth, ih, List.map_cons, List.sum_cons, Nat.add_assoc]

end ParseTree

namespace Reader

variable {r : Reader} {d : Nat} {ts more : List Token}

/-- What a reading of a value gives is the value of what the reading of its parse tree gives,
with the same lexemes left. -/
theorem gives_of_build {q : Parsed (ParseTree r.options.coerceKeys) ts} {v : Value}
    (gives : Gives (Parsed.build q) v more) : ∃ p, Gives q p more ∧ p.build = v := by
  obtain ⟨h, read⟩ := gives
  cases q with
  | error e => cases read
  | ok q =>
    obtain ⟨⟨p, after⟩, shorter⟩ := q
    cases read
    exact ⟨p, ⟨shorter, rfl⟩, rfl⟩

/-- A step that succeeds gives something. -/
theorem gives_of_isOk {α : Type} {q : Parsed α ts} (ok : q.isOk = true) : ∃ a more, Gives q a more := by
  cases q with
  | error e => cases ok
  | ok q =>
    obtain ⟨⟨a, after⟩, shorter⟩ := q
    exact ⟨a, after, shorter, rfl⟩

theorem value_consumes_width {v : Value} (gives : Gives (r.value d ts) v more) :
    ∃ (p : ParseTree r.options.coerceKeys) (read : List Token), p.build = v ∧ ts = read ++ more ∧
      read.length = p.width ∧ 0 < read.length := by
  rw [value_eq_build] at gives
  obtain ⟨p, parsed, built⟩ := gives_of_build gives
  obtain ⟨read, split, size⟩ := parseValue_consumes parsed
  exact ⟨p, read, built, split, size, size ▸ p.width_pos⟩

theorem key_consumes_one {k : Scalar} (gives : Gives (r.key ts) k more) : ∃ t, ts = t :: more := by
  cases ts with
  | nil => exact (key_gives_nil gives).elim
  | cons t rest =>
    obtain ⟨rfl, -⟩ := key_gives gives
    exact ⟨t, rfl⟩

theorem colon_consumes_one (gives : Gives (r.colon ts) () more) :
    ∃ t, t.isMark ':' = true ∧ ts = t :: more := by
  cases ts with
  | nil => exact (colon_gives_nil gives).elim
  | cons t rest =>
    obtain ⟨colon, rfl⟩ := colon_gives gives
    exact ⟨t, colon, rfl⟩

theorem listItems_consumes_items {v : Value} (gives : Gives (r.listItems d [] ts) v more) :
    ∃ (items : List (ParseTree r.options.coerceKeys)) (read : List Token), items ≠ [] ∧
      v = .list (items.map ParseTree.build) ∧ ts = read ++ more ∧
      read.length = (items.map fun item => item.width + 1).sum := by
  have agree : r.listItems d (([] : List (ParseTree r.options.coerceKeys)).map ParseTree.build) ts =
      Parsed.build (r.parseListItems d [] ts) := listItems_eq (r.agree ts.length) []
  rw [List.map_nil] at agree
  rw [agree] at gives
  obtain ⟨p, parsed, rfl⟩ := gives_of_build gives
  obtain ⟨items, read, nonempty, rfl, split, size⟩ :=
    (r.consumes _).listItems (Nat.lt_succ_self _) parsed
  rw [List.reverse_nil, List.nil_append, ParseTree.build, ParseTree.buildItems_eq]
  exact ⟨items, read, nonempty, rfl, split, size.trans (ParseTree.itemsWidth_eq_sum items)⟩

theorem mapEntries_consumes_members {v : Value} (gives : Gives (r.mapEntries d [] ts) v more) :
    ∃ (members : List (Member r.options.coerceKeys (ParseTree r.options.coerceKeys))) (read : List Token),
      members ≠ [] ∧ v = .map (ParseTree.entries members) ∧ ts = read ++ more ∧
      read.length = (members.map fun m => m.value.width + 3).sum := by
  have agree : r.mapEntries d
      (([] : List (Member r.options.coerceKeys (ParseTree r.options.coerceKeys))).map
        ParseTree.entry) ts = Parsed.build (r.parseMapEntries d [] ts) :=
    mapEntries_eq (r.agree ts.length) []
  rw [List.map_nil] at agree
  rw [agree] at gives
  obtain ⟨p, parsed, rfl⟩ := gives_of_build gives
  obtain ⟨members, read, nonempty, rfl, split, size⟩ :=
    (r.consumes _).mapEntries (Nat.lt_succ_self _) parsed
  rw [List.reverse_nil, List.nil_append, ParseTree.build_object]
  exact ⟨members, read, nonempty, rfl, split, size.trans (ParseTree.membersWidth_eq_sum members)⟩

/-- **Every step of reading consumes lexemes**, under any options, the nesting limit included,
and at any depth. A value is read from as many lexemes as its parse tree has, and at least one;
a key from one lexeme, and the colon after it from one more; and the loop over the items of a
list reads each item with the comma or closing bracket after it, as the loop over the members
of a map reads each key, colon and value with the comma or closing brace after it. So each
turn of a loop consumes a value and a mark, and reading ends on every text. -/
theorem steps_consume (r : Reader) (d : Nat) :
    (∀ ts more v, Gives (r.value d ts) v more →
      ∃ (p : ParseTree r.options.coerceKeys) (read : List Token), p.build = v ∧ ts = read ++ more ∧
        read.length = p.width ∧ 0 < read.length) ∧
    (∀ ts more k, Gives (r.key ts) k more → ∃ t, ts = t :: more) ∧
    (∀ ts more, Gives (r.colon ts) () more → ∃ t, t.isMark ':' = true ∧ ts = t :: more) ∧
    (∀ ts more v, Gives (r.listItems d [] ts) v more →
      ∃ (items : List (ParseTree r.options.coerceKeys)) (read : List Token), items ≠ [] ∧
        v = .list (items.map ParseTree.build) ∧ ts = read ++ more ∧
        read.length = (items.map fun item => item.width + 1).sum) ∧
    (∀ ts more v, Gives (r.mapEntries d [] ts) v more →
      ∃ (members : List (Member r.options.coerceKeys (ParseTree r.options.coerceKeys))) (read : List Token),
        members ≠ [] ∧ v = .map (ParseTree.entries members) ∧ ts = read ++ more ∧
        read.length = (members.map fun m => m.value.width + 3).sum) :=
  ⟨fun _ _ _ => value_consumes_width, fun _ _ _ => key_consumes_one,
    fun _ _ => colon_consumes_one, fun _ _ _ => listItems_consumes_items,
    fun _ _ _ => mapEntries_consumes_members⟩

/-- The lexemes of `\x7ba: [1, 2]\x7d`, and a reader of its eleven characters. -/
def mapSample : List Token :=
  [⟨.mark, ['\x7b'], 0⟩, ⟨.name, ['a'], 1⟩, ⟨.mark, [':'], 2⟩, ⟨.mark, ['['], 4⟩,
    ⟨.number, ['1'], 5⟩, ⟨.mark, [','], 6⟩, ⟨.number, ['2'], 8⟩, ⟨.mark, [']'], 9⟩,
    ⟨.mark, ['\x7d'], 10⟩]

def sampleReader : Reader := ⟨.relaxed, 11⟩

/-- Each step of reading `mapSample` at depth 1: the list as a value, the key, the colon, the
items of the list and the members of the map. -/
theorem steps_consume_mapSample :
    (∃ v more, Gives (sampleReader.value 1 (mapSample.drop 3)) v more ∧
      ∃ (p : ParseTree sampleReader.options.coerceKeys) (read : List Token), p.build = v ∧
        mapSample.drop 3 = read ++ more ∧ read.length = p.width ∧ 0 < read.length) ∧
    (∃ k more, Gives (sampleReader.key (mapSample.drop 1)) k more ∧
      ∃ t, mapSample.drop 1 = t :: more) ∧
    (∃ more, Gives (sampleReader.colon (mapSample.drop 2)) () more ∧
      ∃ t, t.isMark ':' = true ∧ mapSample.drop 2 = t :: more) ∧
    (∃ v more, Gives (sampleReader.listItems 1 [] (mapSample.drop 4)) v more ∧
      ∃ (items : List (ParseTree sampleReader.options.coerceKeys)) (read : List Token),
        items ≠ [] ∧ v = .list (items.map ParseTree.build) ∧ mapSample.drop 4 = read ++ more ∧
        read.length = (items.map fun item => item.width + 1).sum) ∧
    (∃ v more, Gives (sampleReader.mapEntries 1 [] (mapSample.drop 1)) v more ∧
      ∃ (members : List (Member sampleReader.options.coerceKeys
          (ParseTree sampleReader.options.coerceKeys))) (read : List Token),
        members ≠ [] ∧ v = .map (ParseTree.entries members) ∧ mapSample.drop 1 = read ++ more ∧
        read.length = (members.map fun m => m.value.width + 3).sum) := by
  obtain ⟨value, key, colon, items, members⟩ := steps_consume sampleReader 1
  have valueOk : (sampleReader.value 1 (mapSample.drop 3)).isOk = true := by decide +kernel
  have keyOk : (sampleReader.key (mapSample.drop 1)).isOk = true := by decide +kernel
  have colonOk : (sampleReader.colon (mapSample.drop 2)).isOk = true := by decide +kernel
  have itemsOk : (sampleReader.listItems 1 [] (mapSample.drop 4)).isOk = true := by decide +kernel
  have membersOk : (sampleReader.mapEntries 1 [] (mapSample.drop 1)).isOk = true := by
    decide +kernel
  obtain ⟨v, more, readValue⟩ := gives_of_isOk valueOk
  obtain ⟨k, afterKey, readKey⟩ := gives_of_isOk keyOk
  obtain ⟨⟨⟩, afterColon, readColon⟩ := gives_of_isOk colonOk
  obtain ⟨list, afterItems, readItems⟩ := gives_of_isOk itemsOk
  obtain ⟨map, afterMembers, readMembers⟩ := gives_of_isOk membersOk
  exact ⟨⟨v, more, readValue, value _ _ _ readValue⟩, ⟨k, afterKey, readKey, key _ _ _ readKey⟩,
    ⟨afterColon, readColon, colon _ _ readColon⟩,
    ⟨list, afterItems, readItems, items _ _ _ readItems⟩,
    ⟨map, afterMembers, readMembers, members _ _ _ readMembers⟩⟩

end Reader

end Ingest.Relaxed
