import Ingest.Proofs.Relaxed.ReadSteps

/-!
Contract: a step of the parse-tree reader that succeeds went one of its ways, and the tree it
reads is read from exactly as many lexemes as the tree has.

Owns: one inversion lemma for each function of the parse-tree reader (`parseValue_gives`,
`parseListItems_gives`, `parseMapEntries_gives`, ...) that says every way it can give a tree,
with what it read on the way; and, by induction on the number of lexemes left, that a tree
read is read from the first `ParseTree.width` lexemes and leaves the others
(`Reader.Consumes`, `Reader.parseValue_consumes`), the items and members read into a list or
object accumulated on the way included.

Does not own: what the tree stands for; that is `Relaxed.ParseTree`.
-/

namespace Ingest.Relaxed

open Ingest.Text

namespace ParseTree

variable {coerce : Bool}

theorem width_list {items : List (ParseTree coerce)} (nonempty : items ≠ []) :
    (list items).width = 1 + itemsWidth items := by
  cases items with
  | nil => exact absurd rfl nonempty
  | cons item rest => rfl

theorem width_object {members : List (Member coerce (ParseTree coerce))} (nonempty : members ≠ []) :
    (object members).width = 1 + membersWidth members := by
  cases members with
  | nil => exact absurd rfl nonempty
  | cons m rest => rfl

end ParseTree

namespace Reader

variable {r : Reader} {d : Nat} {t : Token} {rest more : List Token}
  {p : ParseTree r.options.coerceKeys}

/-! ### One step at a time -/

theorem parseValue_gives (gives : Gives (r.parseValue d (t :: rest)) p more) :
    ¬r.options.maxDepth < d ∧
      ((t.kind = .string ∨ t.kind = .singleQuoted) ∧
          (∃ s, r.stringText t = .ok s ∧ p = .scalar (.str s)) ∧ more = rest ∨
        t.kind = .number ∧ (∃ s, numberScalar t = .ok s ∧ p = .scalar s) ∧ more = rest ∨
        t.kind = .literal ∧ p = .scalar (literalScalar t.raw) ∧ more = rest ∨
        t.view = (.mark, ['[']) ∧ Gives (r.parseListBody (d + 1) rest) p more ∨
        t.view = (.mark, ['{']) ∧ Gives (r.parseMapBody (d + 1) rest) p more) := by
  obtain ⟨h, read⟩ := gives
  rw [parseValue] at read
  split at read
  · cases read
  rename_i shallow
  refine ⟨shallow, ?_⟩
  rcases t with ⟨kind, raw, start⟩
  cases kind with
  | string | singleQuoted =>
      simp only at read
      cases text : r.stringText ⟨_, raw, start⟩ with
      | error e => rw [text] at read; cases read
      | ok s =>
          rw [text] at read
          cases read
          simp
  | number =>
      simp only at read
      cases scalar : numberScalar ⟨_, raw, start⟩ with
      | error e => rw [scalar] at read; cases read
      | ok s =>
          rw [scalar] at read
          cases read
          simp
  | literal =>
      cases read
      simp
  | name => cases read
  | mark =>
      simp only at read
      split at read
      · rename_i opening
        split at read
        · rename_i _ _ body
          cases read
          exact .inr (.inr (.inr (.inl ⟨by rw [opening]; rfl, _, body⟩)))
        · cases read
      · split at read
        · rename_i notList opening
          split at read
          · rename_i _ _ body
            cases read
            exact .inr (.inr (.inr (.inr ⟨by rw [opening]; rfl, _, body⟩)))
          · cases read
        · cases read

theorem parseValue_gives_nil (gives : Gives (r.parseValue d []) p more) : False := by
  obtain ⟨h, read⟩ := gives
  rw [parseValue] at read
  split at read <;> cases read

theorem parseListBody_gives (gives : Gives (r.parseListBody d (t :: rest)) p more) :
    t.isMark ']' = true ∧ p = .list [] ∧ more = rest ∨
      t.isMark ']' = false ∧ Gives (r.parseListItems d [] (t :: rest)) p more := by
  obtain ⟨h, read⟩ := gives
  rw [parseListBody] at read
  by_cases close : t.isMark ']' = true
  · rw [if_pos close] at read
    cases read
    exact .inl ⟨close, rfl, rfl⟩
  · rw [if_neg close] at read
    exact .inr ⟨by simpa using close, h, read⟩

theorem parseMapBody_gives (gives : Gives (r.parseMapBody d (t :: rest)) p more) :
    t.isMark '}' = true ∧ p = .object [] ∧ more = rest ∨
      t.isMark '}' = false ∧ Gives (r.parseMapEntries d [] (t :: rest)) p more := by
  obtain ⟨h, read⟩ := gives
  rw [parseMapBody] at read
  by_cases close : t.isMark '}' = true
  · rw [if_pos close] at read
    cases read
    exact .inl ⟨close, rfl, rfl⟩
  · rw [if_neg close] at read
    exact .inr ⟨by simpa using close, h, read⟩

theorem parseListBody_gives_nil (gives : Gives (r.parseListBody d []) p more) : False := by
  obtain ⟨h, read⟩ := gives
  rw [parseListBody] at read
  cases read

theorem parseMapBody_gives_nil (gives : Gives (r.parseMapBody d []) p more) : False := by
  obtain ⟨h, read⟩ := gives
  rw [parseMapBody] at read
  cases read

theorem parseListItems_gives {acc : List (ParseTree r.options.coerceKeys)} {ts : List Token}
    (gives : Gives (r.parseListItems d acc ts) p more) :
    ∃ item t rest, Gives (r.parseValue d ts) item (t :: rest) ∧
      (t.isMark ']' = true ∧ p = .list (item :: acc).reverse ∧ more = rest ∨
        t.isMark ']' = false ∧ t.isMark ',' = true ∧
          Gives (r.parseListItems d (item :: acc) rest) p more) := by
  obtain ⟨h, read⟩ := gives
  rw [parseListItems] at read
  split at read
  · cases read
  rename_i _ item after _ itemRead
  split at read
  · cases read
  rename_i t rest hw
  refine ⟨item, t, rest, ⟨hw, itemRead⟩, ?_⟩
  split at read
  · rename_i close
    cases read
    exact .inl ⟨close, rfl, rfl⟩
  split at read
  · rename_i open_ comma
    split at read
    · rename_i _ h' next
      cases read
      exact .inr ⟨by simpa using open_, comma, h', next⟩
    · cases read
  · cases read

theorem parseKey_gives {k : KeyRead r.options.coerceKeys}
    (gives : Gives (r.parseKey (t :: rest)) k more) : more = rest := by
  obtain ⟨h, read⟩ := gives
  rw [parseKey] at read
  split at read
  · cases read
  split at read
  · split at read
    · cases read
      rfl
    · cases read
  · cases read
    rfl

theorem parseKey_gives_nil {k : KeyRead r.options.coerceKeys}
    (gives : Gives (r.parseKey []) k more) : False := by
  obtain ⟨h, read⟩ := gives
  cases read

theorem parseMapEntries_gives
    {acc : List (Member r.options.coerceKeys (ParseTree r.options.coerceKeys))} {ts : List Token}
    (gives : Gives (r.parseMapEntries d acc ts) p more) :
    ∃ key afterKey afterColon item t rest, Gives (r.parseKey ts) key afterKey ∧
      Gives (r.colon afterKey) () afterColon ∧ Gives (r.parseValue d afterColon) item (t :: rest) ∧
      (t.isMark '}' = true ∧ p = .object (⟨key.1.1, key.1.2, item, key.2⟩ :: acc).reverse ∧
          more = rest ∨
        t.isMark '}' = false ∧ t.isMark ',' = true ∧
          Gives (r.parseMapEntries d (⟨key.1.1, key.1.2, item, key.2⟩ :: acc) rest) p more) := by
  obtain ⟨h, read⟩ := gives
  rw [parseMapEntries] at read
  split at read
  · cases read
  rename_i _ key afterKey hk keyRead
  split at read
  · cases read
  rename_i _ afterColon hc colonRead
  split at read
  · cases read
  rename_i _ item after _ itemRead
  split at read
  · cases read
  rename_i t rest hv
  refine ⟨key, afterKey, afterColon, item, t, rest, ⟨hk, keyRead⟩, ⟨hc, colonRead⟩,
    ⟨hv, itemRead⟩, ?_⟩
  split at read
  · rename_i close
    cases read
    exact .inl ⟨close, rfl, rfl⟩
  split at read
  · rename_i open_ comma
    split at read
    · rename_i _ h' next
      cases read
      exact .inr ⟨by simpa using open_, comma, h', next⟩
    · cases read
  · cases read

theorem parseDocument_gives {doc : Option (ParseTree r.options.coerceKeys)}
    (read : r.parseDocument (t :: rest) = .ok doc) :
    ∃ p, doc = some p ∧ Gives (r.parseValue 0 (t :: rest)) p [] := by
  unfold parseDocument at read
  split at read
  · rename_i same
    cases same
  · split at read
    · cases read
    · rename_i h _
      cases read
      exact ⟨_, rfl, h, ‹_›⟩
    · cases read

/-! ### The lexemes a tree is read from -/

variable (r) in
/-- Reading fewer than `n` lexemes reads a tree from exactly as many lexemes as it has and
leaves the others: a value its `width`, the body of a list or object all of it but the opening
mark, and the items or members after those accumulated their own lexemes with the marks after
them. -/
structure Consumes (n : Nat) : Prop where
  value : ∀ {d : Nat} {ts more : List Token} {p : ParseTree r.options.coerceKeys},
    ts.length < n → Gives (r.parseValue d ts) p more →
    ∃ read, ts = read ++ more ∧ read.length = p.width
  listBody : ∀ {d : Nat} {ts more : List Token} {p : ParseTree r.options.coerceKeys},
    ts.length < n → Gives (r.parseListBody d ts) p more →
    ∃ items read, p = .list items ∧ ts = read ++ more ∧ read.length + 1 = p.width
  listItems : ∀ {d : Nat} {acc : List (ParseTree r.options.coerceKeys)} {ts more : List Token}
    {p : ParseTree r.options.coerceKeys}, ts.length < n → Gives (r.parseListItems d acc ts) p more →
    ∃ items read, items ≠ [] ∧ p = .list (acc.reverse ++ items) ∧ ts = read ++ more ∧
      read.length = ParseTree.itemsWidth items
  mapBody : ∀ {d : Nat} {ts more : List Token} {p : ParseTree r.options.coerceKeys},
    ts.length < n → Gives (r.parseMapBody d ts) p more →
    ∃ members read, p = .object members ∧ ts = read ++ more ∧ read.length + 1 = p.width
  mapEntries : ∀ {d : Nat}
    {acc : List (Member r.options.coerceKeys (ParseTree r.options.coerceKeys))}
    {ts more : List Token} {p : ParseTree r.options.coerceKeys}, ts.length < n →
    Gives (r.parseMapEntries d acc ts) p more →
    ∃ members read, members ≠ [] ∧ p = .object (acc.reverse ++ members) ∧ ts = read ++ more ∧
      read.length = ParseTree.membersWidth members

section Steps

variable {ts : List Token}

theorem value_consumes (below : r.Consumes ts.length) (gives : Gives (r.parseValue d ts) p more) :
    ∃ read, ts = read ++ more ∧ read.length = p.width := by
  cases ts with
  | nil => exact (parseValue_gives_nil gives).elim
  | cons t rest =>
      obtain ⟨-, ways⟩ := parseValue_gives gives
      rcases ways with ⟨-, ⟨s, -, rfl⟩, rfl⟩ | ⟨-, ⟨s, -, rfl⟩, rfl⟩ | ⟨-, rfl, rfl⟩ |
        ⟨-, body⟩ | ⟨-, body⟩
      · exact ⟨[t], rfl, rfl⟩
      · exact ⟨[t], rfl, rfl⟩
      · exact ⟨[t], rfl, rfl⟩
      · obtain ⟨items, read, -, split, size⟩ := below.listBody (by simp) body
        exact ⟨t :: read, by rw [split]; rfl, by simpa using size⟩
      · obtain ⟨members, read, -, split, size⟩ := below.mapBody (by simp) body
        exact ⟨t :: read, by rw [split]; rfl, by simpa using size⟩

theorem listItems_consumes {acc : List (ParseTree r.options.coerceKeys)}
    (below : r.Consumes ts.length) (gives : Gives (r.parseListItems d acc ts) p more) :
    ∃ items read, items ≠ [] ∧ p = .list (acc.reverse ++ items) ∧ ts = read ++ more ∧
      read.length = ParseTree.itemsWidth items := by
  obtain ⟨item, t, after, itemRead, ways⟩ := parseListItems_gives gives
  obtain ⟨itemLexemes, split, size⟩ := value_consumes below itemRead
  rcases ways with ⟨-, rfl, rfl⟩ | ⟨-, -, next⟩
  · refine ⟨[item], itemLexemes ++ [t], by simp, by simp, by simp [split], ?_⟩
    simp [ParseTree.itemsWidth, size]
  · have shorter : after.length < ts.length := by
      rw [split]
      simp
      omega
    obtain ⟨items, read, -, rfl, rfl, size'⟩ := below.listItems shorter next
    refine ⟨item :: items, itemLexemes ++ t :: read, by simp, by simp, by simp [split], ?_⟩
    simp only [ParseTree.itemsWidth, List.length_append, List.length_cons, size, size']
    omega

theorem listBody_consumes (below : r.Consumes ts.length)
    (gives : Gives (r.parseListBody d ts) p more) :
    ∃ items read, p = .list items ∧ ts = read ++ more ∧ read.length + 1 = p.width := by
  cases ts with
  | nil => exact (parseListBody_gives_nil gives).elim
  | cons t rest =>
      rcases parseListBody_gives gives with ⟨-, rfl, rfl⟩ | ⟨-, itemsRead⟩
      · exact ⟨[], [t], rfl, rfl, rfl⟩
      · obtain ⟨items, read, nonempty, rfl, split, size⟩ := listItems_consumes below itemsRead
        refine ⟨items, read, by simp, split, ?_⟩
        rw [List.reverse_nil, List.nil_append, ParseTree.width_list nonempty, size]
        omega

theorem mapEntries_consumes
    {acc : List (Member r.options.coerceKeys (ParseTree r.options.coerceKeys))}
    (below : r.Consumes ts.length) (gives : Gives (r.parseMapEntries d acc ts) p more) :
    ∃ members read, members ≠ [] ∧ p = .object (acc.reverse ++ members) ∧ ts = read ++ more ∧
      read.length = ParseTree.membersWidth members := by
  obtain ⟨key, afterKey, afterColon, item, t, after, keyRead, colonRead, itemRead, ways⟩ :=
    parseMapEntries_gives gives
  cases ts with
  | nil => exact (parseKey_gives_nil keyRead).elim
  | cons tk restKey =>
  obtain rfl := parseKey_gives keyRead
  cases afterKey with
  | nil => exact (colon_gives_nil colonRead).elim
  | cons tc restColon =>
  obtain ⟨-, rfl⟩ := colon_gives colonRead
  obtain ⟨itemLexemes, split, size⟩ := below.value (by simp) itemRead
  rcases ways with ⟨-, rfl, rfl⟩ | ⟨-, -, next⟩
  · refine ⟨[⟨key.1.1, key.1.2, item, key.2⟩], tk :: tc :: (itemLexemes ++ [t]), by simp, by simp,
      by simp [split], ?_⟩
    simp [ParseTree.membersWidth, size]
  · have shorter : after.length < (tk :: tc :: afterColon).length := by
      rw [split]
      simp
      omega
    obtain ⟨members, read, -, rfl, rfl, size'⟩ := below.mapEntries shorter next
    refine ⟨⟨key.1.1, key.1.2, item, key.2⟩ :: members, tk :: tc :: (itemLexemes ++ t :: read),
      by simp, by simp, by simp [split], ?_⟩
    simp only [ParseTree.membersWidth, List.length_cons, List.length_append, size, size']
    omega

theorem mapBody_consumes (below : r.Consumes ts.length)
    (gives : Gives (r.parseMapBody d ts) p more) :
    ∃ members read, p = .object members ∧ ts = read ++ more ∧ read.length + 1 = p.width := by
  cases ts with
  | nil => exact (parseMapBody_gives_nil gives).elim
  | cons t rest =>
      rcases parseMapBody_gives gives with ⟨-, rfl, rfl⟩ | ⟨-, entriesRead⟩
      · exact ⟨[], [t], rfl, rfl, rfl⟩
      · obtain ⟨members, read, nonempty, rfl, split, size⟩ :=
          mapEntries_consumes below entriesRead
        refine ⟨members, read, by simp, split, ?_⟩
        rw [List.reverse_nil, List.nil_append, ParseTree.width_object nonempty, size]
        omega

theorem Consumes.mono {n m : Nat} (consumes : r.Consumes n) (le : m ≤ n) : r.Consumes m :=
  ⟨fun short => consumes.value (by omega), fun short => consumes.listBody (by omega),
    fun short => consumes.listItems (by omega), fun short => consumes.mapBody (by omega),
    fun short => consumes.mapEntries (by omega)⟩

theorem Consumes.succ {n : Nat} (below : r.Consumes n) : r.Consumes (n + 1) :=
  ⟨fun short => value_consumes (below.mono (by omega)),
    fun short => listBody_consumes (below.mono (by omega)),
    fun short => listItems_consumes (below.mono (by omega)),
    fun short => mapBody_consumes (below.mono (by omega)),
    fun short => mapEntries_consumes (below.mono (by omega))⟩

end Steps

variable (r) in
/-- The induction on the number of lexemes left. -/
theorem consumes (n : Nat) : r.Consumes n := by
  induction n with
  | zero => exact ⟨nofun, nofun, nofun, nofun, nofun⟩
  | succ n below => exact below.succ

/-- **A tree is read from its own lexemes.** Reading a value reads its parse tree from the
first `width` lexemes and leaves the rest. -/
theorem parseValue_consumes {ts : List Token} (gives : Gives (r.parseValue d ts) p more) :
    ∃ read, ts = read ++ more ∧ read.length = p.width :=
  (r.consumes _).value (Nat.lt_succ_self _) gives

end Reader

end Ingest.Relaxed
