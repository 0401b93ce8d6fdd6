import Ingest.Relaxed.Reader

/-!
Contract: the parse tree of a relaxed document, and reading as building the value of that tree.

Owns: what a document says before its maps are built (`ParseTree`): scalars, lists, and object
literals whose members keep the order of the text, each member with the text its key decodes to
and the key the options make of that text (`KeyReads`, carried by the member itself); the
reader of that tree (`Reader.parseValue` and the rest), which descends step for step as
`Reader.value` does; and that reading a value is building the value of the tree read
(`Reader.value_eq_build`, `read_eq_readTree`), by induction on the number of lexemes left
(`Reader.Agree`).

Does not own: what looking a key up in a built map gives; that is `Relaxed.Lookup`.
-/

namespace Ingest.Relaxed

open Ingest.Text

/-- Whether `key` is the key the options make of the key text `text`: the scalar the text spells
under coercion, the text itself without. -/
def KeyReads (coerce : Bool) (text : Str) (key : Scalar) : Prop :=
  if coerce then coerceKey text = .ok key else key = .str text

/-- A member of an object literal: the text its key decodes to, the key made of that text, and
its value. -/
structure Member (coerce : Bool) (α : Type) where
  text : Str
  key : Scalar
  value : α
  keyReads : KeyReads coerce text key

/-- What a document says before its maps are built: scalars, lists, and object literals with
their members in the order of the text, repeated keys included. -/
inductive ParseTree (coerce : Bool) where
  | scalar (s : Scalar)
  | list (items : List (ParseTree coerce))
  | object (members : List (Member coerce (ParseTree coerce)))

namespace ParseTree

variable {coerce : Bool}

mutual

/-- The value a parse tree stands for: an object is the map built from its members in order,
slot by slot. -/
def build : ParseTree coerce → Value
  | .scalar s => .scalar s
  | .list items => .list (buildItems items)
  | .object members => .map (Entries.ofPairs (buildMembers members))

/-- The values of the items of a list. -/
def buildItems : List (ParseTree coerce) → List Value
  | [] => []
  | item :: rest => item.build :: buildItems rest

/-- The pairs of key and value of the members of an object. -/
def buildMembers : List (Member coerce (ParseTree coerce)) → List (Scalar × Value)
  | [] => []
  | ⟨_, key, value, _⟩ :: rest => (key, value.build) :: buildMembers rest

end

/-- The pair of key and value a member adds to its map. -/
def entry (m : Member coerce (ParseTree coerce)) : Scalar × Value :=
  (m.key, m.value.build)

theorem buildItems_eq (items : List (ParseTree coerce)) : buildItems items = items.map build := by
  induction items with
  | nil => rfl
  | cons item rest ih => rw [buildItems, ih, List.map_cons]

theorem buildMembers_eq (members : List (Member coerce (ParseTree coerce))) :
    buildMembers members = members.map entry := by
  induction members with
  | nil => rfl
  | cons m rest ih => rw [buildMembers, ih, List.map_cons]; rfl

/-- The entries of the map an object literal with these members builds. -/
def entries (members : List (Member coerce (ParseTree coerce))) : List (Scalar × Value) :=
  Entries.ofPairs (members.map entry)

theorem build_object (members : List (Member coerce (ParseTree coerce))) :
    (object members).build = .map (entries members) := by
  rw [build, buildMembers_eq, entries]

/-- The object literals of a tree at any depth, the tree itself, the items of its lists and the
values of its members included: `tree.HasObject members` when one of them has these members. -/
inductive HasObject : ParseTree coerce → List (Member coerce (ParseTree coerce)) → Prop
  | here (members : List (Member coerce (ParseTree coerce))) : HasObject (object members) members
  | item {items : List (ParseTree coerce)} {item : ParseTree coerce}
      {members : List (Member coerce (ParseTree coerce))} :
      item ∈ items → HasObject item members → HasObject (list items) members
  | member {others members : List (Member coerce (ParseTree coerce))}
      {m : Member coerce (ParseTree coerce)} :
      m ∈ others → HasObject m.value members → HasObject (object others) members

/-! ### Size and depth -/

mutual

/-- The number of lexemes a parse tree is read from: one for a scalar, the two marks of an empty
list or object, and otherwise the opening mark and each item or member with the comma or closing
mark after it. -/
def width : ParseTree coerce → Nat
  | .scalar _ => 1
  | .list [] => 2
  | .list items => 1 + itemsWidth items
  | .object [] => 2
  | .object members => 1 + membersWidth members

/-- The lexemes of the items of a list, each with the mark after it. -/
def itemsWidth : List (ParseTree coerce) → Nat
  | [] => 0
  | item :: rest => item.width + 1 + itemsWidth rest

/-- The lexemes of the members of an object, each with its key and colon before it and the mark
after it. -/
def membersWidth : List (Member coerce (ParseTree coerce)) → Nat
  | [] => 0
  | ⟨_, _, value, _⟩ :: rest => value.width + 3 + membersWidth rest

end

mutual

/-- The most containers that a value of a parse tree lies under, the tree itself lying under
none. An empty list or object holds no value. -/
def nesting : ParseTree coerce → Nat
  | .scalar _ => 0
  | .list items => itemsNesting items
  | .object members => membersNesting members

/-- The most containers that a value lies under among some items and their list. -/
def itemsNesting : List (ParseTree coerce) → Nat
  | [] => 0
  | item :: rest => max (item.nesting + 1) (itemsNesting rest)

/-- The most containers that a value lies under among some members and their object. -/
def membersNesting : List (Member coerce (ParseTree coerce)) → Nat
  | [] => 0
  | ⟨_, _, value, _⟩ :: rest => max (value.nesting + 1) (membersNesting rest)

end

mutual

/-- Where the first value of a tree at `level`, in the order of the text, that lies under more
than `m` containers starts, counted in lexemes from the first lexeme of the tree; `none` when
every value lies under at most `m`. A value at `level` lies under `level` containers, and the
items and member values of a list or object one more. -/
def firstDeep (m : Int) (level : Nat) (p : ParseTree coerce) : Option Nat :=
  if m < level then some 0
  else
    match p with
    | .scalar _ => none
    | .list items => (firstDeepItems m (level + 1) items).map (· + 1)
    | .object members => (firstDeepMembers m (level + 1) members).map (· + 1)

/-- Where the first value too deep among some items starts, counted from the first item. -/
def firstDeepItems (m : Int) (level : Nat) : List (ParseTree coerce) → Option Nat
  | [] => none
  | item :: rest =>
    (item.firstDeep m level).or ((firstDeepItems m level rest).map (· + (item.width + 1)))

/-- Where the first value too deep among some members starts, counted from the first key. -/
def firstDeepMembers (m : Int) (level : Nat) : List (Member coerce (ParseTree coerce)) → Option Nat
  | [] => none
  | ⟨_, _, value, _⟩ :: rest =>
    ((value.firstDeep m level).map (· + 2)).or
      ((firstDeepMembers m level rest).map (· + (value.width + 3)))

end

end ParseTree

/-- A reading of a parse tree as the reading of the value it builds, with the same lexemes
left. -/
def Parsed.build {coerce : Bool} {ts : List Token} (p : Parsed (ParseTree coerce) ts) :
    Parsed Value ts :=
  p.map fun q => ⟨(q.1.1.build, q.1.2), q.2⟩

namespace Reader

/-- The text of a key lexeme: a quoted string's text, or a bare name when the options allow
one. -/
def keyName (r : Reader) (t : Token) : Except ReadError Str :=
  match t.kind with
  | .string | .singleQuoted => r.stringText t
  | .name =>
    if r.options.unquotedKeys then pure (Str.ofChars t.raw)
    else fail (.unquotedKey t.raw) t.start
  | _ => fail (.expectedKey t.raw) t.start

/-- A key text together with the key the options make of it. -/
abbrev KeyRead (coerce : Bool) := { p : Str × Scalar // KeyReads coerce p.1 p.2 }

/-- Reads a map key together with its text. -/
def parseKey (r : Reader) : (ts : List Token) → Parsed (KeyRead r.options.coerceKeys) ts
  | [] => fail .unexpectedEnd r.textLength
  | t :: rest =>
    match r.keyName t with
    | .error e => .error e
    | .ok name =>
      if coerce : r.options.coerceKeys then
        match coerced : coerceKey name with
        | .ok k =>
          .ok ⟨(⟨(name, k), by rw [KeyReads, if_pos coerce]; exact coerced⟩, rest),
            Nat.lt_succ_self _⟩
        | .error e => .error (.digitLimit e)
      else .ok ⟨(⟨(name, .str name), by rw [KeyReads, if_neg coerce]⟩, rest), Nat.lt_succ_self _⟩

mutual

/-- Reads the parse tree of a value at a depth. -/
def parseValue (r : Reader) (depth : Nat) (ts : List Token) :
    Parsed (ParseTree r.options.coerceKeys) ts :=
  if r.options.maxDepth < depth then fail .tooDeep (r.offsetAt ts)
  else
    match ts with
    | [] => fail .unexpectedEnd r.textLength
    | t :: rest =>
      match t.kind with
      | .string | .singleQuoted => do
        let s ← r.stringText t
        pure ⟨(.scalar (.str s), rest), Nat.lt_succ_self _⟩
      | .number => do
        let s ← numberScalar t
        pure ⟨(.scalar s, rest), Nat.lt_succ_self _⟩
      | .literal => .ok ⟨(.scalar (literalScalar t.raw), rest), Nat.lt_succ_self _⟩
      | .name => fail (.expectedValue t.raw) t.start
      | .mark =>
        if t.raw = ['['] then
          match r.parseListBody (depth + 1) rest with
          | .ok ⟨p, h⟩ => .ok ⟨p, Nat.lt_succ_of_lt h⟩
          | .error e => .error e
        else if t.raw = ['{'] then
          match r.parseMapBody (depth + 1) rest with
          | .ok ⟨p, h⟩ => .ok ⟨p, Nat.lt_succ_of_lt h⟩
          | .error e => .error e
        else fail (.expectedValue t.raw) t.start
termination_by 3 * ts.length

/-- Reads the items of a list after its opening bracket. -/
def parseListBody (r : Reader) (depth : Nat) (ts : List Token) :
    Parsed (ParseTree r.options.coerceKeys) ts :=
  match ts with
  | [] => fail .unexpectedEnd r.textLength
  | t :: rest =>
    if t.isMark ']' then .ok ⟨(.list [], rest), Nat.lt_succ_self _⟩
    else r.parseListItems depth [] (t :: rest)
termination_by 3 * ts.length + 2

/-- Reads list items after those in `acc` (last first), up to the closing bracket. -/
def parseListItems (r : Reader) (depth : Nat) (acc : List (ParseTree r.options.coerceKeys))
    (ts : List Token) : Parsed (ParseTree r.options.coerceKeys) ts :=
  match r.parseValue depth ts with
  | .error e => .error e
  | .ok ⟨(v, after), h⟩ =>
    match after, h with
    | [], _ => fail .unexpectedEnd r.textLength
    | t :: rest, h =>
      have shorter : rest.length < ts.length := length_lt_of_cons h
      if t.isMark ']' then .ok ⟨(.list (v :: acc).reverse, rest), shorter⟩
      else if t.isMark ',' then
        match r.parseListItems depth (v :: acc) rest with
        | .ok ⟨p, h'⟩ => .ok ⟨p, Nat.lt_trans h' shorter⟩
        | .error e => .error e
      else fail (.expectedSeparator ']' t.raw) t.start
termination_by 3 * ts.length + 1

/-- Reads the members of an object after its opening brace. -/
def parseMapBody (r : Reader) (depth : Nat) (ts : List Token) :
    Parsed (ParseTree r.options.coerceKeys) ts :=
  match ts with
  | [] => fail .unexpectedEnd r.textLength
  | t :: rest =>
    if t.isMark '}' then .ok ⟨(.object [], rest), Nat.lt_succ_self _⟩
    else r.parseMapEntries depth [] (t :: rest)
termination_by 3 * ts.length + 2

/-- Reads object members after those in `acc` (last first), up to the closing brace. -/
def parseMapEntries (r : Reader) (depth : Nat)
    (acc : List (Member r.options.coerceKeys (ParseTree r.options.coerceKeys)))
    (ts : List Token) : Parsed (ParseTree r.options.coerceKeys) ts :=
  match r.parseKey ts with
  | .error e => .error e
  | .ok ⟨(key, afterKey), hk⟩ =>
    match r.colon afterKey with
    | .error e => .error e
    | .ok ⟨((), afterColon), hc⟩ =>
      have beforeValue : afterColon.length < ts.length := Nat.lt_trans hc hk
      match r.parseValue depth afterColon with
      | .error e => .error e
      | .ok ⟨(v, after), hv⟩ =>
        match after, hv with
        | [], _ => fail .unexpectedEnd r.textLength
        | t :: rest, hv =>
          have shorter : rest.length < ts.length := Nat.lt_trans (length_lt_of_cons hv) beforeValue
          if t.isMark '}' then
            .ok ⟨(.object (⟨key.1.1, key.1.2, v, key.2⟩ :: acc).reverse, rest), shorter⟩
          else if t.isMark ',' then
            match r.parseMapEntries depth (⟨key.1.1, key.1.2, v, key.2⟩ :: acc) rest with
            | .ok ⟨p, h'⟩ => .ok ⟨p, Nat.lt_trans h' shorter⟩
            | .error e => .error e
          else fail (.expectedSeparator '}' t.raw) t.start
termination_by 3 * ts.length + 1

end

/-- Reads the parse tree of a whole document: `none` when there is no lexeme. -/
def parseDocument (r : Reader) (ts : List Token) :
    Except ReadError (Option (ParseTree r.options.coerceKeys)) :=
  match ts with
  | [] => .ok none
  | _ =>
    match r.parseValue 0 ts with
    | .error e => .error e
    | .ok ⟨(v, []), _⟩ => .ok (some v)
    | .ok ⟨(_, t :: _), _⟩ => fail .extraData t.start

end Reader

/-- Reads the parse tree of a relaxed document: the tree, `none` for a text without lexemes, or
why it cannot be read. -/
def readTree (options : Options) (text : String) :
    Except ReadError (Option (ParseTree options.coerceKeys)) :=
  let cs := text.toList
  match Token.scan cs with
  | .error e => .error (.malformed e)
  | .ok ts => Reader.parseDocument ⟨options, cs.length⟩ ts

namespace Reader

variable (r : Reader)

/-- Reading a key reads its text first, then makes the key of it. -/
theorem key_cons (t : Token) (rest : List Token) :
    r.key (t :: rest) = (match r.keyName t with
      | .error e => .error e
      | .ok name => do
        let k ← if r.options.coerceKeys then
            match coerceKey name with
            | .ok k => pure k
            | .error e => .error (.digitLimit e)
          else pure (.str name)
        pure (⟨(k, rest), Nat.lt_succ_self _⟩ :
          { p : Scalar × List Token // p.2.length < (t :: rest).length })) := by
  rcases t with ⟨kind, raw, start⟩
  cases kind with
  | name =>
    unfold Reader.key keyName
    dsimp only
    cases r.options.unquotedKeys <;> rfl
  | string | singleQuoted =>
    unfold Reader.key keyName
    dsimp only
    cases r.stringText _ <;> rfl
  | _ => rfl

theorem key_eq_parseKey (ts : List Token) :
    r.key ts = (r.parseKey ts).map fun q => ⟨(q.1.1.1.2, q.1.2), q.2⟩ := by
  rcases ts with _ | ⟨t, rest⟩
  · rfl
  rw [key_cons, parseKey]
  cases r.keyName t with
  | error e => rfl
  | ok name =>
    dsimp only
    by_cases coerce : r.options.coerceKeys
    · rw [dif_pos coerce, if_pos coerce]
      -- the two sides match on the same coercion of the key text
      split <;> split <;> rename_i _ first _ second <;> rw [first] at second <;> cases second <;>
        rfl
    · rw [dif_neg coerce, if_neg coerce]
      rfl

/-- The descent and the parse agree on every list of fewer than `n` lexemes: each function of
the descent gives the value of the tree its parsing twin gives, or the same error. -/
structure Agree (n : Nat) : Prop where
  value : ∀ d (ts : List Token), ts.length < n →
    r.value d ts = Parsed.build (r.parseValue d ts)
  listBody : ∀ d (ts : List Token), ts.length < n →
    r.listBody d ts = Parsed.build (r.parseListBody d ts)
  listItems : ∀ d acc (ts : List Token), ts.length < n →
    r.listItems d (acc.map ParseTree.build) ts = Parsed.build (r.parseListItems d acc ts)
  mapBody : ∀ d (ts : List Token), ts.length < n →
    r.mapBody d ts = Parsed.build (r.parseMapBody d ts)
  mapEntries : ∀ d acc (ts : List Token), ts.length < n →
    r.mapEntries d (acc.map ParseTree.entry) ts = Parsed.build (r.parseMapEntries d acc ts)

section Steps

variable {r} {d : Nat} {ts : List Token}

theorem value_eq (below : r.Agree ts.length) :
    r.value d ts = Parsed.build (r.parseValue d ts) := by
  rcases ts with _ | ⟨⟨kind, raw, start⟩, rest⟩
  · rw [Reader.value, Reader.parseValue]
    by_cases deep : r.options.maxDepth < d
    · rw [if_pos deep, if_pos deep]
      rfl
    · rw [if_neg deep, if_neg deep]
      rfl
  rw [Reader.value, Reader.parseValue]
  by_cases deep : r.options.maxDepth < d
  · rw [if_pos deep, if_pos deep]
    rfl
  rw [if_neg deep, if_neg deep]
  have shorter : rest.length < (⟨kind, raw, start⟩ :: rest : List Token).length := by simp
  cases kind with
  | string | singleQuoted => dsimp only; cases r.stringText _ <;> rfl
  | number => dsimp only; cases numberScalar _ <;> rfl
  | literal | name => rfl
  | mark =>
    dsimp only
    -- an opening bracket or brace hands the rest to the body of a list or a map
    by_cases openList : raw = ['[']
    · rw [if_pos openList, if_pos openList, below.listBody _ rest shorter]
      cases r.parseListBody (d + 1) rest <;> rfl
    rw [if_neg openList, if_neg openList]
    by_cases openMap : raw = ['{']
    · rw [if_pos openMap, if_pos openMap, below.mapBody _ rest shorter]
      cases r.parseMapBody (d + 1) rest <;> rfl
    rw [if_neg openMap, if_neg openMap]
    rfl

theorem listItems_eq (below : r.Agree ts.length) (acc : List (ParseTree r.options.coerceKeys)) :
    r.listItems d (acc.map ParseTree.build) ts = Parsed.build (r.parseListItems d acc ts) := by
  rw [Reader.listItems, Reader.parseListItems, value_eq below]
  rcases r.parseValue d ts with e | ⟨⟨item, _ | ⟨t, rest⟩⟩, shorter⟩
  · rfl
  · rfl
  dsimp only [Parsed.build, Except.map]
  by_cases close : t.isMark ']'
  · rw [if_pos close, if_pos close]
    simp only [ParseTree.build, ParseTree.buildItems_eq, List.map_reverse, List.map_cons]
  rw [if_neg close, if_neg close]
  by_cases sep : t.isMark ','
  · rw [if_pos sep, if_pos sep]
    have next := below.listItems d (item :: acc) rest (by simp at shorter; omega)
    rw [List.map_cons] at next
    rw [next]
    cases r.parseListItems d (item :: acc) rest <;> rfl
  rw [if_neg sep, if_neg sep]
  rfl

theorem listBody_eq (below : r.Agree ts.length) :
    r.listBody d ts = Parsed.build (r.parseListBody d ts) := by
  rcases ts with _ | ⟨t, rest⟩ <;> rw [Reader.listBody, Reader.parseListBody]
  · rfl
  by_cases close : t.isMark ']'
  · rw [if_pos close, if_pos close]
    rfl
  rw [if_neg close, if_neg close]
  exact listItems_eq below []

theorem mapEntries_eq (below : r.Agree ts.length)
    (acc : List (Member r.options.coerceKeys (ParseTree r.options.coerceKeys))) :
    r.mapEntries d (acc.map ParseTree.entry) ts = Parsed.build (r.parseMapEntries d acc ts) := by
  rw [Reader.mapEntries, Reader.parseMapEntries, key_eq_parseKey]
  rcases r.parseKey ts with e | ⟨⟨key, afterKey⟩, hk⟩
  · rfl
  dsimp only [Except.map]
  rcases r.colon afterKey with e | ⟨⟨⟨⟩, afterColon⟩, hc⟩
  · rfl
  dsimp only
  rw [below.value d afterColon (Nat.lt_trans hc hk)]
  rcases r.parseValue d afterColon with e | ⟨⟨v, _ | ⟨t, rest⟩⟩, hv⟩
  · rfl
  · rfl
  dsimp only [Parsed.build, Except.map]
  by_cases close : t.isMark '}'
  · rw [if_pos close, if_pos close]
    simp only [ParseTree.build_object, ParseTree.entries, List.map_reverse, List.map_cons]
    rfl
  rw [if_neg close, if_neg close]
  by_cases sep : t.isMark ','
  · rw [if_pos sep, if_pos sep]
    have next : r.mapEntries d ((key.1.2, v.build) :: acc.map ParseTree.entry) rest = _ :=
      below.mapEntries d (⟨key.1.1, key.1.2, v, key.2⟩ :: acc) rest (by simp at hv hc hk; omega)
    rw [next]
    cases r.parseMapEntries d (⟨key.1.1, key.1.2, v, key.2⟩ :: acc) rest <;> rfl
  rw [if_neg sep, if_neg sep]
  rfl

theorem mapBody_eq (below : r.Agree ts.length) :
    r.mapBody d ts = Parsed.build (r.parseMapBody d ts) := by
  rcases ts with _ | ⟨t, rest⟩ <;> rw [Reader.mapBody, Reader.parseMapBody]
  · rfl
  by_cases close : t.isMark '}'
  · rw [if_pos close, if_pos close]
    simp only [Parsed.build, Except.map, ParseTree.build_object, ParseTree.entries, List.map_nil]
    rfl
  rw [if_neg close, if_neg close]
  exact mapEntries_eq below []

theorem Agree.mono {n m : Nat} (agree : r.Agree n) (le : m ≤ n) : r.Agree m :=
  ⟨fun d ts short => agree.value d ts (by omega),
    fun d ts short => agree.listBody d ts (by omega),
    fun d acc ts short => agree.listItems d acc ts (by omega),
    fun d ts short => agree.mapBody d ts (by omega),
    fun d acc ts short => agree.mapEntries d acc ts (by omega)⟩

/-- Agreeing below `n` lexemes, the descent and the parse agree on `n` lexemes as well: every
function reads what comes after the first lexeme, or hands the same lexemes to one that
does. -/
theorem Agree.succ {n : Nat} (below : r.Agree n) : r.Agree (n + 1) :=
  have cover : ∀ {ts : List Token}, ts.length < n + 1 → r.Agree ts.length :=
    fun short => below.mono (by omega)
  ⟨fun _ _ short => value_eq (cover short),
    fun _ _ short => listBody_eq (cover short),
    fun _ acc _ short => listItems_eq (cover short) acc,
    fun _ _ short => mapBody_eq (cover short),
    fun _ acc _ short => mapEntries_eq (cover short) acc⟩

end Steps

theorem agree (n : Nat) : r.Agree n := by
  induction n with
  | zero => exact ⟨nofun, nofun, nofun, nofun, nofun⟩
  | succ n below => exact below.succ

/-- **Reading a value is building the value of its parse tree**, with the same lexemes left,
or failing in the same way. -/
theorem value_eq_build (d : Nat) (ts : List Token) :
    r.value d ts = Parsed.build (r.parseValue d ts) :=
  value_eq (r.agree ts.length)

theorem document_eq (ts : List Token) :
    r.document ts = (r.parseDocument ts).map (Option.map ParseTree.build) := by
  rcases ts with _ | ⟨t, rest⟩
  · rfl
  rw [Reader.document, Reader.parseDocument, value_eq_build]
  · rcases r.parseValue 0 (t :: rest) with e | ⟨⟨v, _ | ⟨u, after⟩⟩, h⟩ <;> rfl
  · exact List.cons_ne_nil t rest
  · exact List.cons_ne_nil t rest

end Reader

/-- **Reading a document is building the value of its parse tree**, or failing in the same
way. -/
theorem read_eq_readTree (o : Options) (text : String) :
    read o text = (readTree o text).map (Option.map ParseTree.build) := by
  rw [read, readTree]
  cases Token.scan text.toList with
  | error e => rfl
  | ok ts => exact Reader.document_eq _ ts

end Ingest.Relaxed
