import Ingest.Proofs.Relaxed.Coercion
import Ingest.Proofs.Relaxed.Document
import Ingest.Proofs.Relaxed.Lookup

/-!
Contract: reading a document with its keys coerced gives what reading it without gives, each map
key replaced by its coercion, unless some key has too many digits to be coerced.

Owns: the relation between a tree and the same tree with its keys coerced (`KeysCoerced`), and
the trees in which no two key texts of a map coerce into one slot (`KeepsSlots`); the lockstep of
the two readers, function by function of the descent (`Reader.Rekeys`, `Reader.recoerces`): both
give related results, or both fail with one syntax error, or the coercing reader is refused a key
whose coercion fails; that the reader without coercion is never refused
(`Reader.neverRefused`); and from these the two readings of any text (`read_coercedKeys`),
with a text that only the coercing reader refuses (`read_paddedKeySample`).

Does not own: what the coercion of one key is, which is `Relaxed.Coercion`.

## Why the results are related and not equal

The two readers take the same steps over the same lexemes, since coercing a key consumes nothing
and never turns into a syntax error. What differs is only the keys, and a map built from pairs
merges the pairs whose keys share a slot: two texts such as `1` and `01` are two entries without
coercion and one entry with it. So the entries of the two maps line up one to one only when no
two key texts of a map coerce into one slot, and the relation on trees is stated under that
condition (`Recoerced`), which lets it pass through every map built on the way.
-/

namespace Ingest.Relaxed

open Ingest.Text

/-! ### Trees with their keys coerced -/

/-- A key read without coercion, which is its text, and the same key read with it. -/
def KeyRecoerced (a b : Scalar) : Prop :=
  ∃ text, a = .str text ∧ coerceKey text = .ok b

/-- `w` is `v` with every map key, at every depth, replaced by the scalar its text coerces to:
the same items and the same entries, in the same order. -/
inductive KeysCoerced : Value → Value → Prop
  | scalar (s : Scalar) : KeysCoerced (.scalar s) (.scalar s)
  | list {vs ws : List Value} : vs.length = ws.length → (∀ p ∈ vs.zip ws, KeysCoerced p.1 p.2) →
      KeysCoerced (.list vs) (.list ws)
  | map {es fs : List (Scalar × Value)} : es.length = fs.length →
      (∀ p ∈ es.zip fs, KeyRecoerced p.1.1 p.2.1) → (∀ p ∈ es.zip fs, KeysCoerced p.1.2 p.2.2) →
      KeysCoerced (.map es) (.map fs)

/-- No two entries whose key texts differ coerce into one slot. -/
def SlotsApart (entries : List (Scalar × Value)) : Prop :=
  ∀ e ∈ entries, ∀ e' ∈ entries, ∀ (a b : Str) (ka kb : Scalar), e.1 = .str a → e'.1 = .str b →
    a ≠ b → coerceKey a = .ok ka → coerceKey b = .ok kb → ka.sameSlot kb = false

/-- No map of the tree, at any depth, holds two keys whose texts differ but coerce into one
slot. -/
inductive KeepsSlots : Value → Prop
  | scalar (s : Scalar) : KeepsSlots (.scalar s)
  | list {vs : List Value} : (∀ v ∈ vs, KeepsSlots v) → KeepsSlots (.list vs)
  | map {es : List (Scalar × Value)} : SlotsApart es → (∀ e ∈ es, KeepsSlots e.2) →
      KeepsSlots (.map es)

/-- What reading with keys coerced makes of a value that reading without gives: the value with
its keys coerced, unless two keys of one map collide. -/
def Recoerced (v w : Value) : Prop :=
  KeepsSlots v → KeysCoerced v w

/-- A pair of a map read without coercion and the same pair read with it. -/
def PairRecoerced (p q : Scalar × Value) : Prop :=
  KeyRecoerced p.1 q.1 ∧ Recoerced p.2 q.2

namespace Recoerced

theorem scalar (s : Scalar) : Recoerced (.scalar s) (.scalar s) :=
  fun _ => .scalar s

theorem list {vs ws : List Value} (items : List.Forall₂ Recoerced vs ws) :
    Recoerced (.list vs) (.list ws) := by
  intro keeps
  cases keeps with
  | list each =>
    obtain ⟨lengths, zipped⟩ := List.forall₂_iff_zip.mp items
    exact .list lengths fun p member => zipped member (each p.1 (List.of_mem_zip member).1)

/-- Two texts share a slot exactly when their coercions do, as long as differing texts in the map
never coerce into one slot. -/
theorem alike_of_apart {ps qs : List (Scalar × Value)} (pairs : List.Forall₂ PairRecoerced ps qs)
    (apart : SlotsApart (Entries.ofPairs ps)) :
    ∀ x ∈ ps.zip qs, ∀ y ∈ ps.zip qs, x.1.1.sameSlot y.1.1 = x.2.1.sameSlot y.2.1 := by
  have zipped : ∀ {a b}, (a, b) ∈ ps.zip qs → PairRecoerced a b := (List.forall₂_iff_zip.mp pairs).2
  -- a text key of a pair is the key of an entry of the map
  have entry : ∀ p ∈ ps, ∀ a, p.1 = .str a → ∃ e ∈ Entries.ofPairs ps, e.1 = .str a := by
    intro p member a text
    obtain ⟨e, inMap, slot⟩ := Entries.exists_entry member (by simp [text, Scalar.sameSlot])
    exact ⟨e, inMap, Scalar.eq_of_sameSlot_str (text ▸ slot)⟩
  intro x xMember y yMember
  obtain ⟨⟨a, textA, coercedA⟩, -⟩ := zipped xMember
  obtain ⟨⟨b, textB, coercedB⟩, -⟩ := zipped yMember
  rw [textA, textB]
  by_cases same : a = b
  · subst same
    have keys : x.2.1 = y.2.1 := Except.ok.inj (coercedA.symm.trans coercedB)
    rw [← keys, coerceKey_sameSlot_self coercedA]
    simp [Scalar.sameSlot]
  · obtain ⟨e, eMember, eKey⟩ := entry x.1 (List.of_mem_zip xMember).1 a textA
    obtain ⟨e', eMember', eKey'⟩ := entry y.1 (List.of_mem_zip yMember).1 b textB
    rw [apart e eMember e' eMember' a b _ _ eKey eKey' same coercedA coercedB]
    simp [Scalar.sameSlot, same]

theorem map {ps qs : List (Scalar × Value)} (pairs : List.Forall₂ PairRecoerced ps qs) :
    Recoerced (.map (Entries.ofPairs ps)) (.map (Entries.ofPairs qs)) := by
  intro keeps
  cases keeps with
  | map apart each =>
    have aligned := Entries.forall₂_ofPairs pairs.length_eq (alike_of_apart pairs apart)
    obtain ⟨lengths, zipped⟩ := List.forall₂_iff_zip.mp aligned
    have pair : ∀ {a b}, (a, b) ∈ ps.zip qs → PairRecoerced a b := (List.forall₂_iff_zip.mp pairs).2
    exact .map lengths (fun p member => (pair (zipped member)).1)
      fun p member => (pair (zipped member)).2 (each p.1 (List.of_mem_zip member).1)

end Recoerced

namespace Reader

/-- The reader with key coercion switched on or off, and every other option kept. -/
def coercing (r : Reader) (coerce : Bool) : Reader :=
  { r with options := { r.options with coerceKeys := coerce } }

variable (r : Reader) (coerce : Bool)

theorem coercing_maxDepth : (r.coercing coerce).options.maxDepth = r.options.maxDepth := rfl
theorem coercing_coerceKeys : (r.coercing coerce).options.coerceKeys = coerce := rfl
theorem stringText_coercing (t : Token) : (r.coercing coerce).stringText t = r.stringText t := rfl
theorem keyName_coercing (t : Token) : (r.coercing coerce).keyName t = r.keyName t := rfl
theorem colon_coercing (ts : List Token) : (r.coercing coerce).colon ts = r.colon ts := rfl

/-! ### Syntax errors -/

variable {r}

theorem fail_eq_error {α : Type} {f : Fault} {offset : Nat} {e : ReadError}
    (failed : (fail f offset : Except ReadError α) = .error e) : e = .malformed ⟨f, offset⟩ := by
  cases failed
  rfl

theorem stringText_error {t : Token} {e : ReadError} (failed : r.stringText t = .error e) :
    ∃ m, e = .malformed m := by
  unfold stringText at failed
  dsimp only at failed
  by_cases refused : t.kind = .singleQuoted ∧ (!r.options.singleQuotes) = true
  · rw [if_pos refused] at failed
    exact ⟨_, fail_eq_error failed⟩
  · rw [if_neg refused] at failed
    generalize readLiteral _ = literal at failed
    rcases literal with ⟨f, pos⟩ | s
    · exact ⟨_, fail_eq_error failed⟩
    · cases failed

theorem numberScalar_error {t : Token} {e : ReadError} (failed : numberScalar t = .error e) :
    ∃ m, e = .malformed m := by
  unfold numberScalar at failed
  by_cases point : t.raw.any (fun c => c = '.' ∨ c = 'e' ∨ c = 'E') = true
  · rw [if_pos point] at failed
    cases numeral : Decimal.Numeral.read? t.raw with
    | none => rw [numeral] at failed; exact ⟨_, fail_eq_error failed⟩
    | some n => rw [numeral] at failed; cases failed
  · rw [if_neg point] at failed
    by_cases long : t.raw.length > integerLimit
    · rw [if_pos long] at failed
      exact ⟨_, fail_eq_error failed⟩
    · rw [if_neg long] at failed
      cases failed

theorem keyName_error {t : Token} {e : ReadError} (failed : r.keyName t = .error e) :
    ∃ m, e = .malformed m := by
  unfold keyName at failed
  split at failed
  · exact stringText_error failed
  · exact stringText_error failed
  · by_cases bare : r.options.unquotedKeys = true
    · rw [if_pos bare] at failed
      cases failed
    · rw [if_neg bare] at failed
      exact ⟨_, fail_eq_error failed⟩
  · exact ⟨_, fail_eq_error failed⟩

theorem colon_error {ts : List Token} {e : ReadError} (failed : r.colon ts = .error e) :
    ∃ m, e = .malformed m := by
  rcases ts with _ | ⟨t, rest⟩
  · exact ⟨_, fail_eq_error failed⟩
  · rw [colon] at failed
    by_cases mark : t.isMark ':' = true
    · rw [if_pos mark] at failed
      cases failed
    · rw [if_neg mark] at failed
      exact ⟨_, fail_eq_error failed⟩

/-! ### Reading with keys coerced and without -/

/-- How reading with keys coerced follows the same reading without: both give results that `R`
relates; or both fail with the same syntax error; or reading with keys coerced is refused a
key. -/
inductive Rekeys {γ δ : Type} (R : γ → δ → Prop) : Except ReadError γ → Except ReadError δ → Prop
  | ok {a : γ} {b : δ} : R a b → Rekeys R (.ok a) (.ok b)
  | malformed (e : SyntaxError) : Rekeys R (.error (.malformed e)) (.error (.malformed e))
  | refused {x : Except ReadError γ} (l : DigitLimit) :
      (∃ name, coerceKey name = .error l) → Rekeys R x (.error (.digitLimit l))

/-- Two readings of the same lexemes that give what `R` relates and leave the same lexemes. -/
def Leaves {α β : Type} (R : α → β → Prop) {ts : List Token}
    (p : { p : α × List Token // p.2.length < ts.length })
    (q : { q : β × List Token // q.2.length < ts.length }) : Prop :=
  p.1.2 = q.1.2 ∧ R p.1.1 q.1.1

theorem key_rekeys (r : Reader) (ts : List Token) :
    Rekeys (Leaves KeyRecoerced) ((r.coercing false).key ts) ((r.coercing true).key ts) := by
  rcases ts with _ | ⟨t, rest⟩
  · exact .malformed _
  rw [key_cons, key_cons, keyName_coercing, keyName_coercing]
  cases named : r.keyName t with
  | error e =>
    obtain ⟨m, rfl⟩ := keyName_error named
    exact .malformed m
  | ok name =>
    simp only [coercing_coerceKeys, if_true, Bool.false_eq_true, if_false]
    cases coerced : coerceKey name with
    | error l => exact .refused l ⟨name, coerced⟩
    | ok k => exact .ok ⟨rfl, name, rfl, coerced⟩

variable (r : Reader)

/-- Reading fewer than `n` lexemes with keys coerced follows reading them without, each
function of the descent with its twin, from accumulators that follow each other. -/
structure Recoerces (n : Nat) : Prop where
  value : ∀ {d : Nat} {ts : List Token}, ts.length < n →
    Rekeys (Leaves Recoerced) ((r.coercing false).value d ts) ((r.coercing true).value d ts)
  listBody : ∀ {d : Nat} {ts : List Token}, ts.length < n →
    Rekeys (Leaves Recoerced) ((r.coercing false).listBody d ts) ((r.coercing true).listBody d ts)
  listItems : ∀ {d : Nat} {acc acc' : List Value} {ts : List Token}, ts.length < n →
    List.Forall₂ Recoerced acc acc' →
    Rekeys (Leaves Recoerced) ((r.coercing false).listItems d acc ts)
      ((r.coercing true).listItems d acc' ts)
  mapBody : ∀ {d : Nat} {ts : List Token}, ts.length < n →
    Rekeys (Leaves Recoerced) ((r.coercing false).mapBody d ts) ((r.coercing true).mapBody d ts)
  mapEntries : ∀ {d : Nat} {acc acc' : List (Scalar × Value)} {ts : List Token}, ts.length < n →
    List.Forall₂ PairRecoerced acc acc' →
    Rekeys (Leaves Recoerced) ((r.coercing false).mapEntries d acc ts)
      ((r.coercing true).mapEntries d acc' ts)

section Steps

variable {r} {d : Nat} {ts : List Token}

theorem value_rekeys (below : r.Recoerces ts.length) :
    Rekeys (Leaves Recoerced) ((r.coercing false).value d ts) ((r.coercing true).value d ts) := by
  unfold Reader.value
  rw [coercing_maxDepth, coercing_maxDepth]
  by_cases deep : r.options.maxDepth < d
  · rw [if_pos deep, if_pos deep]
    exact .malformed _
  rw [if_neg deep, if_neg deep]
  rcases ts with _ | ⟨⟨kind, raw, start⟩, rest⟩
  · exact .malformed _
  have shorter : rest.length < (⟨kind, raw, start⟩ :: rest : List Token).length := by simp
  cases kind with
  | string | singleQuoted =>
    dsimp only
    rw [stringText_coercing, stringText_coercing]
    cases text : r.stringText _ with
    | error e =>
      obtain ⟨m, rfl⟩ := stringText_error text
      exact .malformed m
    | ok s => exact .ok ⟨rfl, Recoerced.scalar _⟩
  | number =>
    dsimp only
    cases scalar : numberScalar _ with
    | error e =>
      obtain ⟨m, rfl⟩ := numberScalar_error scalar
      exact .malformed m
    | ok s => exact .ok ⟨rfl, Recoerced.scalar _⟩
  | literal => exact .ok ⟨rfl, Recoerced.scalar _⟩
  | name => exact .malformed _
  | mark =>
    dsimp only
    -- the body of a list or a map is read on both sides, and its result passed on
    by_cases openList : raw = ['[']
    · rw [if_pos openList, if_pos openList]
      have body := below.listBody (d := d + 1) shorter
      generalize (r.coercing false).listBody (d + 1) rest = x at body ⊢
      generalize (r.coercing true).listBody (d + 1) rest = y at body ⊢
      cases body with
      | ok related => exact .ok related
      | malformed e => exact .malformed e
      | refused l refusal => exact .refused l refusal
    rw [if_neg openList, if_neg openList]
    by_cases openMap : raw = ['{']
    · rw [if_pos openMap, if_pos openMap]
      have body := below.mapBody (d := d + 1) shorter
      generalize (r.coercing false).mapBody (d + 1) rest = x at body ⊢
      generalize (r.coercing true).mapBody (d + 1) rest = y at body ⊢
      cases body with
      | ok related => exact .ok related
      | malformed e => exact .malformed e
      | refused l refusal => exact .refused l refusal
    rw [if_neg openMap, if_neg openMap]
    exact .malformed _

theorem listItems_rekeys {acc acc' : List Value} (below : r.Recoerces ts.length)
    (items : List.Forall₂ Recoerced acc acc') :
    Rekeys (Leaves Recoerced) ((r.coercing false).listItems d acc ts)
      ((r.coercing true).listItems d acc' ts) := by
  unfold Reader.listItems
  have item := value_rekeys (d := d) below
  generalize (r.coercing false).value d ts = x at item ⊢
  generalize (r.coercing true).value d ts = y at item ⊢
  cases item with
  | malformed e => exact .malformed e
  | refused l refusal => exact .refused l refusal
  | @ok p q leaves =>
    obtain ⟨⟨a, after⟩, h⟩ := p
    obtain ⟨⟨b, after'⟩, h'⟩ := q
    dsimp only [Leaves] at leaves
    obtain ⟨rfl, related⟩ := leaves
    rcases after with _ | ⟨t, rest⟩
    · exact .malformed _
    dsimp only
    by_cases close : t.isMark ']' = true
    · rw [if_pos close, if_pos close]
      exact .ok ⟨rfl, Recoerced.list (List.forall₂_reverse_iff.mpr (.cons related items))⟩
    rw [if_neg close, if_neg close]
    by_cases comma : t.isMark ',' = true
    · rw [if_pos comma, if_pos comma]
      have shorter : rest.length < ts.length := by simp at h; omega
      have next := below.listItems (d := d) shorter (.cons related items)
      generalize (r.coercing false).listItems d (a :: acc) rest = x at next ⊢
      generalize (r.coercing true).listItems d (b :: acc') rest = y at next ⊢
      cases next with
      | ok related => exact .ok related
      | malformed e => exact .malformed e
      | refused l refusal => exact .refused l refusal
    rw [if_neg comma, if_neg comma]
    exact .malformed _

theorem listBody_rekeys (below : r.Recoerces ts.length) :
    Rekeys (Leaves Recoerced) ((r.coercing false).listBody d ts)
      ((r.coercing true).listBody d ts) := by
  unfold Reader.listBody
  rcases ts with _ | ⟨t, rest⟩
  · exact .malformed _
  dsimp only
  by_cases close : t.isMark ']' = true
  · rw [if_pos close, if_pos close]
    exact .ok ⟨rfl, Recoerced.list .nil⟩
  rw [if_neg close, if_neg close]
  exact listItems_rekeys below .nil

theorem mapEntries_rekeys {acc acc' : List (Scalar × Value)} (below : r.Recoerces ts.length)
    (pairs : List.Forall₂ PairRecoerced acc acc') :
    Rekeys (Leaves Recoerced) ((r.coercing false).mapEntries d acc ts)
      ((r.coercing true).mapEntries d acc' ts) := by
  unfold Reader.mapEntries
  have key := key_rekeys r ts
  generalize (r.coercing false).key ts = x at key ⊢
  generalize (r.coercing true).key ts = y at key ⊢
  cases key with
  | malformed e => exact .malformed e
  | refused l refusal => exact .refused l refusal
  | @ok p q leaves =>
    obtain ⟨⟨k, afterKey⟩, hk⟩ := p
    obtain ⟨⟨k', afterKey'⟩, hk'⟩ := q
    dsimp only [Leaves] at leaves
    obtain ⟨rfl, keyed⟩ := leaves
    dsimp only
    rw [colon_coercing, colon_coercing]
    cases colon : r.colon afterKey with
    | error e =>
      obtain ⟨m, rfl⟩ := colon_error colon
      exact .malformed m
    | ok c =>
      obtain ⟨⟨⟨⟩, afterColon⟩, hc⟩ := c
      dsimp only
      have item := below.value (d := d) (Nat.lt_trans hc hk)
      generalize (r.coercing false).value d afterColon = x at item ⊢
      generalize (r.coercing true).value d afterColon = y at item ⊢
      cases item with
      | malformed e => exact .malformed e
      | refused l refusal => exact .refused l refusal
      | @ok p q leaves =>
        obtain ⟨⟨a, after⟩, hv⟩ := p
        obtain ⟨⟨b, after'⟩, hv'⟩ := q
        dsimp only [Leaves] at leaves
        obtain ⟨rfl, related⟩ := leaves
        have pair : PairRecoerced (k, a) (k', b) := ⟨keyed, related⟩
        rcases after with _ | ⟨t, rest⟩
        · exact .malformed _
        dsimp only
        by_cases close : t.isMark '}' = true
        · rw [if_pos close, if_pos close]
          exact .ok ⟨rfl, Recoerced.map (List.forall₂_reverse_iff.mpr (.cons pair pairs))⟩
        rw [if_neg close, if_neg close]
        by_cases comma : t.isMark ',' = true
        · rw [if_pos comma, if_pos comma]
          have shorter : rest.length < ts.length := by simp at hv hc hk; omega
          have next := below.mapEntries (d := d) shorter (.cons pair pairs)
          generalize (r.coercing false).mapEntries d ((k, a) :: acc) rest = x at next ⊢
          generalize (r.coercing true).mapEntries d ((k', b) :: acc') rest = y at next ⊢
          cases next with
          | ok related => exact .ok related
          | malformed e => exact .malformed e
          | refused l refusal => exact .refused l refusal
        rw [if_neg comma, if_neg comma]
        exact .malformed _

theorem mapBody_rekeys (below : r.Recoerces ts.length) :
    Rekeys (Leaves Recoerced) ((r.coercing false).mapBody d ts)
      ((r.coercing true).mapBody d ts) := by
  unfold Reader.mapBody
  rcases ts with _ | ⟨t, rest⟩
  · exact .malformed _
  dsimp only
  by_cases close : t.isMark '}' = true
  · rw [if_pos close, if_pos close]
    exact .ok ⟨rfl, Recoerced.map (List.Forall₂.nil (R := PairRecoerced))⟩
  rw [if_neg close, if_neg close]
  exact mapEntries_rekeys below .nil

theorem Recoerces.mono {n m : Nat} (recoerces : r.Recoerces n) (le : m ≤ n) : r.Recoerces m :=
  ⟨fun short => recoerces.value (by omega), fun short => recoerces.listBody (by omega),
    fun short => recoerces.listItems (by omega), fun short => recoerces.mapBody (by omega),
    fun short => recoerces.mapEntries (by omega)⟩

theorem Recoerces.succ {n : Nat} (below : r.Recoerces n) : r.Recoerces (n + 1) :=
  have cover : ∀ {ts : List Token}, ts.length < n + 1 → r.Recoerces ts.length :=
    fun short => below.mono (by omega)
  ⟨fun short => value_rekeys (cover short), fun short => listBody_rekeys (cover short),
    fun short => listItems_rekeys (cover short), fun short => mapBody_rekeys (cover short),
    fun short => mapEntries_rekeys (cover short)⟩

end Steps

theorem recoerces (n : Nat) : r.Recoerces n := by
  induction n with
  | zero => exact ⟨fun short => absurd short (Nat.not_lt_zero _),
      fun short => absurd short (Nat.not_lt_zero _), fun short => absurd short (Nat.not_lt_zero _),
      fun short => absurd short (Nat.not_lt_zero _), fun short => absurd short (Nat.not_lt_zero _)⟩
  | succ n below => exact below.succ

/-! ### Reading without coercion is never refused -/

/-- A result of reading without coercing keys: a reading, or a syntax error. -/
inductive Unrefused {α : Type} : Except ReadError α → Prop
  | ok (a : α) : Unrefused (.ok a)
  | malformed (e : SyntaxError) : Unrefused (.error (.malformed e))

theorem key_unrefused (r : Reader) (ts : List Token) : Unrefused ((r.coercing false).key ts) := by
  rcases ts with _ | ⟨t, rest⟩
  · exact .malformed _
  rw [key_cons, keyName_coercing]
  cases named : r.keyName t with
  | error e =>
    obtain ⟨m, rfl⟩ := keyName_error named
    exact .malformed m
  | ok name => exact .ok _

/-- Reading fewer than `n` lexemes without coercing keys, by any function of the descent, is
never refused. -/
structure NeverRefused (n : Nat) : Prop where
  value : ∀ {d : Nat} {ts : List Token}, ts.length < n → Unrefused ((r.coercing false).value d ts)
  listBody : ∀ {d : Nat} {ts : List Token}, ts.length < n →
    Unrefused ((r.coercing false).listBody d ts)
  listItems : ∀ {d : Nat} {acc : List Value} {ts : List Token}, ts.length < n →
    Unrefused ((r.coercing false).listItems d acc ts)
  mapBody : ∀ {d : Nat} {ts : List Token}, ts.length < n →
    Unrefused ((r.coercing false).mapBody d ts)
  mapEntries : ∀ {d : Nat} {acc : List (Scalar × Value)} {ts : List Token}, ts.length < n →
    Unrefused ((r.coercing false).mapEntries d acc ts)

section Steps

variable {r} {d : Nat} {ts : List Token}

theorem value_unrefused (below : r.NeverRefused ts.length) :
    Unrefused ((r.coercing false).value d ts) := by
  unfold Reader.value
  by_cases deep : (r.coercing false).options.maxDepth < d
  · rw [if_pos deep]
    exact .malformed _
  rw [if_neg deep]
  rcases ts with _ | ⟨⟨kind, raw, start⟩, rest⟩
  · exact .malformed _
  have shorter : rest.length < (⟨kind, raw, start⟩ :: rest : List Token).length := by simp
  cases kind with
  | string | singleQuoted =>
    dsimp only
    cases text : (r.coercing false).stringText _ with
    | error e =>
      obtain ⟨m, rfl⟩ := stringText_error text
      exact .malformed m
    | ok s => exact .ok _
  | number =>
    dsimp only
    cases scalar : numberScalar _ with
    | error e =>
      obtain ⟨m, rfl⟩ := numberScalar_error scalar
      exact .malformed m
    | ok s => exact .ok _
  | literal => exact .ok _
  | name => exact .malformed _
  | mark =>
    dsimp only
    by_cases openList : raw = ['[']
    · rw [if_pos openList]
      have body := below.listBody (d := d + 1) shorter
      generalize (r.coercing false).listBody (d + 1) rest = x at body ⊢
      cases body with
      | ok => exact .ok _
      | malformed e => exact .malformed e
    rw [if_neg openList]
    by_cases openMap : raw = ['{']
    · rw [if_pos openMap]
      have body := below.mapBody (d := d + 1) shorter
      generalize (r.coercing false).mapBody (d + 1) rest = x at body ⊢
      cases body with
      | ok => exact .ok _
      | malformed e => exact .malformed e
    rw [if_neg openMap]
    exact .malformed _

theorem listItems_unrefused {acc : List Value} (below : r.NeverRefused ts.length) :
    Unrefused ((r.coercing false).listItems d acc ts) := by
  unfold Reader.listItems
  have item := value_unrefused (d := d) below
  generalize (r.coercing false).value d ts = x at item ⊢
  cases item with
  | malformed e => exact .malformed e
  | ok p =>
    obtain ⟨⟨a, after⟩, h⟩ := p
    rcases after with _ | ⟨t, rest⟩
    · exact .malformed _
    dsimp only
    by_cases close : t.isMark ']' = true
    · rw [if_pos close]
      exact .ok _
    rw [if_neg close]
    by_cases comma : t.isMark ',' = true
    · rw [if_pos comma]
      have shorter : rest.length < ts.length := by simp at h; omega
      have next : Unrefused ((r.coercing false).listItems d (a :: acc) rest) :=
        below.listItems shorter
      generalize (r.coercing false).listItems d (a :: acc) rest = x at next ⊢
      cases next with
      | ok => exact .ok _
      | malformed e => exact .malformed e
    rw [if_neg comma]
    exact .malformed _

theorem listBody_unrefused (below : r.NeverRefused ts.length) :
    Unrefused ((r.coercing false).listBody d ts) := by
  unfold Reader.listBody
  rcases ts with _ | ⟨t, rest⟩
  · exact .malformed _
  dsimp only
  by_cases close : t.isMark ']' = true
  · rw [if_pos close]
    exact .ok _
  rw [if_neg close]
  exact listItems_unrefused below

theorem mapEntries_unrefused {acc : List (Scalar × Value)} (below : r.NeverRefused ts.length) :
    Unrefused ((r.coercing false).mapEntries d acc ts) := by
  unfold Reader.mapEntries
  have key := key_unrefused r ts
  generalize (r.coercing false).key ts = x at key ⊢
  cases key with
  | malformed e => exact .malformed e
  | ok p =>
    obtain ⟨⟨k, afterKey⟩, hk⟩ := p
    dsimp only
    rw [colon_coercing]
    cases colon : r.colon afterKey with
    | error e =>
      obtain ⟨m, rfl⟩ := colon_error colon
      exact .malformed m
    | ok c =>
      obtain ⟨⟨⟨⟩, afterColon⟩, hc⟩ := c
      dsimp only
      have item := below.value (d := d) (Nat.lt_trans hc hk)
      generalize (r.coercing false).value d afterColon = x at item ⊢
      cases item with
      | malformed e => exact .malformed e
      | ok p =>
        obtain ⟨⟨a, after⟩, hv⟩ := p
        rcases after with _ | ⟨t, rest⟩
        · exact .malformed _
        dsimp only
        by_cases close : t.isMark '}' = true
        · rw [if_pos close]
          exact .ok _
        rw [if_neg close]
        by_cases comma : t.isMark ',' = true
        · rw [if_pos comma]
          have shorter : rest.length < ts.length := by simp at hv hc hk; omega
          have next : Unrefused ((r.coercing false).mapEntries d ((k, a) :: acc) rest) :=
            below.mapEntries shorter
          generalize (r.coercing false).mapEntries d ((k, a) :: acc) rest = x at next ⊢
          cases next with
          | ok => exact .ok _
          | malformed e => exact .malformed e
        rw [if_neg comma]
        exact .malformed _

theorem mapBody_unrefused (below : r.NeverRefused ts.length) :
    Unrefused ((r.coercing false).mapBody d ts) := by
  unfold Reader.mapBody
  rcases ts with _ | ⟨t, rest⟩
  · exact .malformed _
  dsimp only
  by_cases close : t.isMark '}' = true
  · rw [if_pos close]
    exact .ok _
  rw [if_neg close]
  exact mapEntries_unrefused below

theorem NeverRefused.mono {n m : Nat} (never : r.NeverRefused n) (le : m ≤ n) :
    r.NeverRefused m :=
  ⟨fun short => never.value (by omega), fun short => never.listBody (by omega),
    fun short => never.listItems (by omega), fun short => never.mapBody (by omega),
    fun short => never.mapEntries (by omega)⟩

theorem NeverRefused.succ {n : Nat} (below : r.NeverRefused n) : r.NeverRefused (n + 1) :=
  have cover : ∀ {ts : List Token}, ts.length < n + 1 → r.NeverRefused ts.length :=
    fun short => below.mono (by omega)
  ⟨fun short => value_unrefused (cover short), fun short => listBody_unrefused (cover short),
    fun short => listItems_unrefused (cover short), fun short => mapBody_unrefused (cover short),
    fun short => mapEntries_unrefused (cover short)⟩

end Steps

theorem neverRefused (n : Nat) : r.NeverRefused n := by
  induction n with
  | zero => exact ⟨fun short => absurd short (Nat.not_lt_zero _),
      fun short => absurd short (Nat.not_lt_zero _), fun short => absurd short (Nat.not_lt_zero _),
      fun short => absurd short (Nat.not_lt_zero _), fun short => absurd short (Nat.not_lt_zero _)⟩
  | succ n below => exact below.succ

/-! ### Whole documents -/

theorem document_unrefused (ts : List Token) : Unrefused ((r.coercing false).document ts) := by
  unfold Reader.document
  rcases ts with _ | ⟨t, rest⟩
  · exact .ok _
  dsimp only
  have read := (r.neverRefused (t :: rest).length.succ).value (d := 0) (Nat.lt_succ_self _)
  generalize (r.coercing false).value 0 (t :: rest) = x at read ⊢
  cases read with
  | malformed e => exact .malformed e
  | ok p =>
    obtain ⟨⟨v, after⟩, h⟩ := p
    rcases after with _ | ⟨t', rest'⟩
    · exact .ok _
    · exact .malformed _

theorem document_rekeys (ts : List Token) :
    Rekeys (Option.Rel Recoerced) ((r.coercing false).document ts)
      ((r.coercing true).document ts) := by
  unfold Reader.document
  rcases ts with _ | ⟨t, rest⟩
  · exact .ok .none
  dsimp only
  have read := (r.recoerces (t :: rest).length.succ).value (d := 0) (Nat.lt_succ_self _)
  generalize (r.coercing false).value 0 (t :: rest) = x at read ⊢
  generalize (r.coercing true).value 0 (t :: rest) = y at read ⊢
  cases read with
  | malformed e => exact .malformed e
  | refused l refusal => exact .refused l refusal
  | @ok p q leaves =>
    obtain ⟨⟨v, after⟩, h⟩ := p
    obtain ⟨⟨w, after'⟩, h'⟩ := q
    dsimp only [Leaves] at leaves
    obtain ⟨rfl, related⟩ := leaves
    rcases after with _ | ⟨t', rest'⟩
    · exact .ok (.some related)
    · exact .malformed _

end Reader

/-! ### Reading a text with keys coerced and without -/

open Ingest.Decimal Reader

theorem read_unrefused (o : Options) (text : String) :
    Unrefused (read { o with coerceKeys := false } text) := by
  unfold read
  dsimp only
  cases Token.scan text.toList with
  | error e => exact .malformed e
  | ok ts => exact Reader.document_unrefused ⟨o, text.toList.length⟩ ts

/-- Reading a text with keys coerced follows reading it without, whatever the other options. -/
theorem read_rekeys (o : Options) (text : String) :
    Rekeys (Option.Rel Recoerced) (read { o with coerceKeys := false } text)
      (read { o with coerceKeys := true } text) := by
  unfold read
  dsimp only
  cases Token.scan text.toList with
  | error e => exact .malformed e
  | ok ts => exact Reader.document_rekeys ⟨o, text.toList.length⟩ ts

theorem read_eq_none_coercing (o : Options) (text : String) :
    read { o with coerceKeys := true } text = .ok none ↔
      read { o with coerceKeys := false } text = .ok none := by
  unfold read
  dsimp only
  cases Token.scan text.toList with
  | error e => simp
  | ok ts => rw [document_eq_none_iff, document_eq_none_iff]

/-- **Coercing keys changes the keys and refuses some, and nothing else.** Under any options,
reading without coercion fails only with a syntax error; reading with coercion fails with a
syntax error only where reading without fails with the same one, and otherwise fails only by
refusing an integer key of fewer than twenty significant digits written with more than 4300
digits. Both find no value in the same texts; and where both give a tree, the coerced tree is the
other with every key at every depth replaced by its coercion, as long as no map holds two key
texts that coerce into one slot. -/
theorem read_coercedKeys (o : Options) (text : String) :
    let plain := read { o with coerceKeys := false } text
    let coerced := read { o with coerceKeys := true } text
    (∀ e, plain = .error e → ∃ m, e = .malformed m) ∧
    (∀ m, coerced = .error (.malformed m) → plain = .error (.malformed m)) ∧
    (∀ e, plain = .error e → coerced = .error e ∨ ∃ l, coerced = .error (.digitLimit l)) ∧
    (∀ l, coerced = .error (.digitLimit l) → ∃ i : IntegerText,
      i.value.natAbs < 10 ^ 19 ∧ 4300 < i.digits.length ∧ l = ⟨i.digits.length⟩) ∧
    (coerced = .ok none ↔ plain = .ok none) ∧
    (∀ v, plain = .ok (some v) → (∃ l, coerced = .error (.digitLimit l)) ∨
      ∃ w, coerced = .ok (some w) ∧ (KeepsSlots v → KeysCoerced v w)) ∧
    (∀ w, coerced = .ok (some w) →
      ∃ v, plain = .ok (some v) ∧ (KeepsSlots v → KeysCoerced v w)) := by
  intro plain coerced
  have unrefused : Unrefused plain := read_unrefused o text
  have rekeys : Rekeys (Option.Rel Recoerced) plain coerced := read_rekeys o text
  have none_ : coerced = .ok none ↔ plain = .ok none := read_eq_none_coercing o text
  clear_value plain coerced
  cases rekeys with
  | @ok a b related =>
    refine ⟨fun _ h => (by cases h), fun _ h => (by cases h), fun _ h => (by cases h),
      fun _ h => (by cases h), none_, ?_, ?_⟩
    · rintro v ⟨⟩
      cases related with
      | some recoerced => exact .inr ⟨_, rfl, recoerced⟩
    · rintro w ⟨⟩
      cases related with
      | some recoerced => exact ⟨_, rfl, recoerced⟩
  | malformed e =>
    refine ⟨fun _ h => ⟨e, (Except.error.inj h).symm⟩, fun _ h => h, fun _ h => .inl h,
      fun _ h => (by cases h), none_, fun _ h => (by cases h), fun _ h => (by cases h)⟩
  | @refused x l refusal =>
    refine ⟨?_, fun _ h => (by cases h), fun _ _ => .inr ⟨l, rfl⟩, ?_, none_,
      fun _ _ => .inl ⟨l, rfl⟩, fun _ h => (by cases h)⟩
    · intro e failed
      cases unrefused with
      | ok => cases failed
      | malformed m => exact ⟨m, (Except.error.inj failed).symm⟩
    · rintro l' ⟨⟩
      obtain ⟨name, refused⟩ := refusal
      obtain ⟨i, -, small, long, rfl⟩ := coerceKey_eq_error.mp refused
      exact ⟨i, small, long, rfl⟩

/-- Reading the compact text of a tree whose scalars their text stands for gives the tree back,
under options that keep its keys as they are and respect its nesting. -/
theorem read_lexText {coerce : Bool} {v : Value} (rereadable : v.Rereadable coerce) {o : Options}
    (coerces : o.coerceKeys = coerce) (bare : coerce = true → o.unquotedKeys = true)
    (deep : (v.nesting : Int) ≤ o.maxDepth) :
    read o (String.ofList (lexText v.lexemes)) = .ok (some v) := by
  obtain ⟨ts, views, scanned⟩ := Value.scan_lexText rereadable
  have nonempty : ts ≠ [] := by
    obtain ⟨l, ls, head, -⟩ := v.lexemes_head
    rintro rfl
    rw [List.map_nil, head] at views
    exact List.cons_ne_nil _ _ views.symm
  have reads := Reader.reads_of_rereadable ⟨o, (lexText v.lexemes).length⟩ coerces bare
    rereadable 0 (by simpa using deep) ts [] views
  rw [List.append_nil] at reads
  rw [read, String.toList_ofList, scanned]
  exact Reader.document_of_value _ nonempty reads

/-- The key of 4300 zeros and a one. -/
def paddedKey : Str :=
  .ofChars (List.replicate 4300 '0' ++ ['1'])

/-- A map holding the integer one under the key of 4300 zeros and a one. -/
def paddedKeySample : Value :=
  .map [(.str paddedKey, .scalar (.int 1))]

/-- The map from the key of 4300 zeros and a one to the integer one: its compact text reads back
without coercion, and reading it with keys coerced is refused. -/
theorem read_paddedKeySample :
    ∃ text : String, Str.ofString text = paddedKeySample.render ∧
      read { coerceKeys := false } text = .ok (some paddedKeySample) ∧
      ∃ l, read { coerceKeys := true } text = .error (.digitLimit l) := by
  have rereadable : paddedKeySample.Rereadable false := by
    refine .map ?_ ?_ (List.pairwise_singleton _ _)
    · intro e member
      rw [List.mem_singleton] at member
      subst member
      exact ⟨Str.hasSurrogate_ofChars _, fun no => absurd no Bool.false_ne_true⟩
    · intro e member
      rw [List.mem_singleton] at member
      subst member
      exact .scalar (by decide)
  have keeps : KeepsSlots paddedKeySample := by
    refine .map ?_ fun e member => ?_
    · intro e member e' member' a b _ _ key key' differ _ _
      rw [List.mem_singleton] at member member'
      subst member member'
      cases key.symm.trans key'
      exact absurd rfl differ
    · rw [List.mem_singleton] at member
      subst member
      exact .scalar _
  have plain : read { coerceKeys := false } (String.ofList (lexText paddedKeySample.lexemes)) =
      .ok (some paddedKeySample) :=
    read_lexText rereadable rfl (fun no => absurd no Bool.false_ne_true) (by decide)
  refine ⟨String.ofList (lexText paddedKeySample.lexemes), ?_, plain, ?_⟩
  · rw [Value.render_eq_lexText rereadable, Str.ofString, String.toList_ofList]
  -- reading with keys coerced follows the plain reading, which gives the sample back; a tree
  -- back would carry the coercion of the key, and there is none
  have rekeys := read_rekeys {} (String.ofList (lexText paddedKeySample.lexemes))
  rw [plain] at rekeys
  generalize read { coerceKeys := true } _ = coerced at rekeys ⊢
  cases rekeys with
  | refused l _ => exact ⟨l, rfl⟩
  | ok related =>
    cases related with
    | some recoerced =>
      cases recoerced keeps with
      | @map es fs lengths keyed _ =>
        obtain ⟨f, rfl⟩ : ∃ f, fs = [f] := List.length_eq_one_iff.mp lengths.symm
        obtain ⟨text, same, coerced⟩ := keyed _ List.mem_cons_self
        cases same
        have refused := coerceKey_zeros_one (Nat.le_refl 4300)
        rw [← paddedKey, coerced] at refused
        cases refused

end Ingest.Relaxed
