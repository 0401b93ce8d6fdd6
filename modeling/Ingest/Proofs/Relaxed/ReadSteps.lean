import Ingest.Proofs.Relaxed.Respelling
import Ingest.Proofs.Relaxed.Descent
import Ingest.Proofs.Relaxed.ParseTree

/-!
Contract: a reading step that succeeds went one of its ways, and reading a document closes every
number and literal by a mark.

Owns: one inversion lemma for each function of the descent (`value_gives`, `listItems_gives`,
`mapEntries_gives`, ...) that says every way it can give a value, with what it read on the way;
and, by induction on the number of lexemes left, that what a successful reading read has every
number and literal followed by a comma, a closing bracket or brace, or by the end
(`document_atomsClosed`).

Does not own: the descent read forward from its pieces; that is `Relaxed.Descent`.
-/

namespace Ingest.Relaxed

open Ingest.Text

namespace Reader

variable {r : Reader} {d : Nat} {t : Token} {rest more : List Token} {v : Value}

theorem value_gives (gives : Gives (r.value d (t :: rest)) v more) :
    ¬r.options.maxDepth < d ∧
      ((t.kind = .string ∨ t.kind = .singleQuoted) ∧
          (∃ s, r.stringText t = .ok s ∧ v = .scalar (.str s)) ∧ more = rest ∨
        t.kind = .number ∧ (∃ s, numberScalar t = .ok s ∧ v = .scalar s) ∧ more = rest ∨
        t.kind = .literal ∧ v = .scalar (literalScalar t.raw) ∧ more = rest ∨
        t.view = (.mark, ['[']) ∧ Gives (r.listBody (d + 1) rest) v more ∨
        t.view = (.mark, ['{']) ∧ Gives (r.mapBody (d + 1) rest) v more) := by
  obtain ⟨h, read⟩ := gives
  rw [value] at read
  split at read
  · cases read
  rename_i shallow
  refine ⟨shallow, ?_⟩
  rcases t with ⟨kind, raw, start⟩
  cases kind with
  | string | singleQuoted =>
      simp only at read
      cases text : r.stringText ⟨_, raw, start⟩ with
      | error e => rw [text] at read; cases read
      | ok s =>
          rw [text] at read
          cases read
          simp
  | number =>
      simp only at read
      cases scalar : numberScalar ⟨_, raw, start⟩ with
      | error e => rw [scalar] at read; cases read
      | ok s =>
          rw [scalar] at read
          cases read
          simp
  | literal =>
      cases read
      simp
  | name => cases read
  | mark =>
      simp only at read
      split at read
      · rename_i opening
        split at read
        · rename_i p _ body
          cases read
          exact .inr (.inr (.inr (.inl ⟨by rw [opening]; rfl, _, body⟩)))
        · cases read
      · split at read
        · rename_i notList opening
          split at read
          · rename_i p _ body
            cases read
            exact .inr (.inr (.inr (.inr ⟨by rw [opening]; rfl, _, body⟩)))
          · cases read
        · cases read

theorem value_gives_nil (gives : Gives (r.value d []) v more) : False := by
  obtain ⟨h, read⟩ := gives
  rw [value] at read
  split at read <;> cases read

theorem listBody_gives (gives : Gives (r.listBody d (t :: rest)) v more) :
    t.isMark ']' = true ∧ v = .list [] ∧ more = rest ∨
      t.isMark ']' = false ∧ Gives (r.listItems d [] (t :: rest)) v more := by
  by_cases close : t.isMark ']' = true
  · obtain ⟨h, read⟩ := gives
    rw [listBody, if_pos close] at read
    cases read
    exact .inl ⟨close, rfl, rfl⟩
  · rw [Bool.not_eq_true] at close
    rw [listBody_items r close] at gives
    exact .inr ⟨close, gives⟩

theorem mapBody_gives (gives : Gives (r.mapBody d (t :: rest)) v more) :
    t.isMark '}' = true ∧ v = .map [] ∧ more = rest ∨
      t.isMark '}' = false ∧ Gives (r.mapEntries d [] (t :: rest)) v more := by
  by_cases close : t.isMark '}' = true
  · obtain ⟨h, read⟩ := gives
    rw [mapBody, if_pos close] at read
    cases read
    exact .inl ⟨close, rfl, rfl⟩
  · rw [Bool.not_eq_true] at close
    rw [mapBody_entries r close] at gives
    exact .inr ⟨close, gives⟩

theorem listBody_gives_nil (gives : Gives (r.listBody d []) v more) : False := by
  obtain ⟨h, read⟩ := gives
  rw [listBody] at read
  cases read

theorem mapBody_gives_nil (gives : Gives (r.mapBody d []) v more) : False := by
  obtain ⟨h, read⟩ := gives
  rw [mapBody] at read
  cases read

theorem listItems_gives {acc : List Value} {ts : List Token}
    (gives : Gives (r.listItems d acc ts) v more) :
    ∃ w t rest, Gives (r.value d ts) w (t :: rest) ∧
      (t.isMark ']' = true ∧ v = .list (w :: acc).reverse ∧ more = rest ∨
        t.isMark ']' = false ∧ t.isMark ',' = true ∧
          Gives (r.listItems d (w :: acc) rest) v more) := by
  obtain ⟨h, read⟩ := gives
  rw [listItems] at read
  split at read
  · cases read
  rename_i _ w after _ item
  split at read
  · cases read
  rename_i t rest hw
  refine ⟨w, t, rest, ⟨hw, item⟩, ?_⟩
  split at read
  · rename_i close
    cases read
    exact .inl ⟨close, rfl, rfl⟩
  split at read
  · rename_i open_ comma
    split at read
    · rename_i p h' next
      cases read
      exact .inr ⟨by simpa using open_, comma, h', next⟩
    · cases read
  · cases read

theorem mapEntries_gives {acc : List (Scalar × Value)} {ts : List Token}
    (gives : Gives (r.mapEntries d acc ts) v more) :
    ∃ k afterKey afterColon w t rest, Gives (r.key ts) k afterKey ∧
      Gives (r.colon afterKey) () afterColon ∧ Gives (r.value d afterColon) w (t :: rest) ∧
      (t.isMark '}' = true ∧ v = .map (Entries.ofPairs ((k, w) :: acc).reverse) ∧ more = rest ∨
        t.isMark '}' = false ∧ t.isMark ',' = true ∧
          Gives (r.mapEntries d ((k, w) :: acc) rest) v more) := by
  obtain ⟨h, read⟩ := gives
  rw [mapEntries] at read
  split at read
  · cases read
  rename_i _ k afterKey hk key
  split at read
  · cases read
  rename_i _ afterColon hc colon
  split at read
  · cases read
  rename_i _ w after _ item
  split at read
  · cases read
  rename_i t rest hw
  refine ⟨k, afterKey, afterColon, w, t, rest, ⟨hk, key⟩, ⟨hc, colon⟩, ⟨hw, item⟩, ?_⟩
  split at read
  · rename_i close
    cases read
    exact .inl ⟨close, rfl, rfl⟩
  split at read
  · rename_i open_ comma
    split at read
    · rename_i p h' next
      cases read
      exact .inr ⟨by simpa using open_, comma, h', next⟩
    · cases read
  · cases read

theorem colon_gives {u : Unit} (gives : Gives (r.colon (t :: rest)) u more) :
    t.isMark ':' = true ∧ more = rest := by
  obtain ⟨h, read⟩ := gives
  rw [colon] at read
  split at read
  · rename_i colon
    cases read
    exact ⟨colon, rfl⟩
  · cases read

theorem key_gives {k : Scalar} (gives : Gives (r.key (t :: rest)) k more) :
    more = rest ∧ ∃ name, r.keyName t = .ok name ∧ KeyReads r.options.coerceKeys name k := by
  obtain ⟨h, read⟩ := gives
  rw [key_cons] at read
  split at read
  · cases read
  rename_i name named
  by_cases coerce : r.options.coerceKeys = true
  · rw [if_pos coerce] at read
    cases coerced : coerceKey name with
    | error e =>
        rw [coerced] at read
        cases read
    | ok k' =>
        rw [coerced] at read
        cases read
        exact ⟨rfl, name, named, by rw [KeyReads, if_pos coerce]; exact coerced⟩
  · rw [if_neg coerce] at read
    cases read
    exact ⟨rfl, name, named, by rw [KeyReads, if_neg coerce]⟩

theorem key_gives_nil {k : Scalar} (gives : Gives (r.key []) k more) : False := by
  obtain ⟨h, read⟩ := gives
  cases read

theorem colon_gives_nil {u : Unit} (gives : Gives (r.colon []) u more) : False := by
  obtain ⟨h, read⟩ := gives
  cases read

/-- Only a string or a bare name is a key. -/
theorem keyName_kind {name : Str} (named : r.keyName t = .ok name) :
    t.kind = .string ∨ t.kind = .singleQuoted ∨ t.kind = .name := by
  unfold keyName at named
  split at named
  · rename_i kind
    exact .inl kind
  · rename_i kind
    exact .inr (.inl kind)
  · exact .inr (.inr ‹_›)
  · cases named

theorem document_gives {doc : Option Value} (read : r.document (t :: rest) = .ok doc) :
    ∃ v, doc = some v ∧ Gives (r.value 0 (t :: rest)) v [] := by
  unfold document at read
  split at read
  · rename_i same
    cases same
  · split at read
    · cases read
    · rename_i h _
      cases read
      exact ⟨_, rfl, h, ‹_›⟩
    · cases read

end Reader

/-! ### Numbers and literals are closed -/

theorem Token.view_of_isMark {t : Token} {c : Char} (mark : t.isMark c = true) :
    t.view = (.mark, [c]) := by
  simp only [Token.isMark, Bool.and_eq_true, beq_iff_eq] at mark
  simp [Token.view, mark.1, mark.2]

theorem Closer.of_isMark {t : Token} {c : Char} (mark : t.isMark c = true)
    (closing : c = ',' ∨ c = ']' ∨ c = '}') : Closer t.view := by
  rw [Token.view_of_isMark mark]
  rcases closing with rfl | rfl | rfl
  exacts [.inl rfl, .inr (.inl rfl), .inr (.inr rfl)]

theorem AtomsClosed.cons_other {l : TokenKind × List Char} {ls : List (TokenKind × List Char)}
    (other : l.1 ≠ .number ∧ l.1 ≠ .literal) (closed : AtomsClosed ls) : AtomsClosed (l :: ls) :=
  .cons (fun atom => by rcases atom with atom | atom <;> simp_all) closed

theorem AtomsClosed.cons_mark {l : TokenKind × List Char} {ls : List (TokenKind × List Char)}
    (mark : l.1 = .mark) (closed : AtomsClosed ls) : AtomsClosed (l :: ls) :=
  cons_other (by simp [mark]) closed

namespace Reader

variable (r : Reader)

/-- Reading a list of fewer than `n` lexemes closes the numbers and literals it reads, when what
it leaves is closed: a value also needs a closing mark, or the end, right after it. -/
structure Closing (n : Nat) : Prop where
  value : ∀ {d : Nat} {ts rest : List Token} {v : Value}, ts.length < n →
    Gives (r.value d ts) v rest → AtomsClosed (rest.map Token.view) →
    (∀ u ∈ rest.head?, Closer u.view) → AtomsClosed (ts.map Token.view)
  listBody : ∀ {d : Nat} {ts rest : List Token} {v : Value}, ts.length < n →
    Gives (r.listBody d ts) v rest → AtomsClosed (rest.map Token.view) →
    AtomsClosed (ts.map Token.view)
  listItems : ∀ {d : Nat} {acc : List Value} {ts rest : List Token} {v : Value}, ts.length < n →
    Gives (r.listItems d acc ts) v rest → AtomsClosed (rest.map Token.view) →
    AtomsClosed (ts.map Token.view)
  mapBody : ∀ {d : Nat} {ts rest : List Token} {v : Value}, ts.length < n →
    Gives (r.mapBody d ts) v rest → AtomsClosed (rest.map Token.view) →
    AtomsClosed (ts.map Token.view)
  mapEntries : ∀ {d : Nat} {acc : List (Scalar × Value)} {ts rest : List Token} {v : Value},
    ts.length < n → Gives (r.mapEntries d acc ts) v rest → AtomsClosed (rest.map Token.view) →
    AtomsClosed (ts.map Token.view)

section Steps

variable {r} {d : Nat} {ts rest : List Token} {v : Value}

theorem closer_views (closer : ∀ u ∈ rest.head?, Closer u.view) :
    ∀ m ∈ (rest.map Token.view).head?, Closer m := by
  cases rest with
  | nil => nofun
  | cons u more =>
      intro m member
      cases member
      exact closer u rfl

theorem value_closing (below : r.Closing ts.length) (gives : Gives (r.value d ts) v rest)
    (closed : AtomsClosed (rest.map Token.view)) (closer : ∀ u ∈ rest.head?, Closer u.view) :
    AtomsClosed (ts.map Token.view) := by
  cases ts with
  | nil => exact (value_gives_nil gives).elim
  | cons t more =>
      obtain ⟨-, ways⟩ := value_gives gives
      rcases ways with ⟨quoted, -, rfl⟩ | ⟨number, -, rfl⟩ | ⟨literal, -, rfl⟩ |
        ⟨opening, body⟩ | ⟨opening, body⟩
      · exact AtomsClosed.cons_other (by rcases quoted with kind | kind <;> simp [Token.view, kind])
          closed
      · exact .cons (fun _ => closer_views closer) closed
      · exact .cons (fun _ => closer_views closer) closed
      · exact AtomsClosed.cons_mark (by rw [opening])
          (below.listBody (by simp) body closed)
      · exact AtomsClosed.cons_mark (by rw [opening])
          (below.mapBody (by simp) body closed)

theorem listItems_closing {acc : List Value} (below : r.Closing ts.length)
    (gives : Gives (r.listItems d acc ts) v rest) (closed : AtomsClosed (rest.map Token.view)) :
    AtomsClosed (ts.map Token.view) := by
  obtain ⟨w, t, after, item, ways⟩ := listItems_gives gives
  obtain ⟨shorter, -⟩ := id item
  simp only [List.length_cons] at shorter
  rcases ways with ⟨close, -, rfl⟩ | ⟨-, comma, next⟩
  · exact value_closing below item (.cons_mark (by rw [Token.view_of_isMark close]) closed)
      (fun u member => by cases member; exact Closer.of_isMark close (by simp))
  · have tail := below.listItems (by omega) next closed
    exact value_closing below item (.cons_mark (by rw [Token.view_of_isMark comma]) tail)
      (fun u member => by cases member; exact Closer.of_isMark comma (by simp))

theorem listBody_closing (below : r.Closing ts.length) (gives : Gives (r.listBody d ts) v rest)
    (closed : AtomsClosed (rest.map Token.view)) : AtomsClosed (ts.map Token.view) := by
  cases ts with
  | nil => exact (listBody_gives_nil gives).elim
  | cons t more =>
      rcases listBody_gives gives with ⟨close, -, rfl⟩ | ⟨-, items⟩
      · exact .cons_mark (by rw [Token.view_of_isMark close]) closed
      · exact listItems_closing below items closed

theorem mapEntries_closing {acc : List (Scalar × Value)} (below : r.Closing ts.length)
    (gives : Gives (r.mapEntries d acc ts) v rest) (closed : AtomsClosed (rest.map Token.view)) :
    AtomsClosed (ts.map Token.view) := by
  obtain ⟨k, afterKey, afterColon, w, t, after, key, colon, item, ways⟩ := mapEntries_gives gives
  cases ts with
  | nil => exact (key_gives_nil key).elim
  | cons tk more =>
  obtain ⟨rfl, name, named, -⟩ := key_gives key
  cases afterKey with
  | nil => exact (colon_gives_nil colon).elim
  | cons tc afterKey =>
  obtain ⟨isColon, rfl⟩ := colon_gives colon
  obtain ⟨shorter, -⟩ := id item
  simp only [List.length_cons] at shorter
  -- the key and its colon are no atoms; the value is closed by what comes after it
  have entry : (∀ u ∈ (t :: after).head?, Closer u.view) →
      AtomsClosed ((t :: after).map Token.view) →
        AtomsClosed ((tk :: tc :: afterColon).map Token.view) := by
    intro closer rest'
    have value := below.value (by simp) item rest' closer
    refine .cons_other ?_ (.cons_mark (by rw [Token.view_of_isMark isColon]) value)
    rcases keyName_kind named with kind | kind | kind <;> simp [Token.view, kind]
  rcases ways with ⟨close, -, rfl⟩ | ⟨-, comma, next⟩
  · exact entry (fun u member => by cases member; exact Closer.of_isMark close (by simp))
      (.cons_mark (by rw [Token.view_of_isMark close]) closed)
  · have tail := below.mapEntries (by simp; omega) next closed
    exact entry (fun u member => by cases member; exact Closer.of_isMark comma (by simp))
      (.cons_mark (by rw [Token.view_of_isMark comma]) tail)

theorem mapBody_closing (below : r.Closing ts.length) (gives : Gives (r.mapBody d ts) v rest)
    (closed : AtomsClosed (rest.map Token.view)) : AtomsClosed (ts.map Token.view) := by
  cases ts with
  | nil => exact (mapBody_gives_nil gives).elim
  | cons t more =>
      rcases mapBody_gives gives with ⟨close, -, rfl⟩ | ⟨-, entries⟩
      · exact .cons_mark (by rw [Token.view_of_isMark close]) closed
      · exact mapEntries_closing below entries closed

theorem Closing.mono {n m : Nat} (closing : r.Closing n) (le : m ≤ n) : r.Closing m :=
  ⟨fun short => closing.value (by omega), fun short => closing.listBody (by omega),
    fun short => closing.listItems (by omega), fun short => closing.mapBody (by omega),
    fun short => closing.mapEntries (by omega)⟩

theorem Closing.succ {n : Nat} (below : r.Closing n) : r.Closing (n + 1) :=
  ⟨fun short => value_closing (below.mono (by omega)),
    fun short => listBody_closing (below.mono (by omega)),
    fun short => listItems_closing (below.mono (by omega)),
    fun short => mapBody_closing (below.mono (by omega)),
    fun short => mapEntries_closing (below.mono (by omega))⟩

end Steps

/-- The induction on the number of lexemes left: every reading closes what it reads. -/
theorem closing (n : Nat) : r.Closing n := by
  induction n with
  | zero => exact ⟨nofun, nofun, nofun, nofun, nofun⟩
  | succ n below => exact below.succ

/-- **A document that reads closes its atoms.** Every number and literal of a document that reads
is followed by a comma, a closing bracket or brace, or by the end. -/
theorem document_atomsClosed {ts : List Token} {doc : Option Value}
    (read : r.document ts = .ok doc) : AtomsClosed (ts.map Token.view) := by
  cases ts with
  | nil => exact .nil
  | cons t rest =>
      obtain ⟨v, -, gives⟩ := document_gives read
      exact (r.closing _).value (Nat.lt_succ_self _) gives .nil nofun

end Reader

end Ingest.Relaxed
