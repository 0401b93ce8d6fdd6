import Ingest.Proofs.Relaxed.Sugar

/-!
Contract: loosening the options of the reader keeps every document it reads.

Owns: when one option record allows at least what another does (`Options.Loosening`: bare keys
and single quotes whenever the other allows them, a nesting limit at least as deep, and keys
treated alike); one lemma for each function of the descent that a step which gives a value under
the tighter options gives the same value, with the same lexemes left, under the looser ones; and
the induction on the number of lexemes left that carries this through the whole descent
(`Reader.Keeps`), up to the whole text (`read_loosened`).

The options are read at three places only: a single-quoted string, a bare key, and the depth
check before a value. Each is a guard that refuses, so a looser guard refuses less and the two
descents read the same lexemes the same way for as long as the tighter one goes on.

Does not own: what the faults of the two readings are when the tighter one fails.
-/

namespace Ingest.Relaxed

open Ingest.Text

/-- The options `o'` allow whatever `o` allows: bare keys and single quotes whenever `o` does,
values at least as deep, and keys made the same way. -/
structure Options.Loosening (o o' : Options) : Prop where
  unquotedKeys : o.unquotedKeys = true → o'.unquotedKeys = true
  singleQuotes : o.singleQuotes = true → o'.singleQuotes = true
  maxDepth : o.maxDepth ≤ o'.maxDepth
  coerceKeys : o.coerceKeys = o'.coerceKeys

/-- Plain JSON allows no more than the relaxed reading. -/
theorem Options.strict_loosening_relaxed : Options.strict.Loosening Options.relaxed :=
  ⟨fun _ => rfl, fun _ => rfl, le_refl _, rfl⟩

namespace Reader

/-- The colon after a key reads alike under all options. -/
theorem colon_kept {r r' : Reader} {ts more : List Token} (gives : Gives (r.colon ts) () more) :
    Gives (r'.colon ts) () more := by
  cases ts with
  | nil => exact (colon_gives_nil gives).elim
  | cons t rest =>
      obtain ⟨colon, rfl⟩ := colon_gives gives
      exact r'.colon_mark colon

/-- Every function of the descent gives under `r'` what it gives under `r`, with the same
lexemes left, on every list of fewer than `n` lexemes. -/
structure Keeps (r r' : Reader) (n : Nat) : Prop where
  value : ∀ {d : Nat} {ts more : List Token} {v : Value}, ts.length < n →
    Gives (r.value d ts) v more → Gives (r'.value d ts) v more
  listBody : ∀ {d : Nat} {ts more : List Token} {v : Value}, ts.length < n →
    Gives (r.listBody d ts) v more → Gives (r'.listBody d ts) v more
  listItems : ∀ {d : Nat} {acc : List Value} {ts more : List Token} {v : Value}, ts.length < n →
    Gives (r.listItems d acc ts) v more → Gives (r'.listItems d acc ts) v more
  mapBody : ∀ {d : Nat} {ts more : List Token} {v : Value}, ts.length < n →
    Gives (r.mapBody d ts) v more → Gives (r'.mapBody d ts) v more
  mapEntries : ∀ {d : Nat} {acc : List (Scalar × Value)} {ts more : List Token} {v : Value},
    ts.length < n → Gives (r.mapEntries d acc ts) v more → Gives (r'.mapEntries d acc ts) v more

variable {r r' : Reader} (loosening : r.options.Loosening r'.options)
include loosening

/-! ### One step at a time -/

theorem stringText_loosened {t : Token} {s : Str} (text : r.stringText t = .ok s) :
    r'.stringText t = .ok s := by
  unfold stringText at text ⊢
  by_cases refused : t.kind = .singleQuoted ∧ !r.options.singleQuotes
  · rw [if_pos refused] at text
    cases text
  rw [if_neg refused] at text
  -- a single-quoted string that `r` decodes is one that `r'` allows as well
  have allowed : ¬(t.kind = .singleQuoted ∧ !r'.options.singleQuotes) := by
    rintro ⟨kind, off⟩
    simp only [Bool.not_eq_eq_eq_not, Bool.not_true] at off
    simp only [kind, true_and, Bool.not_eq_eq_eq_not, Bool.not_true, Bool.not_eq_false] at refused
    rw [loosening.singleQuotes refused] at off
    cases off
  rw [if_neg allowed]
  exact text

theorem keyName_loosened {t : Token} {name : Str} (named : r.keyName t = .ok name) :
    r'.keyName t = .ok name := by
  rcases t with ⟨kind, raw, start⟩
  cases kind with
  | string | singleQuoted =>
      dsimp only [keyName] at named ⊢
      exact stringText_loosened loosening named
  | name =>
      unfold keyName at named ⊢
      by_cases allowed : r.options.unquotedKeys = true
      · rw [if_pos allowed] at named
        rw [if_pos (loosening.unquotedKeys allowed)]
        exact named
      · rw [if_neg allowed] at named
        cases named
  | number | literal | mark => cases named

theorem key_loosened {ts more : List Token} {k : Scalar} (gives : Gives (r.key ts) k more) :
    Gives (r'.key ts) k more := by
  cases ts with
  | nil => exact (key_gives_nil gives).elim
  | cons t rest =>
      obtain ⟨left, name, named, reads⟩ := key_gives gives
      rw [loosening.coerceKeys] at reads
      rw [left]
      exact key_of_keyName (keyName_loosened loosening named) reads

/-! ### The whole descent -/

section Steps

variable {d : Nat} {ts more : List Token} {v : Value}

theorem value_keeps (below : Keeps r r' ts.length) (gives : Gives (r.value d ts) v more) :
    Gives (r'.value d ts) v more := by
  cases ts with
  | nil => exact (value_gives_nil gives).elim
  | cons t rest =>
      obtain ⟨shallow, ways⟩ := value_gives gives
      have shallow' : ¬r'.options.maxDepth < d := fun deep =>
        shallow (lt_of_le_of_lt loosening.maxDepth deep)
      rcases ways with ⟨kind, ⟨s, text, rfl⟩, rfl⟩ | ⟨kind, ⟨s, scalar, rfl⟩, rfl⟩ |
        ⟨kind, rfl, rfl⟩ | ⟨opening, body⟩ | ⟨opening, body⟩
      · exact value_quoted shallow' kind (stringText_loosened loosening text)
      · exact r'.value_number shallow' kind scalar
      · exact r'.value_literal shallow' kind
      · simp only [Token.view, Prod.mk.injEq] at opening
        exact r'.value_list shallow' opening.1 opening.2 (below.listBody (by simp) body)
      · simp only [Token.view, Prod.mk.injEq] at opening
        exact r'.value_map shallow' opening.1 opening.2 (below.mapBody (by simp) body)

theorem listItems_keeps {acc : List Value} (below : Keeps r r' ts.length)
    (gives : Gives (r.listItems d acc ts) v more) : Gives (r'.listItems d acc ts) v more := by
  obtain ⟨w, t, rest, item, ways⟩ := listItems_gives gives
  have item' := value_keeps loosening below item
  obtain ⟨shorter, -⟩ := id item
  simp only [List.length_cons] at shorter
  rcases ways with ⟨close, rfl, rfl⟩ | ⟨open_, comma, next⟩
  · exact r'.listItems_last item' close
  · exact r'.listItems_next item' open_ comma (below.listItems (by omega) next)

theorem listBody_keeps (below : Keeps r r' ts.length) (gives : Gives (r.listBody d ts) v more) :
    Gives (r'.listBody d ts) v more := by
  cases ts with
  | nil => exact (listBody_gives_nil gives).elim
  | cons t rest =>
      rcases listBody_gives gives with ⟨close, rfl, rfl⟩ | ⟨open_, items⟩
      · exact r'.listBody_close close
      · rw [r'.listBody_items open_]
        exact listItems_keeps loosening below items

theorem mapEntries_keeps {acc : List (Scalar × Value)} (below : Keeps r r' ts.length)
    (gives : Gives (r.mapEntries d acc ts) v more) : Gives (r'.mapEntries d acc ts) v more := by
  obtain ⟨k, afterKey, afterColon, w, t, rest, key, colon, item, ways⟩ := mapEntries_gives gives
  obtain ⟨byKey, -⟩ := id key
  obtain ⟨byColon, -⟩ := id colon
  obtain ⟨byValue, -⟩ := id item
  simp only [List.length_cons] at byKey byColon byValue
  have item' := below.value (by omega) item
  rcases ways with ⟨close, rfl, rfl⟩ | ⟨open_, comma, next⟩
  · exact r'.mapEntries_last (key_loosened loosening key) (colon_kept colon) item' close
  · exact r'.mapEntries_next (key_loosened loosening key) (colon_kept colon) item' open_ comma
      (below.mapEntries (by omega) next)

theorem mapBody_keeps (below : Keeps r r' ts.length) (gives : Gives (r.mapBody d ts) v more) :
    Gives (r'.mapBody d ts) v more := by
  cases ts with
  | nil => exact (mapBody_gives_nil gives).elim
  | cons t rest =>
      rcases mapBody_gives gives with ⟨close, rfl, rfl⟩ | ⟨open_, entries⟩
      · exact r'.mapBody_close close
      · rw [r'.mapBody_entries open_]
        exact mapEntries_keeps loosening below entries

end Steps

omit loosening in
theorem Keeps.mono {n m : Nat} (keeps : Keeps r r' n) (le : m ≤ n) : Keeps r r' m :=
  ⟨fun short => keeps.value (by omega), fun short => keeps.listBody (by omega),
    fun short => keeps.listItems (by omega), fun short => keeps.mapBody (by omega),
    fun short => keeps.mapEntries (by omega)⟩

/-- Keeping what is read below `n` lexemes, the looser reader keeps it on `n` lexemes as well. -/
theorem Keeps.succ {n : Nat} (below : Keeps r r' n) : Keeps r r' (n + 1) :=
  ⟨fun short => value_keeps loosening (below.mono (by omega)),
    fun short => listBody_keeps loosening (below.mono (by omega)),
    fun short => listItems_keeps loosening (below.mono (by omega)),
    fun short => mapBody_keeps loosening (below.mono (by omega)),
    fun short => mapEntries_keeps loosening (below.mono (by omega))⟩

/-- The induction on the number of lexemes left. -/
theorem keeps (n : Nat) : Keeps r r' n := by
  induction n with
  | zero => exact ⟨nofun, nofun, nofun, nofun, nofun⟩
  | succ n below => exact below.succ loosening

theorem document_loosened {ts : List Token} {doc : Option Value} (read : r.document ts = .ok doc) :
    r'.document ts = .ok doc := by
  cases ts with
  | nil => exact read
  | cons t rest =>
      obtain ⟨v, rfl, gives⟩ := document_gives read
      exact r'.document_of_value (List.cons_ne_nil t rest)
        ((keeps loosening _).value (Nat.lt_succ_self _) gives)

end Reader

/-- **Loosening the options never loses a document.** Whatever the text, when options `o` read
it, options `o'` that allow bare keys and single quotes whenever `o` does, values at least as
deep, and make keys the same way, read it too, to the same document. -/
theorem read_loosened {o o' : Options} (loosening : o.Loosening o') {text : String}
    {doc : Option Value} (reads : read o text = .ok doc) : read o' text = .ok doc := by
  rw [read] at reads ⊢
  cases scanned : Token.scan text.toList with
  | error e =>
      rw [scanned] at reads
      cases reads
  | ok ts =>
      rw [scanned] at reads
      exact Reader.document_loosened (r := ⟨o, text.toList.length⟩) loosening reads

/-- A plain JSON document with every kind of value. -/
def plainSample : String :=
  "\x7b\"a\": [1, -2.5e3, true, null], \"b\": \x7b\"c\": \"d\\n\"\x7d\x7d"

theorem read_loosened_plainSample :
    ∃ doc, read .strict plainSample = .ok doc ∧ read .relaxed plainSample = .ok doc := by
  have reads : (read .strict plainSample).isOk = true := by decide +kernel
  cases found : read .strict plainSample with
  | error e =>
      rw [found] at reads
      cases reads
  | ok doc => exact ⟨doc, rfl, read_loosened Options.strict_loosening_relaxed found⟩

end Ingest.Relaxed
