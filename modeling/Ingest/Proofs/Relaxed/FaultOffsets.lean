import Ingest.Proofs.Relaxed.DepthLimit
import Ingest.Proofs.Relaxed.LexemeBounds

/-!
Contract: where the reader finds a syntax error.

Owns: that the JSON decoder reports a fault inside the literal it reads (`readLiteral_error_lt`);
that the lexer cuts non-empty lexemes inside the text and finds its own faults at a character
of it (`scanFrom_within`, `scanFrom_error`); the literal the reader decodes for a string lexeme
(`Token.literal`); where a failure of the descent can lie among the lexemes it reads
(`Reader.Blames`), one lemma for each function of the descent, and the induction on the number
of lexemes left (`Reader.Blamed`); and from these where a failed reading of a text places its
syntax error (`read_errorOffset`).

Every fault but a bad string is found at the start of a lexeme or at the end of the text. A bad
string is found where the decoder stops inside the literal it is given, counted from the start
of the lexeme. For a double-quoted string that literal is the lexeme; for a single-quoted one
it is the body requoted, with each double quote escaped and each escaped single quote bare, so
it can be longer than the lexeme and the position can pass its end, and the end of the text
(`read_requotedEscape`).

Does not own: which fault a text has; only where it is found.
-/

namespace Ingest.Relaxed

open Ingest.Text

/-! ### Positions inside a literal -/

/-- The decoder stops inside the literal: by induction on the characters left, with the
invariant that they end at the latest where the literal does. -/
theorem readFrom_error_lt {size pos : Nat} {acc : List Point} {cs : List Char} {f : LiteralFault}
    {p : Nat} (failed : readFrom size cs pos acc = .error (f, p)) (fits : pos + cs.length ≤ size)
    (nonempty : 0 < size) : p < size := by
  fun_induction readFrom size cs pos acc with
  | case1 | case2 =>
      -- an unterminated literal is blamed on its opening quote
      cases failed
      exact nonempty
  | case3 rest pos | case4 rest pos =>
      cases failed
      simp only [List.length_cons] at fits
      omega
  | case5 rest pos _ _ _ _ high =>
      cases failed
      omega
  | case6 rest pos _ _ _ _ high more drop _ _ _ ih =>
      -- the surrogate pair is twelve characters, the low half after the first six
      have dropped := congrArg List.length drop
      simp only [List.length_drop, List.length_cons] at dropped fits
      exact ih failed (by simp only [List.length_drop]; omega)
  | case7 rest pos _ roomy _ _ _ _ _ _ _ _ ih | case8 rest pos _ roomy _ _ _ _ ih
  | case9 rest pos _ roomy _ _ _ ih =>
      simp only [List.length_cons] at fits
      exact ih failed (by simp only [List.length_drop]; omega)
  | case10 _ rest pos _ _ _ _ ih | case14 _ rest pos _ _ _ _ _ _ ih =>
      simp only [List.length_cons] at fits
      exact ih failed (by omega)
  | case11 _ rest pos | case13 _ rest pos =>
      cases failed
      simp only [List.length_cons] at fits
      omega
  | case12 => cases failed

theorem readLiteral_error_lt {lit : List Char} {f : LiteralFault} {p : Nat}
    (failed : readLiteral lit = .error (f, p)) (nonempty : lit ≠ []) : p < lit.length := by
  unfold readLiteral at failed
  split at failed
  · rename_i rest
    cases decoded : readFrom ('"' :: rest).length rest 1 [] with
    | error fault =>
        rw [decoded] at failed
        cases failed
        exact readFrom_error_lt decoded (by simp only [List.length_cons]; omega) (by simp)
    | ok acc =>
        rw [decoded] at failed
        cases failed
  · cases failed
    exact List.length_pos_of_ne_nil nonempty

/-! ### Lexemes inside the text -/

theorem classify_blank_bound {c : Char} {cs : List Char} {n : Nat}
    (classified : classify c cs = .blank n) : 0 < n ∧ n ≤ cs.length + 1 := by
  unfold classify at classified
  split at classified
  · cases classified
    exact ⟨Nat.succ_pos _, Nat.succ_le_succ (List.takeWhile_sublist _).length_le⟩
  · repeat' split at classified
    all_goals cases classified

/-- The lexer's own faults are an unclosed quote or a character no lexeme starts with. -/
theorem classify_fault {c : Char} {cs : List Char} {f : Fault}
    (classified : classify c cs = .fault f) : ∀ g, f ≠ .badString g := by
  unfold classify at classified
  repeat' split at classified
  all_goals cases classified <;> simp

/-- The lexemes cut from the text at `pos` are not empty and end at the latest where the text
does, by induction on the characters left with the invariant that those cut before end at
`pos`. -/
theorem scanFrom_within {pos : Nat} {acc ts : List Token} {cs : List Char}
    (scanned : scanFrom pos acc cs = .ok ts)
    (before : ∀ t ∈ acc, t.raw ≠ [] ∧ t.start + t.raw.length ≤ pos) :
    ∀ t ∈ ts, t.raw ≠ [] ∧ t.start + t.raw.length ≤ pos + cs.length := by
  fun_induction scanFrom pos acc cs generalizing ts with
  | case1 pos acc =>
      cases scanned
      intro t member
      obtain ⟨nonempty, ends⟩ := before t (List.mem_reverse.mp member)
      exact ⟨nonempty, by omega⟩
  | case2 pos acc c cs n classified ih =>
      obtain ⟨positive, within⟩ := classify_blank_bound classified
      have same : pos + n + (cs.drop (n - 1)).length = pos + (c :: cs).length := by
        simp only [List.length_drop, List.length_cons]
        omega
      rw [← same]
      exact ih scanned fun t member => (before t member).imp_right fun ends => by omega
  | case3 pos acc c cs kind n classified ih =>
      obtain ⟨positive, within⟩ := classify_token_bound classified
      have same : pos + n + (cs.drop (n - 1)).length = pos + (c :: cs).length := by
        simp only [List.length_drop, List.length_cons]
        omega
      rw [← same]
      refine ih scanned fun t member => ?_
      rcases List.mem_cons.mp member with rfl | earlier
      · -- the lexeme just cut: its first `n` characters, at `pos`
        have taken : ((c :: cs).take n).length = n := by
          rw [List.length_take, List.length_cons]
          omega
        exact ⟨List.ne_nil_of_length_pos (by rw [taken]; exact positive), by rw [taken]⟩
      · obtain ⟨nonempty, ends⟩ := before t earlier
        exact ⟨nonempty, by omega⟩
  | case4 => cases scanned

/-- The lexer finds its faults at a character of the text. -/
theorem scanFrom_error {pos : Nat} {acc : List Token} {cs : List Char} {e : SyntaxError}
    (failed : scanFrom pos acc cs = .error e) :
    (∀ g, e.fault ≠ .badString g) ∧ e.offset < pos + cs.length := by
  fun_induction scanFrom pos acc cs with
  | case1 => cases failed
  | case2 pos acc c cs n classified ih =>
      obtain ⟨positive, within⟩ := classify_blank_bound classified
      obtain ⟨notString, inside⟩ := ih failed
      simp only [List.length_drop, List.length_cons] at inside ⊢
      exact ⟨notString, by omega⟩
  | case3 pos acc c cs kind n classified ih =>
      obtain ⟨positive, within⟩ := classify_token_bound classified
      obtain ⟨notString, inside⟩ := ih failed
      simp only [List.length_drop, List.length_cons] at inside ⊢
      exact ⟨notString, by omega⟩
  | case4 pos acc c cs f classified =>
      cases failed
      exact ⟨classify_fault classified, by simp⟩

theorem scan_within {cs : List Char} {ts : List Token} (scanned : Token.scan cs = .ok ts) :
    ∀ t ∈ ts, t.raw ≠ [] ∧ t.start + t.raw.length ≤ cs.length := by
  simpa using scanFrom_within scanned (by simp)

theorem scan_error {cs : List Char} {e : SyntaxError} (failed : Token.scan cs = .error e) :
    (∀ g, e.fault ≠ .badString g) ∧ e.offset < cs.length := by
  simpa using scanFrom_error failed

/-! ### The literal of a string lexeme -/

/-- The JSON string literal the reader decodes for a string lexeme: the lexeme itself, or, for
a single-quoted one, its body requoted between double quotes. -/
def Token.literal (t : Token) : List Char :=
  if t.kind = .singleQuoted then
    '"' :: Reader.stringText.requote ((t.raw.drop 1).dropLast) ++ ['"']
  else t.raw

theorem Token.literal_of_string {t : Token} (kind : t.kind = .string) : t.literal = t.raw := by
  rw [Token.literal, if_neg (by rw [kind]; decide)]

theorem Token.literal_ne_nil {t : Token} (nonempty : t.raw ≠ []) : t.literal ≠ [] := by
  unfold Token.literal
  split
  · exact List.cons_ne_nil _ _
  · exact nonempty

/-! ### Where the descent fails -/

namespace Reader

/-- Where the reader can find a fault among the lexemes `ts`: any fault but a bad string at the
end of the text or at the start of a lexeme of `ts`; a bad string at the position the JSON
decoder reports inside the literal of a string lexeme of `ts`; and a key with too many digits,
which has no position. -/
inductive Blames (r : Reader) (ts : List Token) : ReadError → Prop
  | atEnd {f : Fault} : (∀ g, f ≠ .badString g) → Blames r ts (.malformed ⟨f, r.textLength⟩)
  | atLexeme {f : Fault} {t : Token} : (∀ g, f ≠ .badString g) → t ∈ ts →
      Blames r ts (.malformed ⟨f, t.start⟩)
  | inLiteral {t : Token} {f : LiteralFault} {p : Nat} : t ∈ ts →
      (t.kind = .string ∨ t.kind = .singleQuoted) → readLiteral t.literal = .error (f, p) →
      Blames r ts (.malformed ⟨.badString f, t.start + p⟩)
  | digitLimit (l : DigitLimit) : Blames r ts (.digitLimit l)

variable {r : Reader} {d : Nat} {ts : List Token} {e : ReadError}

theorem Blames.mono {ts' : List Token} (blames : r.Blames ts e) (sub : ts ⊆ ts') :
    r.Blames ts' e := by
  cases blames with
  | atEnd notString => exact .atEnd notString
  | atLexeme notString member => exact .atLexeme notString (sub member)
  | inLiteral member kind decoded => exact .inLiteral (sub member) kind decoded
  | digitLimit l => exact .digitLimit l

theorem offsetAt_blames {f : Fault} (notString : ∀ g, f ≠ .badString g) (ts : List Token) :
    r.Blames ts (.malformed ⟨f, r.offsetAt ts⟩) := by
  cases ts with
  | nil => exact .atEnd notString
  | cons t rest => exact .atLexeme notString (List.mem_cons_self ..)

/-- A value is read from the front of the lexemes, and leaves the others. -/
theorem value_suffix {ts more : List Token} {v : Value} (gives : Gives (r.value d ts) v more) :
    more ⊆ ts := by
  obtain ⟨h, read⟩ := gives
  rw [value_eq_build] at read
  cases parsed : r.parseValue d ts with
  | error e =>
      rw [parsed] at read
      cases read
  | ok q =>
      obtain ⟨⟨p, after⟩, hq⟩ := q
      rw [parsed] at read
      cases read
      obtain ⟨lexemes, split, -⟩ := parseValue_consumes ⟨hq, parsed⟩
      show after ⊆ ts
      rw [split]
      exact List.subset_append_right _ _

theorem key_suffix {ts more : List Token} {k : Scalar} (gives : Gives (r.key ts) k more) :
    more ⊆ ts := by
  cases ts with
  | nil => exact (key_gives_nil gives).elim
  | cons t rest =>
      obtain ⟨rfl, -⟩ := key_gives gives
      exact List.subset_cons_self _ _

theorem colon_suffix {ts more : List Token} (gives : Gives (r.colon ts) () more) : more ⊆ ts := by
  cases ts with
  | nil => exact (colon_gives_nil gives).elim
  | cons t rest =>
      obtain ⟨-, rfl⟩ := colon_gives gives
      exact List.subset_cons_self _ _

/-! ### One function at a time -/

section Lexemes

variable {t : Token} (member : t ∈ ts)
include member

theorem stringText_blames (kind : t.kind = .string ∨ t.kind = .singleQuoted)
    (failed : r.stringText t = .error e) : r.Blames ts e := by
  unfold stringText at failed
  by_cases refused : t.kind = .singleQuoted ∧ (!r.options.singleQuotes) = true
  · rw [if_pos refused] at failed
    cases failed
    exact .atLexeme (by simp) member
  rw [if_neg refused] at failed
  split at failed
  · cases failed
  · rename_i f p decoded
    cases failed
    refine .inLiteral member kind ?_
    -- the literal decoded is `t.literal`, by the kind of the lexeme
    rcases t with ⟨kind', raw, start⟩
    rcases kind with kind | kind <;> dsimp only at kind <;> subst kind <;> exact decoded

theorem numberScalar_blames (failed : numberScalar t = .error e) : r.Blames ts e := by
  unfold numberScalar at failed
  by_cases point : t.raw.any (fun c => c = '.' ∨ c = 'e' ∨ c = 'E') = true
  · rw [if_pos point] at failed
    cases numeral : Decimal.Numeral.read? t.raw with
    | none =>
        rw [numeral] at failed
        cases failed
        exact .atLexeme (by simp) member
    | some n =>
        rw [numeral] at failed
        cases failed
  · rw [if_neg point] at failed
    by_cases long : t.raw.length > integerLimit
    · rw [if_pos long] at failed
      cases failed
      exact .atLexeme (by simp) member
    · rw [if_neg long] at failed
      cases failed

theorem keyName_blames (failed : r.keyName t = .error e) : r.Blames ts e := by
  rcases t with ⟨kind, raw, start⟩
  cases kind with
  | string | singleQuoted => exact stringText_blames member (by simp) failed
  | name =>
      unfold keyName at failed
      by_cases bare : r.options.unquotedKeys = true
      · rw [if_pos bare] at failed
        cases failed
      · rw [if_neg bare] at failed
        cases failed
        exact .atLexeme (by simp) member
  | number | literal | mark =>
      cases failed
      exact .atLexeme (by simp) member

end Lexemes

theorem key_blames (failed : r.key ts = .error e) : r.Blames ts e := by
  rw [key_eq_parseKey] at failed
  cases ts with
  | nil =>
      cases failed
      exact .atEnd (by simp)
  | cons t rest =>
      cases parsed : r.parseKey (t :: rest) with
      | ok q =>
          rw [parsed] at failed
          cases failed
      | error e' =>
          rw [parsed] at failed
          cases failed
          rw [parseKey] at parsed
          split at parsed
          · rename_i named
            cases parsed
            exact keyName_blames (List.mem_cons_self ..) named
          · -- the key text read, only its coercion can fail, by its digits
            split at parsed
            · split at parsed
              · cases parsed
              · cases parsed
                exact .digitLimit _
            · cases parsed

theorem colon_blames (failed : r.colon ts = .error e) : r.Blames ts e := by
  cases ts with
  | nil =>
      cases failed
      exact .atEnd (by simp)
  | cons t rest =>
      rw [colon] at failed
      by_cases mark : t.isMark ':' = true
      · rw [if_pos mark] at failed
        cases failed
      · rw [if_neg mark] at failed
        cases failed
        exact .atLexeme (by simp) (List.mem_cons_self ..)

/-! ### The whole descent -/

variable (r) in
/-- Every failure of a function of the descent on fewer than `n` lexemes lies where
`Reader.Blames` says, among the lexemes it was given. -/
structure Blamed (n : Nat) : Prop where
  value : ∀ {d : Nat} {ts : List Token} {e : ReadError}, ts.length < n →
    r.value d ts = .error e → r.Blames ts e
  listBody : ∀ {d : Nat} {ts : List Token} {e : ReadError}, ts.length < n →
    r.listBody d ts = .error e → r.Blames ts e
  listItems : ∀ {d : Nat} {acc : List Value} {ts : List Token} {e : ReadError}, ts.length < n →
    r.listItems d acc ts = .error e → r.Blames ts e
  mapBody : ∀ {d : Nat} {ts : List Token} {e : ReadError}, ts.length < n →
    r.mapBody d ts = .error e → r.Blames ts e
  mapEntries : ∀ {d : Nat} {acc : List (Scalar × Value)} {ts : List Token} {e : ReadError},
    ts.length < n → r.mapEntries d acc ts = .error e → r.Blames ts e

section Steps

theorem value_blames (below : r.Blamed ts.length) (failed : r.value d ts = .error e) :
    r.Blames ts e := by
  by_cases deep : r.options.maxDepth < d
  · -- too deep, at the next lexeme or at the end of the text
    rw [r.value_tooDeep deep] at failed
    cases failed
    exact offsetAt_blames (by simp) ts
  rcases ts with _ | ⟨t, rest⟩
  · rw [value, if_neg deep] at failed
    cases failed
    exact .atEnd (by simp)
  have member : t ∈ t :: rest := List.mem_cons_self ..
  rw [value, if_neg deep] at failed
  rcases t with ⟨kind, raw, start⟩
  cases kind with
  | string | singleQuoted =>
      dsimp only at failed
      cases text : r.stringText ⟨_, raw, start⟩ with
      | error e' =>
          rw [text] at failed
          cases failed
          exact stringText_blames member (by simp) text
      | ok s =>
          rw [text] at failed
          cases failed
  | number =>
      dsimp only at failed
      cases scalar : numberScalar ⟨_, raw, start⟩ with
      | error e' =>
          rw [scalar] at failed
          cases failed
          exact numberScalar_blames member scalar
      | ok s =>
          rw [scalar] at failed
          cases failed
  | literal => cases failed
  | name =>
      cases failed
      exact .atLexeme (by simp) member
  | mark =>
      dsimp only at failed
      -- a list or map fails where its body does, among the lexemes after the opening mark
      by_cases openList : raw = ['[']
      · rw [if_pos openList] at failed
        split at failed
        · cases failed
        · rename_i body
          cases failed
          exact (below.listBody (by simp) body).mono (List.subset_cons_self _ _)
      rw [if_neg openList] at failed
      by_cases openMap : raw = ['{']
      · rw [if_pos openMap] at failed
        split at failed
        · cases failed
        · rename_i body
          cases failed
          exact (below.mapBody (by simp) body).mono (List.subset_cons_self _ _)
      rw [if_neg openMap] at failed
      cases failed
      exact .atLexeme (by simp) member

theorem listItems_blames {acc : List Value} (below : r.Blamed ts.length)
    (failed : r.listItems d acc ts = .error e) : r.Blames ts e := by
  rw [listItems] at failed
  split at failed
  · rename_i item
    cases failed
    exact value_blames below item
  rename_i v after h item
  split at failed
  · cases failed
    exact .atEnd (by simp)
  rename_i t rest shorter
  -- what follows the item lies among the lexemes given
  have sub : t :: rest ⊆ ts := value_suffix ⟨shorter, item⟩
  by_cases close : t.isMark ']' = true
  · rw [if_pos close] at failed
    cases failed
  rw [if_neg close] at failed
  by_cases comma : t.isMark ',' = true
  · rw [if_pos comma] at failed
    split at failed
    · cases failed
    · rename_i next
      cases failed
      have fewer : rest.length < ts.length := by
        simp only [List.length_cons] at shorter
        omega
      exact (below.listItems fewer next).mono (List.Subset.trans (List.subset_cons_self t rest) sub)
  rw [if_neg comma] at failed
  cases failed
  exact .atLexeme (by simp) (sub (List.mem_cons_self ..))

theorem listBody_blames (below : r.Blamed ts.length) (failed : r.listBody d ts = .error e) :
    r.Blames ts e := by
  cases ts with
  | nil =>
      rw [listBody] at failed
      cases failed
      exact .atEnd (by simp)
  | cons t rest =>
      by_cases close : t.isMark ']' = true
      · rw [listBody, if_pos close] at failed
        cases failed
      · rw [listBody_items r (by simpa using close)] at failed
        exact listItems_blames below failed

theorem mapEntries_blames {acc : List (Scalar × Value)} (below : r.Blamed ts.length)
    (failed : r.mapEntries d acc ts = .error e) : r.Blames ts e := by
  rw [mapEntries] at failed
  split at failed
  · rename_i key
    cases failed
    exact key_blames key
  rename_i k afterKey hk key
  have keySub : afterKey ⊆ ts := key_suffix ⟨hk, key⟩
  split at failed
  · rename_i colon
    cases failed
    exact (colon_blames colon).mono keySub
  rename_i afterColon hc colon
  have colonSub : afterColon ⊆ ts := List.Subset.trans (colon_suffix ⟨hc, colon⟩) keySub
  split at failed
  · rename_i item
    cases failed
    exact (below.value (Nat.lt_trans hc hk) item).mono colonSub
  rename_i v after hv item
  split at failed
  · cases failed
    exact .atEnd (by simp)
  rename_i t rest shorter
  have sub : t :: rest ⊆ ts := List.Subset.trans (value_suffix ⟨shorter, item⟩) colonSub
  by_cases close : t.isMark '}' = true
  · rw [if_pos close] at failed
    cases failed
  rw [if_neg close] at failed
  by_cases comma : t.isMark ',' = true
  · rw [if_pos comma] at failed
    split at failed
    · cases failed
    · rename_i next
      cases failed
      have fewer : rest.length < ts.length := by
        simp only [List.length_cons] at shorter hc hk
        omega
      exact (below.mapEntries fewer next).mono
        (List.Subset.trans (List.subset_cons_self t rest) sub)
  rw [if_neg comma] at failed
  cases failed
  exact .atLexeme (by simp) (sub (List.mem_cons_self ..))

theorem mapBody_blames (below : r.Blamed ts.length) (failed : r.mapBody d ts = .error e) :
    r.Blames ts e := by
  cases ts with
  | nil =>
      rw [mapBody] at failed
      cases failed
      exact .atEnd (by simp)
  | cons t rest =>
      by_cases close : t.isMark '}' = true
      · rw [mapBody, if_pos close] at failed
        cases failed
      · rw [mapBody_entries r (by simpa using close)] at failed
        exact mapEntries_blames below failed

theorem Blamed.mono {n m : Nat} (blamed : r.Blamed n) (le : m ≤ n) : r.Blamed m :=
  ⟨fun short => blamed.value (by omega), fun short => blamed.listBody (by omega),
    fun short => blamed.listItems (by omega), fun short => blamed.mapBody (by omega),
    fun short => blamed.mapEntries (by omega)⟩

theorem Blamed.succ {n : Nat} (below : r.Blamed n) : r.Blamed (n + 1) :=
  ⟨fun short => value_blames (below.mono (by omega)),
    fun short => listBody_blames (below.mono (by omega)),
    fun short => listItems_blames (below.mono (by omega)),
    fun short => mapBody_blames (below.mono (by omega)),
    fun short => mapEntries_blames (below.mono (by omega))⟩

end Steps

variable (r) in
/-- The induction on the number of lexemes left. -/
theorem blamed (n : Nat) : r.Blamed n := by
  induction n with
  | zero => exact ⟨nofun, nofun, nofun, nofun, nofun⟩
  | succ n below => exact below.succ

theorem document_blames (failed : r.document ts = .error e) : r.Blames ts e := by
  cases ts with
  | nil => cases failed
  | cons t rest =>
      rw [document] at failed
      split at failed
      · rename_i read
        cases failed
        exact (r.blamed _).value (Nat.lt_succ_self _) read
      · cases failed
      · -- data after the document value, at a lexeme it left
        rename_i v u after h read
        cases failed
        exact .atLexeme (by simp) (value_suffix ⟨h, read⟩ (List.mem_cons_self ..))
      · exact List.cons_ne_nil t rest

end Reader

/-! ### Where a reading places its syntax error -/

/-- **Where a syntax error is found.** When reading a text fails with a syntax error, any fault
but a bad string is found at most at the end of the text. A bad string is found in a string
lexeme of the text, from its start on: inside the lexeme when it is double-quoted, and inside
the literal the decoder reads, its body requoted between double quotes, when it is
single-quoted. -/
theorem read_errorOffset {o : Options} {text : String} {e : SyntaxError}
    (failed : read o text = .error (.malformed e)) :
    ((∀ g, e.fault ≠ .badString g) → e.offset ≤ text.length) ∧
      ∀ g, e.fault = .badString g → ∃ ts t, Token.scan text.toList = .ok ts ∧ t ∈ ts ∧
        t.start + t.raw.length ≤ text.length ∧ t.start ≤ e.offset ∧
        (t.kind = .string ∧ e.offset < t.start + t.raw.length ∨
          t.kind = .singleQuoted ∧ e.offset < t.start + t.literal.length) := by
  rw [read] at failed
  cases scanned : Token.scan text.toList with
  | error e' =>
      -- a fault of the lexer, at a character of the text
      rw [scanned] at failed
      cases failed
      obtain ⟨notString, inside⟩ := scan_error scanned
      rw [String.length_toList] at inside
      exact ⟨fun _ => Nat.le_of_lt inside, fun g same => absurd same (notString g)⟩
  | ok ts =>
      rw [scanned] at failed
      have within := scan_within scanned
      rw [String.length_toList] at within
      cases Reader.document_blames failed with
      | atEnd notString =>
          exact ⟨fun _ => String.length_toList.le, fun g same => absurd same (notString g)⟩
      | atLexeme notString member =>
          have ends := (within _ member).2
          exact ⟨fun _ => by dsimp only; omega, fun g same => absurd same (notString g)⟩
      | @inLiteral t f p member kind decoded =>
          refine ⟨fun notString => absurd rfl (notString f), fun _ _ => ?_⟩
          obtain ⟨nonempty, ends⟩ := within t member
          -- the decoder stops inside the literal it reads
          have inside := readLiteral_error_lt decoded (Token.literal_ne_nil nonempty)
          refine ⟨ts, t, rfl, member, ends, Nat.le_add_right _ _, ?_⟩
          rcases kind with kind | kind
          · rw [Token.literal_of_string kind] at inside
            exact .inl ⟨kind, by dsimp only; omega⟩
          · exact .inr ⟨kind, by dsimp only; omega⟩

/-- A double-quoted string with an escape JSON does not know. -/
def escapedQ : String := "\"a\\q\""

theorem read_errorOffset_escapedQ :
    read .relaxed escapedQ = .error (.malformed ⟨.badString .badEscape, 2⟩) ∧
      ∃ ts t, Token.scan escapedQ.toList = .ok ts ∧ t ∈ ts ∧
        t.start + t.raw.length ≤ escapedQ.length ∧ t.start ≤ 2 ∧
        (t.kind = .string ∧ 2 < t.start + t.raw.length ∨
          t.kind = .singleQuoted ∧ 2 < t.start + t.literal.length) :=
  have failed : read .relaxed escapedQ = .error (.malformed ⟨.badString .badEscape, 2⟩) := by
    cbv
  ⟨failed, (read_errorOffset failed).2 .badEscape rfl⟩

/-- A single-quoted string of five double quotes and an escape JSON does not know. Requoted,
each double quote is escaped, so the decoder stops at the escape eleven characters into a
literal of fourteen, past the nine characters of the whole text. -/
def requotedEscape : String := "'\"\"\"\"\"\\x'"

theorem read_requotedEscape :
    requotedEscape.length = 9 ∧
      read .relaxed requotedEscape = .error (.malformed ⟨.badString .badEscape, 11⟩) :=
  ⟨by decide, by cbv⟩

end Ingest.Relaxed
