import Ingest.Proofs.Relaxed.ReadSteps

/-!
Contract: relaxed spelling is sugar. A document written with other blanks around its lexemes,
with its strings between the other quotes, or with its name-like keys bare or quoted, reads as
the same tree.

Owns: that a JSON string knows no escaped single quote (`readFrom_escapesQuote`), so that a
string quoted the other way reads as the same text; the text each respelled lexeme reads as, as a
value and as a key; the simulation of the descent on respelled lexemes (`Reader.Follows`); and
`read_resugared`.

Does not own: which lexemes a respelled text splits into; that is `Relaxed.Respelling`.
-/

namespace Ingest.Relaxed

open Ingest.Text

section Escapes

variable {body more : List Char}

theorem hexValue?_plain {c : Char} {n : Nat} (hex : hexValue? c = some n) : c ≠ '"' ∧ c ≠ '\\' := by
  unfold hexValue? at hex
  split_ifs at hex with digit lower upper
  all_goals
    refine ⟨?_, ?_⟩ <;> rintro rfl <;> revert ‹_ ∧ _› <;> decide

theorem hex4?_plain {cs : List Char} {n : Nat} (hex : hex4? cs = some n) :
    ∃ a b c d rest, cs = a :: b :: c :: d :: rest ∧
      ∀ x ∈ [a, b, c, d], x ≠ '"' ∧ x ≠ '\\' := by
  unfold hex4? at hex
  split at hex
  · rename_i a b c d rest
    simp only [Option.bind_eq_bind, Option.bind_eq_some_iff, Option.pure_def,
      Option.some.injEq] at hex
    obtain ⟨va, ha, vb, hb, vc, hc, vd, hd, -⟩ := hex
    refine ⟨a, b, c, d, rest, rfl, ?_⟩
    simp only [List.mem_cons, List.mem_nil_iff, or_false]
    rintro x (rfl | rfl | rfl | rfl)
    exacts [hexValue?_plain ha, hexValue?_plain hb, hexValue?_plain hc, hexValue?_plain hd]
  · cases hex

/-- A plain character in front of a body is the body's first character. -/
theorem body_plain {c : Char} {rest : List Char} (split : c :: rest = body ++ '"' :: more)
    (quoted : QuotedBody '"' body) (notQuote : c ≠ '"') (notBackslash : c ≠ '\\') :
    ∃ body', body = c :: body' ∧ rest = body' ++ '"' :: more ∧ QuotedBody '"' body' ∧
      escapesQuote body = escapesQuote body' := by
  cases quoted with
  | nil => simp only [List.nil_append, List.cons.injEq] at split; exact absurd split.1 notQuote
  | @plain d body' _ _ _ inner =>
      simp only [List.cons_append, List.cons.injEq] at split
      obtain ⟨rfl, rfl⟩ := split
      exact ⟨body', rfl, rfl, inner, escapesQuote_plain notBackslash⟩
  | escape e inner =>
      simp only [List.cons_append, List.cons.injEq] at split
      exact absurd split.1 notBackslash

/-- An escape in front of a body is the body's first escape. -/
theorem body_escape {e : Char} {rest : List Char} (split : '\\' :: e :: rest = body ++ '"' :: more)
    (quoted : QuotedBody '"' body) :
    ∃ body', body = '\\' :: e :: body' ∧ rest = body' ++ '"' :: more ∧ QuotedBody '"' body' := by
  cases quoted with
  | nil => simp at split
  | plain _ notBackslash _ inner =>
      simp only [List.cons_append, List.cons.injEq] at split
      exact absurd split.1.symm notBackslash
  | escape e' inner =>
      simp only [List.cons_append, List.cons.injEq] at split
      obtain ⟨-, rfl, rfl⟩ := split
      exact ⟨_, rfl, rfl, inner⟩

/-- The four digits of a `\u` escape are plain characters of the body. -/
theorem body_hex {rest : List Char} {n : Nat} (hex : hex4? rest = some n)
    (split : rest = body ++ '"' :: more) (quoted : QuotedBody '"' body) :
    ∃ body', rest.drop 4 = body' ++ '"' :: more ∧ QuotedBody '"' body' ∧
      escapesQuote body = escapesQuote body' := by
  obtain ⟨a, b, c, d, tail, rfl, plain⟩ := hex4?_plain hex
  have pa := plain a (by simp)
  have pb := plain b (by simp)
  have pc := plain c (by simp)
  have pd := plain d (by simp)
  obtain ⟨body₁, rfl, split, quoted, same₁⟩ := body_plain split quoted pa.1 pa.2
  obtain ⟨body₂, rfl, split, quoted, same₂⟩ := body_plain split quoted pb.1 pb.2
  obtain ⟨body₃, rfl, split, quoted, same₃⟩ := body_plain split quoted pc.1 pc.2
  obtain ⟨body₄, rfl, split, quoted, same₄⟩ := body_plain split quoted pd.1 pd.2
  exact ⟨body₄, split, quoted, by rw [same₁, same₂, same₃, same₄]⟩

/-- A `\u` escape and its digits hold no escaped single quote, so a body that starts with one has
none if the rest after the digits has none. -/
theorem escapesQuote_unicode {rest : List Char} {code : Nat} (hex : hex4? rest = some code)
    (split : '\\' :: 'u' :: rest = body ++ '"' :: more) (quoted : QuotedBody '"' body)
    (next : ∀ {body' : List Char}, rest.drop 4 = body' ++ '"' :: more → QuotedBody '"' body' →
      escapesQuote body' = false) : escapesQuote body = false := by
  obtain ⟨body₁, rfl, split, quoted⟩ := body_escape split quoted
  obtain ⟨body₂, split, quoted, same⟩ := body_hex hex split quoted
  simp [escapesQuote, same, next split quoted]

/-- **JSON knows no escaped single quote.** A double-quoted body that reads has none. -/
theorem readFrom_escapesQuote {size pos : Nat} {acc out : List Point} {cs : List Char}
    (read : readFrom size cs pos acc = .ok out) :
    cs = body ++ '"' :: more → QuotedBody '"' body → escapesQuote body = false := by
  fun_induction readFrom size cs pos acc generalizing body with
  | case1 | case2 | case3 | case4 | case5 | case11 | case13 => cases read
  | case6 rest pos acc roomy code hex high more₀ drop low hexLow isLow ih =>
      intro split quoted
      refine escapesQuote_unicode hex split quoted fun split' quoted' => ?_
      rw [drop] at split'
      exact escapesQuote_unicode hexLow split' quoted' (ih read)
  | case7 rest pos acc roomy code hex _ _ _ _ _ _ ih =>
      exact fun split quoted => escapesQuote_unicode hex split quoted (ih read)
  | case8 rest pos acc roomy code hex _ _ ih =>
      exact fun split quoted => escapesQuote_unicode hex split quoted (ih read)
  | case9 rest pos acc roomy code hex _ ih =>
      exact fun split quoted => escapesQuote_unicode hex split quoted (ih read)
  | case10 e rest pos acc notU c escape ih =>
      intro split quoted
      obtain ⟨body₁, rfl, split, quoted⟩ := body_escape split quoted
      have notQuote : e ≠ '\'' := by
        rintro rfl
        simp [simpleEscape] at escape
      simp [escapesQuote, notQuote, ih read split quoted]
  | case12 =>
      intro split quoted
      cases quoted with
      | nil => rfl
      | plain notQuote _ _ _ =>
          simp only [List.cons_append, List.cons.injEq] at split
          exact absurd split.1.symm notQuote
      | escape e _ =>
          simp only [List.cons_append, List.cons.injEq] at split
          exact absurd split.1 (by decide)
  | case14 c rest pos acc notEnd notUnicode notEscape notQuote notControl ih =>
      intro split quoted
      have notBackslash : c ≠ '\\' := by
        rintro rfl
        cases rest with
        | nil => exact notEnd rfl rfl
        | cons e more' => exact notEscape e more' rfl rfl
      obtain ⟨body', rfl, split, quoted, same⟩ := body_plain split quoted notQuote notBackslash
      rw [same]
      exact ih read split quoted

theorem readLiteral_escapesQuote {body : List Char} {s : Str} (quoted : QuotedBody '"' body)
    (read : readLiteral ('"' :: body ++ ['"']) = .ok s) : escapesQuote body = false := by
  rw [List.cons_append, readLiteral] at read
  simp only [Except.map] at read
  split at read
  · cases read
  · rename_i out found
    exact readFrom_escapesQuote found rfl quoted

end Escapes

/-! ### The text of a respelled lexeme -/

section Texts

variable {r : Reader} {name body : List Char} {s : Str}

theorem toOption_eq_some {ε α : Type} {x : Except ε α} {a : α} :
    x.toOption = some a ↔ x = .ok a := by
  cases x <;> simp [Except.toOption]

theorem jsonChar_plain {c : Char} (notQuote : c ≠ '"') (notBackslash : c ≠ '\\')
    (printable : 0x20 ≤ c.toNat) : jsonChar c = [c] := by
  have notControl : ∀ e : Char, e.toNat < 0x20 → c ≠ e := by
    rintro e small rfl
    omega
  unfold jsonChar
  rw [if_neg notQuote, if_neg notBackslash, if_neg (notControl _ (by decide)),
    if_neg (notControl _ (by decide)), if_neg (notControl _ (by decide)),
    if_neg (notControl _ (by decide)), if_neg (notControl _ (by decide)), if_neg (by omega)]

/-- A run of name characters between double quotes reads as itself. -/
theorem readLiteral_names (names : ∀ c ∈ name, isNameChar c = true) :
    readLiteral ('"' :: name ++ ['"']) = .ok (Str.ofChars name) := by
  have plain : name.flatMap jsonChar = name.flatMap fun c => [c] := by
    refine List.flatMap_congr fun c member => ?_
    obtain ⟨notQuote, -, notBackslash, printable, -⟩ := isNameChar_plain (names c member)
    exact jsonChar_plain notQuote notBackslash printable
  have read := readLiteral_jsonLiteralChars name
  rwa [jsonLiteralChars, plain, List.flatMap_singleton'] at read

theorem requote_names (names : ∀ c ∈ name, isNameChar c = true) :
    Reader.stringText.requote name = name := by
  induction name with
  | nil => rfl
  | cons c cs ih =>
      obtain ⟨notQuote, -, notBackslash, -⟩ := isNameChar_plain (names c (by simp))
      rw [requote_plain notBackslash, if_neg notQuote,
        ih fun c' member => names c' (by simp [member])]

/-- With single quotes allowed, a string lexeme reads as its text wherever it stands. -/
theorem stringText_toOption (quotes : r.options.singleQuotes = true) (t : Token) :
    (r.stringText t).toOption = lexemeText t.view := by
  have relaxed : Options.relaxed.singleQuotes = true := rfl
  simp only [lexemeText, Reader.stringText, Token.view, quotes, relaxed, Bool.not_true,
    Bool.false_eq_true, and_false, if_false]
  cases readLiteral _ <;> rfl

theorem lexemeText_string (raw : List Char) :
    lexemeText (.string, raw) = (readLiteral raw).toOption := by
  simp only [lexemeText, Reader.stringText]
  cases readLiteral raw <;> rfl

theorem lexemeText_singleQuoted (body : List Char) :
    lexemeText (.singleQuoted, '\'' :: body ++ ['\'']) =
      (readLiteral ('"' :: Reader.stringText.requote body ++ ['"'])).toOption := by
  have relaxed : Options.relaxed.singleQuotes = true := rfl
  simp only [lexemeText, Reader.stringText, relaxed, List.cons_append, List.drop_succ_cons,
    List.drop_zero, List.dropLast_concat, Bool.not_true, Bool.false_eq_true, and_false, if_false]
  cases readLiteral _ <;> rfl

theorem lexemeText_toSingle (quoted : QuotedBody '"' body)
    (read : lexemeText (.string, '"' :: body ++ ['"']) = some s) :
    lexemeText (.singleQuoted, '\'' :: singleQuotedBody body ++ ['\'']) = some s := by
  rw [lexemeText_string, toOption_eq_some] at read
  rw [lexemeText_singleQuoted,
    quoted.requote_singleQuotedBody (readLiteral_escapesQuote quoted read), read]
  rfl

theorem lexemeText_toDouble (body : List Char) :
    lexemeText (.string, '"' :: Reader.stringText.requote body ++ ['"']) =
      lexemeText (.singleQuoted, '\'' :: body ++ ['\'']) := by
  rw [lexemeText_string, lexemeText_singleQuoted]

theorem lexemeText_quote (names : ∀ c ∈ name, isNameChar c = true) :
    lexemeText (.string, '"' :: name ++ ['"']) = some (Str.ofChars name) := by
  rw [lexemeText_string, readLiteral_names names]
  rfl

theorem lexemeText_quoteSingle (names : ∀ c ∈ name, isNameChar c = true) :
    lexemeText (.singleQuoted, '\'' :: name ++ ['\'']) = some (Str.ofChars name) := by
  rw [lexemeText_singleQuoted, requote_names names, readLiteral_names names]
  rfl

end Texts

/-! ### Respelled keys and values -/

/-- `name` is the text the lexeme `l` names as a key, both extensions on. -/
def KeyText (l : TokenKind × List Char) (name : Str) : Prop :=
  (l.1 = .string ∨ l.1 = .singleQuoted) ∧ lexemeText l = some name ∨
    l.1 = .name ∧ name = Str.ofChars l.2

theorem keyName_eq_ok {r : Reader} (quotes : r.options.singleQuotes = true)
    (bare : r.options.unquotedKeys = true) {t : Token} {name : Str} :
    r.keyName t = .ok name ↔ KeyText t.view name := by
  rw [KeyText, ← stringText_toOption quotes, toOption_eq_some]
  rcases t with ⟨kind, raw, start⟩
  cases kind <;> simp [Reader.keyName, Token.view, bare, Reader.fail, pure, Except.pure, eq_comm]

theorem WellSpelled.doubleQuoted {body : List Char}
    (spelled : WellSpelled (.string, '"' :: body ++ ['"'])) : QuotedBody '"' body := by
  obtain ⟨body', same, quoted⟩ := spelled.1 rfl
  simp only [List.cons_append, List.cons.injEq, List.append_cancel_right_eq, true_and] at same
  rwa [same]

theorem WellSpelled.names {name : List Char} (spelled : WellSpelled (.name, name)) :
    ∀ c ∈ name, isNameChar c = true :=
  (spelled.2.2 rfl).2

section Respells

variable {key : Prop} {l m : TokenKind × List Char} {s : Str}

/-- Only a mark respells as a mark. -/
theorem Respells.kind_mark (respells : Respells key l m) : m.1 = .mark ↔ l.1 = .mark := by
  cases respells with
  | same => rfl
  | unquote _ _ quoted => rcases quoted with kind | kind <;> simp [kind]
  | _ => simp

/-- A string that is no key respells as a string that reads as the same text. -/
theorem Respells.valueText (respells : Respells key l m) (notKey : ¬key) (spelled : WellSpelled l)
    (quoted : l.1 = .string ∨ l.1 = .singleQuoted) (read : lexemeText l = some s) :
    (m.1 = .string ∨ m.1 = .singleQuoted) ∧ lexemeText m = some s := by
  cases respells with
  | same => exact ⟨quoted, read⟩
  | toSingle body => exact ⟨.inr rfl, lexemeText_toSingle spelled.doubleQuoted read⟩
  | toDouble body => exact ⟨.inl rfl, by rw [lexemeText_toDouble, read]⟩
  | unquote _ isKey => exact absurd isKey notKey
  | quote | quoteSingle => rcases quoted with kind | kind <;> cases kind

/-- A key respells as a key that names the same text. -/
theorem Respells.keyText (respells : Respells key l m) (spelled : WellSpelled l)
    (named : KeyText l s) : KeyText m s := by
  cases respells with
  | same => exact named
  | toSingle body =>
      rcases named with ⟨-, read⟩ | ⟨kind, -⟩
      · exact .inl ⟨.inr rfl, lexemeText_toSingle spelled.doubleQuoted read⟩
      · cases kind
  | toDouble body =>
      rcases named with ⟨-, read⟩ | ⟨kind, -⟩
      · exact .inl ⟨.inl rfl, by rw [lexemeText_toDouble, read]⟩
      · cases kind
  | unquote name _ quoted text =>
      rcases named with ⟨-, read⟩ | ⟨kind, -⟩
      · rw [text, Option.some.injEq] at read
        exact .inr ⟨rfl, read.symm⟩
      · rcases quoted with quoted | quoted <;> rw [quoted] at kind <;> cases kind
  | quote name =>
      rcases named with ⟨quoted, -⟩ | ⟨-, rfl⟩
      · rcases quoted with kind | kind <;> cases kind
      · exact .inl ⟨.inl rfl, lexemeText_quote spelled.names⟩
  | quoteSingle name =>
      rcases named with ⟨quoted, -⟩ | ⟨-, rfl⟩
      · rcases quoted with kind | kind <;> cases kind
      · exact .inl ⟨.inr rfl, lexemeText_quoteSingle spelled.names⟩

end Respells

/-! ### Respelled lexeme lists -/

/-- The lexemes `ts'` respell the lexemes `ts`, which are spelled as the lexer spells them. -/
def Rereads (ts ts' : List Token) : Prop :=
  Respelled (ts.map Token.view) (ts'.map Token.view) ∧ ∀ t ∈ ts, WellSpelled t.view

theorem Rereads.nil_left {ts' : List Token} (reread : Rereads [] ts') : ts' = [] := by
  obtain ⟨respelled, -⟩ := reread
  generalize views : ts'.map Token.view = ms at respelled
  cases respelled
  exact List.map_eq_nil_iff.mp views

theorem Rereads.cons {t : Token} {ts ts' : List Token} (reread : Rereads (t :: ts) ts') :
    ∃ t' rest', ts' = t' :: rest' ∧
      Respells ((ts.map Token.view).head? = some (.mark, [':'])) t.view t'.view ∧
      WellSpelled t.view ∧ Rereads ts rest' := by
  obtain ⟨respelled, spelled⟩ := reread
  generalize views : ts'.map Token.view = ms at respelled
  rw [List.map_cons] at respelled
  cases respelled with
  | cons respells tail =>
      obtain ⟨t', rest', rfl, rfl, rfl⟩ := List.map_eq_cons_iff.mp views
      exact ⟨t', rest', rfl, respells, spelled t (by simp), tail,
        fun u member => spelled u (by simp [member])⟩

theorem Token.isMark_of_view_eq {t t' : Token} (view : t'.view = t.view) (c : Char) :
    t'.isMark c = t.isMark c := by
  simp only [Token.view, Prod.mk.injEq] at view
  simp only [Token.isMark, view.1, view.2]

/-- A respelling keeps every mark, and makes none. -/
theorem Respells.isMark {key : Prop} {t t' : Token} (respells : Respells key t.view t'.view)
    (c : Char) : t'.isMark c = t.isMark c := by
  by_cases mark : t.kind = .mark
  · exact Token.isMark_of_view_eq (respells.of_mark mark) c
  · have mark' : t'.kind ≠ .mark := fun mark' => mark (respells.kind_mark.mp mark')
    rw [Token.isMark_eq_false fun same => mark' (congrArg Prod.fst same),
      Token.isMark_eq_false fun same => mark (congrArg Prod.fst same)]

/-- A value followed by no colon is no key. -/
theorem not_colon_head {rest : List Token} (notColon : ∀ u ∈ rest.head?, u.isMark ':' = false) :
    ¬(rest.map Token.view).head? = some (.mark, [':']) := by
  cases rest with
  | nil => simp
  | cons u more =>
      intro colon
      simp only [List.map_cons, List.head?_cons, Option.some.injEq] at colon
      have := notColon u rfl
      rw [Token.isMark_self colon] at this
      cases this

namespace Reader

variable {r : Reader} {d : Nat} {t : Token} {rest : List Token}

theorem numberScalar_of_raw {t t' : Token} (raw : t'.raw = t.raw) {s : Scalar}
    (scalar : numberScalar t = .ok s) : numberScalar t' = .ok s := by
  unfold numberScalar at scalar ⊢
  rw [raw]
  split_ifs at scalar ⊢
  · cases numeral : Decimal.Numeral.read? t.raw with
    | none => simp only [numeral] at scalar; cases scalar
    | some n => simpa only [numeral] using scalar
  · cases scalar
  · exact scalar

theorem value_quoted (shallow : ¬r.options.maxDepth < d)
    (quoted : t.kind = .string ∨ t.kind = .singleQuoted) {s : Str} (text : r.stringText t = .ok s) :
    Gives (r.value d (t :: rest)) (.scalar (.str s)) rest := by
  rcases quoted with kind | kind
  · exact value_string r shallow kind text
  · rw [value, if_neg shallow]
    simp only [kind, text]
    exact ⟨_, rfl⟩

theorem key_of_keyName {name : Str} {k : Scalar} (named : r.keyName t = .ok name)
    (reads : KeyReads r.options.coerceKeys name k) : Gives (r.key (t :: rest)) k rest := by
  rw [key_cons, named]
  by_cases coerce : r.options.coerceKeys = true
  · rw [KeyReads, if_pos coerce] at reads
    simp only [if_pos coerce, reads]
    exact ⟨_, rfl⟩
  · rw [KeyReads, if_neg coerce] at reads
    simp only [if_neg coerce, reads]
    exact ⟨_, rfl⟩

variable (r) (r' : Reader)

/-- Reading fewer than `n` lexemes goes the same way on their respelling: each reading step that
gives a value gives it on the respelled lexemes too, and leaves the respelling of what it leaves.
A value must be followed by no colon, which would make a string before it a key. -/
structure Follows (n : Nat) : Prop where
  value : ∀ {d : Nat} {ts ts' rest : List Token} {v : Value}, ts.length < n →
    Gives (r.value d ts) v rest → Rereads ts ts' → (∀ u ∈ rest.head?, u.isMark ':' = false) →
    ∃ rest', Gives (r'.value d ts') v rest' ∧ Rereads rest rest'
  listBody : ∀ {d : Nat} {ts ts' rest : List Token} {v : Value}, ts.length < n →
    Gives (r.listBody d ts) v rest → Rereads ts ts' →
    ∃ rest', Gives (r'.listBody d ts') v rest' ∧ Rereads rest rest'
  listItems : ∀ {d : Nat} {acc : List Value} {ts ts' rest : List Token} {v : Value},
    ts.length < n → Gives (r.listItems d acc ts) v rest → Rereads ts ts' →
    ∃ rest', Gives (r'.listItems d acc ts') v rest' ∧ Rereads rest rest'
  mapBody : ∀ {d : Nat} {ts ts' rest : List Token} {v : Value}, ts.length < n →
    Gives (r.mapBody d ts) v rest → Rereads ts ts' →
    ∃ rest', Gives (r'.mapBody d ts') v rest' ∧ Rereads rest rest'
  mapEntries : ∀ {d : Nat} {acc : List (Scalar × Value)} {ts ts' rest : List Token} {v : Value},
    ts.length < n → Gives (r.mapEntries d acc ts) v rest → Rereads ts ts' →
    ∃ rest', Gives (r'.mapEntries d acc ts') v rest' ∧ Rereads rest rest'

section Steps

variable {r r'} {ts ts' : List Token} {v : Value}

/-- The mark that ends an item or an entry, its closing mark or a comma, is no colon. -/
theorem not_colon_of_ends {c : Char} (ends : t.isMark c = true ∨ t.isMark ',' = true)
    (closer : c ≠ ':') : ∀ u ∈ (t :: rest).head?, u.isMark ':' = false := by
  rintro u ⟨⟩
  rcases ends with close | comma
  · exact Token.isMark_other (Token.view_of_isMark close) closer
  · exact Token.isMark_other (Token.view_of_isMark comma) (by decide)

theorem value_follows (same : r'.options = r.options) (quotes : r.options.singleQuotes = true)
    (below : Follows r r' ts.length) (gives : Gives (r.value d ts) v rest) (reread : Rereads ts ts')
    (notColon : ∀ u ∈ rest.head?, u.isMark ':' = false) :
    ∃ rest', Gives (r'.value d ts') v rest' ∧ Rereads rest rest' := by
  cases ts with
  | nil => exact (value_gives_nil gives).elim
  | cons t more =>
  obtain ⟨t', more', rfl, respells, spelled, tail⟩ := reread.cons
  obtain ⟨shallow, ways⟩ := value_gives gives
  have shallow' : ¬r'.options.maxDepth < d := by rwa [same]
  rcases ways with ⟨quoted, ⟨s, text, rfl⟩, rfl⟩ | ⟨number, ⟨s, scalar, rfl⟩, rfl⟩ |
    ⟨literal, rfl, rfl⟩ | ⟨opening, body⟩ | ⟨opening, body⟩
  · -- a string followed by no colon is no key: it keeps its text
    have read : lexemeText t.view = some s := by rw [← stringText_toOption quotes, text]; rfl
    obtain ⟨quoted', read'⟩ := respells.valueText (not_colon_head notColon) spelled quoted read
    have text' : r'.stringText t' = .ok s := by
      rw [← toOption_eq_some, stringText_toOption (same ▸ quotes), read']
    exact ⟨more', value_quoted shallow' quoted' text', tail⟩
  · have view := respells.of_plain (by simp [Token.view, number])
    simp only [Token.view, Prod.mk.injEq] at view
    exact ⟨more', value_number r' shallow' (view.1.trans number)
      (numberScalar_of_raw view.2 scalar), tail⟩
  · have view := respells.of_plain (by simp [Token.view, literal])
    simp only [Token.view, Prod.mk.injEq] at view
    rw [← view.2]
    exact ⟨more', value_literal r' shallow' (view.1.trans literal), tail⟩
  · have view := (respells.of_mark (by rw [opening])).trans opening
    simp only [Token.view, Prod.mk.injEq] at view
    obtain ⟨rest', body', tail'⟩ := below.listBody (by simp) body tail
    exact ⟨rest', value_list r' shallow' view.1 view.2 body', tail'⟩
  · have view := (respells.of_mark (by rw [opening])).trans opening
    simp only [Token.view, Prod.mk.injEq] at view
    obtain ⟨rest', body', tail'⟩ := below.mapBody (by simp) body tail
    exact ⟨rest', value_map r' shallow' view.1 view.2 body', tail'⟩

theorem listItems_follows {acc : List Value} (same : r'.options = r.options)
    (quotes : r.options.singleQuotes = true) (below : Follows r r' ts.length)
    (gives : Gives (r.listItems d acc ts) v rest) (reread : Rereads ts ts') :
    ∃ rest', Gives (r'.listItems d acc ts') v rest' ∧ Rereads rest rest' := by
  obtain ⟨w, t, after, item, ways⟩ := listItems_gives gives
  obtain ⟨shorter, -⟩ := id item
  simp only [List.length_cons] at shorter
  have notColon : ∀ u ∈ (t :: after).head?, u.isMark ':' = false :=
    not_colon_of_ends (ways.imp (·.1) (·.2.1)) (by decide)
  obtain ⟨after', item', tail⟩ := value_follows same quotes below item reread notColon
  obtain ⟨t', after'', rfl, respells, -, tail'⟩ := tail.cons
  rcases ways with ⟨close, rfl, rfl⟩ | ⟨open_, comma, next⟩
  · exact ⟨after'', listItems_last r' item' (by rw [respells.isMark, close]), tail'⟩
  · obtain ⟨rest', next', tail''⟩ := below.listItems (by omega) next tail'
    exact ⟨rest', listItems_next r' item' (by rw [respells.isMark, open_])
      (by rw [respells.isMark, comma]) next', tail''⟩

theorem listBody_follows (same : r'.options = r.options) (quotes : r.options.singleQuotes = true)
    (below : Follows r r' ts.length) (gives : Gives (r.listBody d ts) v rest)
    (reread : Rereads ts ts') :
    ∃ rest', Gives (r'.listBody d ts') v rest' ∧ Rereads rest rest' := by
  cases ts with
  | nil => exact (listBody_gives_nil gives).elim
  | cons t more =>
  obtain ⟨t', more', rfl, respells, -, tail⟩ := id reread |>.cons
  rcases listBody_gives gives with ⟨close, rfl, rfl⟩ | ⟨open_, items⟩
  · exact ⟨more', listBody_close r' (by rw [respells.isMark, close]), tail⟩
  · obtain ⟨rest', items', tail'⟩ := listItems_follows same quotes below items reread
    rw [listBody_items r' (by rw [respells.isMark, open_])]
    exact ⟨rest', items', tail'⟩

theorem mapEntries_follows {acc : List (Scalar × Value)} (same : r'.options = r.options)
    (quotes : r.options.singleQuotes = true) (bare : r.options.unquotedKeys = true)
    (below : Follows r r' ts.length) (gives : Gives (r.mapEntries d acc ts) v rest)
    (reread : Rereads ts ts') :
    ∃ rest', Gives (r'.mapEntries d acc ts') v rest' ∧ Rereads rest rest' := by
  obtain ⟨k, afterKey, afterColon, w, t, after, key, colon, item, ways⟩ := mapEntries_gives gives
  cases ts with
  | nil => exact (key_gives_nil key).elim
  | cons tk more =>
  obtain ⟨rfl, name, named, reads⟩ := key_gives key
  cases afterKey with
  | nil => exact (colon_gives_nil colon).elim
  | cons tc afterKey =>
  obtain ⟨isColon, rfl⟩ := colon_gives colon
  obtain ⟨shorter, -⟩ := id item
  simp only [List.length_cons] at shorter
  obtain ⟨tk', more', rfl, respellsKey, spelledKey, afterKey'⟩ := reread.cons
  obtain ⟨tc', afterColon', rfl, respellsColon, -, afterColon''⟩ := afterKey'.cons
  -- the key names the same text and the colon stays
  have named' : r'.keyName tk' = .ok name := by
    rw [keyName_eq_ok (same ▸ quotes) (same ▸ bare)]
    exact respellsKey.keyText spelledKey ((keyName_eq_ok quotes bare).mp named)
  have key' : Gives (r'.key (tk' :: tc' :: afterColon')) k (tc' :: afterColon') :=
    key_of_keyName named' (by rwa [same])
  have colon' : Gives (r'.colon (tc' :: afterColon')) () afterColon' :=
    colon_mark r' (by rw [respellsColon.isMark, isColon])
  have notColon : ∀ u ∈ (t :: after).head?, u.isMark ':' = false :=
    not_colon_of_ends (ways.imp (·.1) (·.2.1)) (by decide)
  obtain ⟨after', item', tail⟩ := below.value (by simp) item afterColon'' notColon
  obtain ⟨t', after'', rfl, respells, -, tail'⟩ := tail.cons
  rcases ways with ⟨close, rfl, rfl⟩ | ⟨open_, comma, next⟩
  · exact ⟨after'', mapEntries_last r' key' colon' item' (by rw [respells.isMark, close]), tail'⟩
  · obtain ⟨rest', next', tail''⟩ := below.mapEntries (by simp; omega) next tail'
    exact ⟨rest', mapEntries_next r' key' colon' item' (by rw [respells.isMark, open_])
      (by rw [respells.isMark, comma]) next', tail''⟩

theorem mapBody_follows (same : r'.options = r.options) (quotes : r.options.singleQuotes = true)
    (bare : r.options.unquotedKeys = true) (below : Follows r r' ts.length)
    (gives : Gives (r.mapBody d ts) v rest) (reread : Rereads ts ts') :
    ∃ rest', Gives (r'.mapBody d ts') v rest' ∧ Rereads rest rest' := by
  cases ts with
  | nil => exact (mapBody_gives_nil gives).elim
  | cons t more =>
  obtain ⟨t', more', rfl, respells, -, tail⟩ := id reread |>.cons
  rcases mapBody_gives gives with ⟨close, rfl, rfl⟩ | ⟨open_, entries⟩
  · exact ⟨more', mapBody_close r' (by rw [respells.isMark, close]), tail⟩
  · obtain ⟨rest', entries', tail'⟩ := mapEntries_follows same quotes bare below entries reread
    rw [mapBody_entries r' (by rw [respells.isMark, open_])]
    exact ⟨rest', entries', tail'⟩

theorem Follows.mono {n m : Nat} (follows : Follows r r' n) (le : m ≤ n) : Follows r r' m :=
  ⟨fun short => follows.value (by omega), fun short => follows.listBody (by omega),
    fun short => follows.listItems (by omega), fun short => follows.mapBody (by omega),
    fun short => follows.mapEntries (by omega)⟩

theorem Follows.succ (same : r'.options = r.options) (quotes : r.options.singleQuotes = true)
    (bare : r.options.unquotedKeys = true) {n : Nat} (below : Follows r r' n) :
    Follows r r' (n + 1) :=
  ⟨fun short => value_follows same quotes (below.mono (by omega)),
    fun short => listBody_follows same quotes (below.mono (by omega)),
    fun short => listItems_follows same quotes (below.mono (by omega)),
    fun short => mapBody_follows same quotes bare (below.mono (by omega)),
    fun short => mapEntries_follows same quotes bare (below.mono (by omega))⟩

end Steps

/-- The induction on the number of lexemes left: every reading step follows its respelling. -/
theorem follows (same : r'.options = r.options) (quotes : r.options.singleQuotes = true)
    (bare : r.options.unquotedKeys = true) (n : Nat) : Follows r r' n := by
  induction n with
  | zero => exact ⟨nofun, nofun, nofun, nofun, nofun⟩
  | succ n below => exact below.succ same quotes bare

/-- A respelled document reads as the document. -/
theorem document_follows {r r' : Reader} (same : r'.options = r.options)
    (quotes : r.options.singleQuotes = true) (bare : r.options.unquotedKeys = true)
    {ts ts' : List Token} {doc : Option Value} (read : r.document ts = .ok doc)
    (reread : Rereads ts ts') : r'.document ts' = .ok doc := by
  cases ts with
  | nil =>
      rw [reread.nil_left]
      rw [document] at read
      cases read
      rfl
  | cons t rest =>
      obtain ⟨v, rfl, gives⟩ := document_gives read
      obtain ⟨rest', gives', tail⟩ :=
        (follows r r' same quotes bare _).value (Nat.lt_succ_self _) gives reread
          (fun _ member => by cases member)
      rw [tail.nil_left] at gives'
      refine document_of_value r' ?_ gives'
      rintro rfl
      exact value_gives_nil gives'

end Reader

/-! ### Relaxed spelling is sugar -/

/-- **Relaxed spelling is sugar.** With unquoted keys and single quotes allowed, a text that
writes the lexemes of a document with other blanks around them, with strings between the other
quotes, and with keys made of name characters bare or quoted, reads as the same document. -/
theorem read_resugared {o : Options} (quotes : o.singleQuotes = true)
    (bare : o.unquotedKeys = true) {text text' : String} {doc : Option Value}
    (reads : read o text = .ok doc) (resugared : Resugared text.toList text'.toList) :
    read o text' = .ok doc := by
  obtain ⟨ts, ms, gap, rest, scanned, respelled, blanks, laid, written⟩ := resugared
  have document : Reader.document ⟨o, text.toList.length⟩ ts = .ok doc := by
    simpa only [read, scanned] using reads
  obtain ⟨ts', scanned', views⟩ :=
    scan_respelled scanned (Reader.document_atomsClosed _ document) respelled blanks laid
  have reread : Rereads ts ts' := ⟨views ▸ respelled, scan_wellSpelled scanned⟩
  rw [← written] at scanned'
  simp only [read, scanned']
  exact Reader.document_follows (by rfl) quotes bare document reread

/-- A map with a double-quoted key and a single-quoted value. -/
def quotedSample : String := "\x7b\"a\": 'x'\x7d"

/-- The same map with the key bare, the value between double quotes, and the blanks moved. -/
def bareSample : String := " \x7ba:\"x\"\x7d"

theorem quotedSample_resugared : Resugared quotedSample.toList bareSample.toList := by
  have views : (Token.scan quotedSample.toList).toOption.map (List.map Token.view) =
      some [(.mark, ['\x7b']), (.string, ['"', 'a', '"']), (.mark, [':']),
        (.singleQuoted, ['\'', 'x', '\'']), (.mark, ['\x7d'])] := by
    decide +kernel
  cases scanned : Token.scan quotedSample.toList with
  | error e =>
      rw [scanned] at views
      cases views
  | ok ts =>
      rw [scanned] at views
      simp only [Except.toOption, Option.map_some, Option.some.injEq] at views
      refine ⟨ts, [(.mark, ['\x7b']), (.name, ['a']), (.mark, [':']),
        (.string, '"' :: Reader.stringText.requote ['x'] ++ ['"']), (.mark, ['\x7d'])], [' '], _,
        scanned, ?_, List.forall_mem_singleton.mpr (by decide), Laid.lexText _, ?_⟩
      · rw [views]
        refine .cons (.same _)
          (.cons ?_ (.cons (.same _) (.cons (.toDouble ['x']) (.cons (.same _) .nil))))
        exact .unquote ['a'] rfl (.inl rfl) (by decide +kernel) (by simp)
          (List.forall_mem_singleton.mpr (by decide))
      · decide +kernel

theorem read_resugared_bareSample :
    ∃ doc, read .relaxed quotedSample = .ok doc ∧ Resugared quotedSample.toList bareSample.toList ∧
      read .relaxed bareSample = .ok doc := by
  have reads : (read .relaxed quotedSample).isOk = true := by decide +kernel
  cases found : read .relaxed quotedSample with
  | error e =>
      rw [found] at reads
      cases reads
  | ok doc =>
      exact ⟨doc, rfl, quotedSample_resugared, read_resugared rfl rfl found quotedSample_resugared⟩

end Ingest.Relaxed
