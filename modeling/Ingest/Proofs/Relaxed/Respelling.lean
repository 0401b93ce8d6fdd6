import Ingest.Proofs.Relaxed.LexemeBounds

/-!
Contract: a document written with other blanks and other spellings of its lexemes splits into
the respelled lexemes.

Owns: the rewrites of one lexeme that keep what it reads as (`Respells`): a double-quoted string
written between single quotes (`singleQuotedBody`), a single-quoted one written between double
quotes (the reader's own `requote`), a quoted key whose text is a name written bare, and a bare
key quoted; lexemes respelled one by one (`Respelled`), and texts that write them with any blanks
around them (`Resugared`); and that when every number and literal of a text is closed by a mark
(`AtomsClosed`), the text written so splits into the respelled lexemes (`scan_respelled`).

Does not own: why a text that reads has its numbers and literals closed, nor what respelled
lexemes read as; that is `Relaxed.Sugar`.
-/

namespace Ingest.Relaxed

open Ingest.Text

/-! ### Respelling string bodies -/

/-- A double-quoted string's body written between single quotes: each single quote is escaped,
and every escape stays as it is. -/
def singleQuotedBody : List Char → List Char
  | '\\' :: c :: rest => '\\' :: c :: singleQuotedBody rest
  | '\'' :: rest => '\\' :: '\'' :: singleQuotedBody rest
  | c :: rest => c :: singleQuotedBody rest
  | [] => []

/-- Whether a string body holds the escape of a single quote, which JSON does not know. -/
def escapesQuote : List Char → Bool
  | '\\' :: c :: rest => c == '\'' || escapesQuote rest
  | _ :: rest => escapesQuote rest
  | [] => false

section Bodies

variable {c : Char} {rest : List Char}

theorem singleQuotedBody_plain (notBackslash : c ≠ '\\') :
    singleQuotedBody (c :: rest) =
      if c = '\'' then '\\' :: '\'' :: singleQuotedBody rest else c :: singleQuotedBody rest := by
  by_cases quote : c = '\''
  · subst quote
    rw [if_pos rfl, singleQuotedBody]
  · rw [if_neg quote, singleQuotedBody.eq_3 _ _ (fun _ _ same => absurd same notBackslash)
      (fun same => absurd same quote)]

theorem requote_plain (notBackslash : c ≠ '\\') :
    Reader.stringText.requote (c :: rest) =
      if c = '"' then '\\' :: '"' :: Reader.stringText.requote rest
      else c :: Reader.stringText.requote rest := by
  by_cases quote : c = '"'
  · subst quote
    rw [if_pos rfl, Reader.stringText.requote]
  · rw [if_neg quote, Reader.stringText.requote.eq_3 _ _ (fun _ _ same => absurd same notBackslash)
      (fun same => absurd same quote)]

theorem requote_escape (e : Char) :
    Reader.stringText.requote ('\\' :: e :: rest) =
      (if e = '\'' then ['\''] else ['\\', e]) ++ Reader.stringText.requote rest := by
  rw [Reader.stringText.requote]

theorem escapesQuote_plain (notBackslash : c ≠ '\\') :
    escapesQuote (c :: rest) = escapesQuote rest :=
  escapesQuote.eq_2 _ _ (fun _ _ same => absurd same notBackslash)

end Bodies

namespace QuotedBody

/-- Written between single quotes, a double-quoted body is a body. -/
theorem singleQuoted {body : List Char} (quoted : QuotedBody '"' body) :
    QuotedBody '\'' (singleQuotedBody body) := by
  induction quoted with
  | nil => exact .nil
  | plain notQuote notBackslash printable _ ih =>
      rw [singleQuotedBody_plain notBackslash]
      split
      · exact .escape '\'' ih
      · exact .plain ‹_› notBackslash printable ih
  | escape e _ ih =>
      rw [singleQuotedBody]
      exact .escape e ih

/-- Written between double quotes, a single-quoted body is a body. -/
theorem requote {body : List Char} (quoted : QuotedBody '\'' body) :
    QuotedBody '"' (Reader.stringText.requote body) := by
  induction quoted with
  | nil => exact .nil
  | plain notQuote notBackslash printable _ ih =>
      rw [requote_plain notBackslash]
      split
      · exact .escape '"' ih
      · exact .plain ‹_› notBackslash printable ih
  | escape e _ ih =>
      rw [requote_escape]
      split
      · exact .plain (by decide) (by decide) (by decide) ih
      · exact .escape e ih

/-- A double-quoted body without an escaped single quote comes back from single quotes as it
was. -/
theorem requote_singleQuotedBody {body : List Char} (quoted : QuotedBody '"' body)
    (known : escapesQuote body = false) :
    Reader.stringText.requote (singleQuotedBody body) = body := by
  induction quoted with
  | nil => rfl
  | plain notQuote notBackslash printable _ ih =>
      rw [escapesQuote_plain notBackslash] at known
      rw [singleQuotedBody_plain notBackslash]
      split
      · rename_i quote
        rw [requote_escape, if_pos rfl, ih known, quote]
        rfl
      · rw [requote_plain notBackslash, if_neg notQuote, ih known]
  | escape e _ ih =>
      simp only [escapesQuote, Bool.or_eq_false_iff, beq_eq_false_iff_ne] at known
      rw [singleQuotedBody, requote_escape, if_neg known.1, ih known.2]
      rfl

end QuotedBody

/-! ### Lexemes found whole -/

/-- Name characters stand for themselves inside quotes. -/
theorem isNameChar_plain {c : Char} (name : isNameChar c = true) :
    c ≠ '"' ∧ c ≠ '\'' ∧ c ≠ '\\' ∧ 0x20 ≤ c.toNat ∧ isBlank c = false := by
  have notBlank : isBlank c = false := by
    cases blank : isBlank c
    · rfl
    · rw [isNameChar_of_blank blank] at name
      contradiction
  have high : ∀ range ∈ wordRanges.ranges, 0x30 ≤ range.1 ∧ (range.2 < 0x5C ∨ 0x5C < range.1) := by
    decide +kernel
  simp only [isNameChar, Bool.or_eq_true, decide_eq_true_eq] at name
  rcases name with (((((word | rfl) | rfl) | rfl) | rfl) | rfl) | rfl
  · obtain ⟨range, member, low, up⟩ := (CodeRanges.contains_iff _ c).mp word
    obtain ⟨first, apart⟩ := high range member
    refine ⟨?_, ?_, ?_, by omega, notBlank⟩ <;> rintro rfl <;> simp at low up <;> omega
  all_goals exact ⟨by decide, by decide, by decide, by decide, notBlank⟩

section Lexemes

variable {lex follow follow' : List Char}

theorem quoted_prefix {q : Char} {cs : List Char} {m : Nat}
    (quoted : quotedLength q 0 (cs ++ follow) = some m) (whole : cs.length = m) :
    ∃ body, cs = body ++ [q] ∧ QuotedBody q body := by
  obtain ⟨body, rest, split, inner, rfl⟩ := quotedBody_of_quotedLength quoted
  have length : cs.length = (body ++ [q]).length := by simp [whole]
  have closed : cs = body ++ [q] :=
    calc cs = (cs ++ follow).take cs.length := by simp
      _ = (body ++ [q] ++ rest).take (body ++ [q]).length := by rw [split, length]; simp
      _ = body ++ [q] := List.take_left
  exact ⟨body, closed, inner⟩

theorem Lexes.doubleQuoted_body (lexes : Lexes .string lex follow) :
    ∃ body, lex = '"' :: body ++ ['"'] ∧ QuotedBody '"' body := by
  obtain ⟨c, cs, rfl, classified⟩ := lexes
  obtain ⟨rfl, m, same, quoted⟩ := classify_eq_string classified
  obtain ⟨body, rfl, inner⟩ := quoted_prefix quoted (by simpa using same)
  exact ⟨body, rfl, inner⟩

theorem Lexes.singleQuoted_body (lexes : Lexes .singleQuoted lex follow) :
    ∃ body, lex = '\'' :: body ++ ['\''] ∧ QuotedBody '\'' body := by
  obtain ⟨c, cs, rfl, classified⟩ := lexes
  obtain ⟨rfl, m, same, quoted⟩ := classify_eq_singleQuoted classified
  obtain ⟨body, rfl, inner⟩ := quoted_prefix quoted (by simpa using same)
  exact ⟨body, rfl, inner⟩

theorem lexes_doubleQuoted {body : List Char} (quoted : QuotedBody '"' body) (follow : List Char) :
    Lexes .string ('"' :: body ++ ['"']) follow := by
  refine ⟨'"', body ++ ['"'], rfl, ?_⟩
  rw [List.append_assoc, List.singleton_append,
    classify_string (quoted.quotedLength_append (by decide) 0 follow)]
  simp

theorem lexes_singleQuoted {body : List Char} (quoted : QuotedBody '\'' body) (follow : List Char) :
    Lexes .singleQuoted ('\'' :: body ++ ['\'']) follow := by
  refine ⟨'\'', body ++ ['\''], rfl, ?_⟩
  rw [List.append_assoc, List.singleton_append]
  simp [classify, show isBlank '\'' = false by decide,
    quoted.quotedLength_append (by decide) 0 follow]

/-- A bare name is name characters, and a colon comes after it and the blanks that follow. -/
theorem Lexes.name_chars (lexes : Lexes .name lex follow) :
    lex ≠ [] ∧ (∀ c ∈ lex, isNameChar c = true) ∧ (follow.dropWhile isBlank).head? = some ':' := by
  obtain ⟨c, cs, rfl, classified⟩ := lexes
  have named := classify_eq_name classified
  rw [← List.cons_append] at named
  simp only [nameLength] at named
  split at named
  · cases named
  · split at named
    · rename_i colon
      have length := Option.some.inj named
      have run : (c :: cs ++ follow).takeWhile isNameChar = c :: cs := by
        rw [List.prefix_iff_eq_take.mp (List.takeWhile_prefix _), length]
        simp
      refine ⟨List.cons_ne_nil c cs, fun d member => ?_, ?_⟩
      · rw [← run] at member
        exact List.mem_takeWhile_imp member
      · rw [← drop_takeWhile_length (p := isNameChar) (c :: cs ++ follow), run] at colon
        simpa using colon
    · cases named

theorem Lexes.mark_char (lexes : Lexes .mark lex follow) :
    ∃ m, lex = [m] ∧ isMarkChar m = true := by
  obtain ⟨c, cs, rfl, classified⟩ := lexes
  obtain ⟨length, mark⟩ := classify_eq_mark classified
  obtain rfl : cs = [] := List.eq_nil_of_length_eq_zero (by simpa using length)
  exact ⟨c, rfl, mark⟩

/-- A lexeme that starts with a colon is the colon mark. -/
theorem Lexes.colon {kind : TokenKind} {cs : List Char} (lexes : Lexes kind (':' :: cs) follow) :
    kind = .mark ∧ cs = [] := by
  obtain ⟨c, more, same, classified⟩ := lexes
  obtain ⟨rfl, rfl⟩ := List.cons.inj same
  rw [classify_markChar (by decide)] at classified
  simp only [Lexeme.token.injEq, List.length_cons] at classified
  exact ⟨classified.1.symm, List.eq_nil_of_length_eq_zero (by omega)⟩

/-- A number lexeme is found alike before anything that closes a value. -/
theorem Lexes.number_closes (lexes : Lexes .number lex follow) (closes : Closes follow)
    (closes' : Closes follow') : Lexes .number lex follow' := by
  obtain ⟨c, cs, rfl, classified⟩ := lexes
  obtain ⟨notBlank, notQuote, notSingle, noName, number⟩ := classify_eq_number classified
  refine ⟨c, cs, rfl, classify_number notBlank notQuote notSingle ?_ ?_⟩
  · rw [← List.cons_append, nameLength_append_closes closes', ← nameLength_append_closes closes,
      List.cons_append, noName]
  · rw [← List.cons_append, numberLength_append_stop closes'.stopsNumber,
      ← numberLength_append_stop closes.stopsNumber, List.cons_append, number]

/-- A literal lexeme is a literal word, found before anything that closes a value. -/
theorem Lexes.literal_closes (lexes : Lexes .literal lex follow) (closes' : Closes follow') :
    Lexes .literal lex follow' := by
  obtain ⟨c, cs, rfl, classified⟩ := lexes
  obtain ⟨s, word, spelled, taken, length⟩ := literalLength_eq_some (classify_eq_literal classified)
  rw [← List.cons_append, List.take_left] at taken
  exact taken ▸ lexes_word spelled closes'

end Lexemes

/-! ### Respelled lexemes -/

/-- The text a string lexeme stands for, read with single quotes allowed. -/
def lexemeText (l : TokenKind × List Char) : Option Str :=
  ((Reader.mk Options.relaxed 0).stringText ⟨l.1, l.2, 0⟩).toOption

/-- One lexeme written another way that reads the same. `key` says that a colon comes next, so
that the lexeme is a map key. -/
inductive Respells (key : Prop) : TokenKind × List Char → TokenKind × List Char → Prop
  /-- The lexeme as it is. -/
  | same (l : TokenKind × List Char) : Respells key l l
  /-- A double-quoted string written between single quotes. -/
  | toSingle (body : List Char) :
      Respells key (.string, '"' :: body ++ ['"'])
        (.singleQuoted, '\'' :: singleQuotedBody body ++ ['\''])
  /-- A single-quoted string written between double quotes. -/
  | toDouble (body : List Char) :
      Respells key (.singleQuoted, '\'' :: body ++ ['\''])
        (.string, '"' :: Reader.stringText.requote body ++ ['"'])
  /-- A quoted key whose text is a name, written bare. -/
  | unquote {l : TokenKind × List Char} (name : List Char) : key →
      (l.1 = .string ∨ l.1 = .singleQuoted) → lexemeText l = some (Str.ofChars name) →
      name ≠ [] → (∀ c ∈ name, isNameChar c = true) → Respells key l (.name, name)
  /-- A bare key written between double quotes. -/
  | quote (name : List Char) : Respells key (.name, name) (.string, '"' :: name ++ ['"'])
  /-- A bare key written between single quotes. -/
  | quoteSingle (name : List Char) :
      Respells key (.name, name) (.singleQuoted, '\'' :: name ++ ['\''])

/-- Lexemes respelled one by one, each knowing whether a colon comes next. -/
inductive Respelled : List (TokenKind × List Char) → List (TokenKind × List Char) → Prop
  | nil : Respelled [] []
  | cons {l m : TokenKind × List Char} {ls ms : List (TokenKind × List Char)} :
      Respells (ls.head? = some (.mark, [':'])) l m → Respelled ls ms →
      Respelled (l :: ls) (m :: ms)

/-- `text'` writes the lexemes of `text` respelled, with any blanks before, between and after
them. -/
def Resugared (text text' : List Char) : Prop :=
  ∃ ts ms gap rest, Token.scan text = .ok ts ∧ Respelled (ts.map Token.view) ms ∧
    (∀ c ∈ gap, isBlank c = true) ∧ Laid ms rest ∧ text' = gap ++ rest

/-- A mark that may close a value inside a list or a map. -/
def Closer (l : TokenKind × List Char) : Prop :=
  l = (.mark, [',']) ∨ l = (.mark, [']']) ∨ l = (.mark, ['}'])

/-- Every number and literal is followed by a closer, or by nothing. -/
inductive AtomsClosed : List (TokenKind × List Char) → Prop
  | nil : AtomsClosed []
  | cons {l : TokenKind × List Char} {ls : List (TokenKind × List Char)} :
      ((l.1 = .number ∨ l.1 = .literal) → ∀ m ∈ ls.head?, Closer m) → AtomsClosed ls →
      AtomsClosed (l :: ls)

/-- A lexeme that is neither a string nor a name respells only as itself. -/
theorem Respells.of_plain {key : Prop} {l m : TokenKind × List Char} (respells : Respells key l m)
    (plain : l.1 ≠ .string ∧ l.1 ≠ .singleQuoted ∧ l.1 ≠ .name) : m = l := by
  obtain ⟨notString, notSingle, notName⟩ := plain
  cases respells with
  | same => rfl
  | unquote _ _ quoted => rcases quoted with kind | kind <;> contradiction
  | toSingle => exact absurd rfl notString
  | toDouble => exact absurd rfl notSingle
  | quote | quoteSingle => exact absurd rfl notName

/-- Only a mark respells a mark, and only as itself. -/
theorem Respells.of_mark {key : Prop} {l m : TokenKind × List Char} (respells : Respells key l m)
    (mark : l.1 = .mark) : m = l :=
  respells.of_plain (by simp [mark])

theorem Laid.closes {ms : List (TokenKind × List Char)} {text : List Char} (laid : Laid ms text)
    (closer : ∀ m ∈ ms.head?, Closer m) : Closes text := by
  cases laid with
  | nil => intro c member; cases member
  | @cons m ms gap rest text blanks _ spelled =>
      subst spelled
      rcases closer m rfl with rfl | rfl | rfl
      all_goals exact Closes.of_head (by decide) _

theorem Laid.colon {ms : List (TokenKind × List Char)} {text : List Char} (laid : Laid ms text)
    (colon : ms.head? = some (.mark, [':'])) : ∃ rest, text = ':' :: rest := by
  cases laid with
  | nil => cases colon
  | @cons m ms gap rest text blanks _ spelled =>
      cases colon
      exact ⟨_, spelled⟩

theorem Separated.laid {follow : List Char} {ls : List (TokenKind × List Char)} {text : List Char}
    (separated : Separated follow ls text) : Laid ls text := by
  induction separated with
  | nil => exact .nil
  | cons blanks _ _ spelled ih => exact .cons blanks ih spelled

/-- After a bare name comes the colon. -/
theorem Separated.colon_after {lex gap rest : List Char} {ls : List (TokenKind × List Char)}
    (lexes : Lexes .name lex (gap ++ rest ++ [])) (blanks : ∀ c ∈ gap, isBlank c = true)
    (separated : Separated [] ls rest) : ls.head? = some (.mark, [':']) := by
  have colon := lexes.name_chars.2.2
  rw [List.append_nil, List.dropWhile_append_of_pos blanks] at colon
  have next := separated.head (by simp)
  cases separated with
  | nil => simp at colon
  | @cons kind lex' gap' rest' text ls' blanks' lexes' _ spelled =>
      subst spelled
      obtain ⟨c, cs, rfl, -⟩ := id lexes'
      have notBlank : isBlank c = false := next c (by simp)
      simp only [List.cons_append, List.append_assoc, List.dropWhile_cons, notBlank,
        Bool.false_eq_true, if_false, List.head?_cons, Option.some.injEq] at colon
      subst colon
      obtain ⟨rfl, rfl⟩ := lexes'.colon
      rfl

/-- A name stands for itself between either quote. -/
theorem quotedBody_of_names {q : Char} (quote : q = '"' ∨ q = '\'') :
    ∀ {name : List Char}, (∀ c ∈ name, isNameChar c = true) → QuotedBody q name
  | [], _ => .nil
  | c :: rest, names => by
      obtain ⟨notDouble, notSingle, notBackslash, printable, -⟩ :=
        isNameChar_plain (names c List.mem_cons_self)
      refine .plain ?_ notBackslash printable
        (quotedBody_of_names quote fun d member => names d (List.mem_cons_of_mem c member))
      rcases quote with rfl | rfl
      exacts [notDouble, notSingle]

/-- A name before blanks and a colon is a bare name. -/
theorem lexes_bare {name gap rest : List Char} (nonempty : name ≠ [])
    (names : ∀ c ∈ name, isNameChar c = true) (blanks : ∀ c ∈ gap, isBlank c = true) :
    Lexes .name name (gap ++ ':' :: rest) := by
  obtain ⟨c, cs, rfl⟩ := List.exists_cons_of_ne_nil nonempty
  obtain ⟨notDouble, notSingle, -, -, notBlank⟩ := isNameChar_plain (names c List.mem_cons_self)
  exact lexes_name names notBlank notDouble notSingle blanks rest

theorem Respelled.closer_head {ls ms : List (TokenKind × List Char)} (respelled : Respelled ls ms)
    (closer : ∀ m ∈ ls.head?, Closer m) : ∀ m ∈ ms.head?, Closer m := by
  cases respelled with
  | nil => exact closer
  | @cons l m ls ms respells _ =>
      have mark : l.1 = .mark := by rcases closer l rfl with rfl | rfl | rfl <;> rfl
      rw [respells.of_mark mark]
      exact closer

theorem Respelled.colon_head {ls ms : List (TokenKind × List Char)} (respelled : Respelled ls ms)
    (colon : ls.head? = some (.mark, [':'])) : ms.head? = some (.mark, [':']) := by
  cases respelled with
  | nil => cases colon
  | cons respells _ =>
      cases colon
      rw [respells.of_mark rfl]
      rfl

/-- **Respelled lexemes are found whole where they are written.** When every number and literal
is closed by a mark, lexemes found whole with blanks between them, respelled one by one and
laid out with any blanks between them, are found whole again. -/
theorem Respelled.separated {ls ms : List (TokenKind × List Char)} (respelled : Respelled ls ms) :
    ∀ {text text' : List Char}, Separated [] ls text → AtomsClosed ls → Laid ms text' →
      Separated [] ms text' := by
  induction respelled with
  | nil =>
      intro text text' _ _ laid
      cases laid
      exact .nil
  | @cons l m ls ms respells rest ih =>
      intro text text' separated closed laid
      cases separated with
      | @cons kind lex gap tail _ _ blanks lexes separated' spelled =>
      cases closed with
      | cons closedHere closed' =>
      cases laid with
      | @cons _ _ gap' tail' _ blanks' laid' spelled' =>
      refine .cons blanks' ?_ (ih separated' closed' laid') spelled'
      -- a bare key is followed by its colon in both texts
      have colon : ls.head? = some (.mark, [':']) → ∃ r, gap' ++ tail' ++ [] = gap' ++ ':' :: r :=
        fun colon => by
          obtain ⟨r, rfl⟩ := laid'.colon (rest.colon_head colon)
          exact ⟨r, by simp⟩
      -- a number or literal is followed by a closing mark in both texts
      have closes : (kind = .number ∨ kind = .literal) →
          Closes (gap ++ tail ++ []) ∧ Closes (gap' ++ tail' ++ []) := fun atom => by
        have closer := closedHere atom
        rw [List.append_nil, List.append_nil]
        exact ⟨Closes.blanks_append blanks (separated'.laid.closes closer),
          Closes.blanks_append blanks' (laid'.closes (rest.closer_head closer))⟩
      cases respells with
      | same =>
          cases kind with
          | string =>
              obtain ⟨body, rfl, quoted⟩ := lexes.doubleQuoted_body
              exact lexes_doubleQuoted quoted _
          | singleQuoted =>
              obtain ⟨body, rfl, quoted⟩ := lexes.singleQuoted_body
              exact lexes_singleQuoted quoted _
          | name =>
              obtain ⟨nonempty, names, -⟩ := lexes.name_chars
              obtain ⟨r, follow⟩ := colon (Separated.colon_after lexes blanks separated')
              exact follow ▸ lexes_bare nonempty names blanks'
          | number =>
              obtain ⟨before, after⟩ := closes (.inl rfl)
              exact lexes.number_closes before after
          | literal => exact lexes.literal_closes (closes (.inr rfl)).2
          | mark =>
              obtain ⟨c, rfl, mark⟩ := lexes.mark_char
              exact lexes_mark mark _
      | toSingle body =>
          obtain ⟨body', same, quoted⟩ := lexes.doubleQuoted_body
          obtain rfl : body = body' := by simpa using same
          exact lexes_singleQuoted quoted.singleQuoted _
      | toDouble body =>
          obtain ⟨body', same, quoted⟩ := lexes.singleQuoted_body
          obtain rfl : body = body' := by simpa using same
          exact lexes_doubleQuoted quoted.requote _
      | unquote name key _ _ nonempty names =>
          obtain ⟨r, follow⟩ := colon key
          exact follow ▸ lexes_bare nonempty names blanks'
      | quote name =>
          obtain ⟨-, names, -⟩ := lexes.name_chars
          exact lexes_doubleQuoted (quotedBody_of_names (.inl rfl) names) _
      | quoteSingle name =>
          obtain ⟨-, names, -⟩ := lexes.name_chars
          exact lexes_singleQuoted (quotedBody_of_names (.inr rfl) names) _

/-- **A respelled text splits into the respelled lexemes.** When every number and literal of a
text is closed by a mark, writing its lexemes respelled, with any blanks around them, gives a
text the lexer splits into exactly those lexemes. -/
theorem scan_respelled {text : List Char} {ts : List Token} (scanned : Token.scan text = .ok ts)
    (closed : AtomsClosed (ts.map Token.view)) {ms : List (TokenKind × List Char)}
    (respelled : Respelled (ts.map Token.view) ms) {gap rest : List Char}
    (blanks : ∀ c ∈ gap, isBlank c = true) (laid : Laid ms rest) :
    ∃ ts', Token.scan (gap ++ rest) = .ok ts' ∧ ts'.map Token.view = ms := by
  obtain ⟨-, text₀, -, -, separated⟩ := scan_layout scanned
  have separated' := respelled.separated separated closed laid
  obtain ⟨ts', views, run⟩ := scanFrom_separated (by simp) separated' gap.length []
  refine ⟨ts', ?_, views⟩
  rw [Token.scan, scanFrom_gap blanks (by simpa using separated'.head (by simp)),
    ← List.append_nil rest, Nat.zero_add, run, scanFrom]
  simp

/-! ### Lexemes as the lexer spells them -/

/-- A lexeme spelled as the lexer cuts it: a string is a body between its two quotes, a name is
a run of name characters. -/
def WellSpelled (l : TokenKind × List Char) : Prop :=
  (l.1 = .string → ∃ body, l.2 = '"' :: body ++ ['"'] ∧ QuotedBody '"' body) ∧
    (l.1 = .singleQuoted → ∃ body, l.2 = '\'' :: body ++ ['\''] ∧ QuotedBody '\'' body) ∧
    (l.1 = .name → l.2 ≠ [] ∧ ∀ c ∈ l.2, isNameChar c = true)

theorem Separated.wellSpelled {follow : List Char} {ls : List (TokenKind × List Char)}
    {text : List Char} (separated : Separated follow ls text) : ∀ l ∈ ls, WellSpelled l := by
  induction separated with
  | nil => nofun
  | @cons kind lex gap rest text ls _ lexes _ _ ih =>
      rintro l (_ | ⟨_, member⟩)
      · refine ⟨?_, ?_, ?_⟩
        · rintro (rfl : kind = .string)
          exact lexes.doubleQuoted_body
        · rintro (rfl : kind = .singleQuoted)
          exact lexes.singleQuoted_body
        · rintro (rfl : kind = .name)
          obtain ⟨nonempty, names, -⟩ := lexes.name_chars
          exact ⟨nonempty, names⟩
      · exact ih l member

/-- Every lexeme the lexer makes is well spelled. -/
theorem scan_wellSpelled {text : List Char} {ts : List Token} (scanned : Token.scan text = .ok ts) :
    ∀ t ∈ ts, WellSpelled t.view := by
  obtain ⟨-, text₀, -, -, separated⟩ := scan_layout scanned
  exact fun t member => separated.wellSpelled _ (List.mem_map_of_mem member)

end Ingest.Relaxed
