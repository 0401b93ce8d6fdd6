import Ingest.Proofs.Relaxed.Lexing
import Ingest.Value.Render

/-!
Contract: the compact text of a value tree is a run of separated lexemes.

Owns: the value trees that reading can give back (`Value.Rereadable`: scalars that their text
stands for, maps whose keys read back and lie in different slots) and how deep their elements
lie (`Value.nesting`); the lexemes a tree is written as (`Value.lexemes`), whose text is the
compact text; and that the lexer finds them one by one, a scalar ended by the comma, bracket or
brace written after it and a bare key by its colon.

Does not own: how the reader turns the lexemes back into the tree; that is `Relaxed.Descent`.
-/

namespace Ingest

open Ingest.Text Ingest.Relaxed

/-! ### Texts without lone surrogates -/

namespace Text.Str

theorem filterMap_ofChars (cs : List Char) : (ofChars cs).points.filterMap Point.char? = cs := by
  rw [ofChars, List.filterMap_map, Point.char?_comp_char, List.filterMap_some]

/-- A text without lone surrogates is a list of characters. -/
theorem exists_eq_ofChars {s : Str} (plain : s.hasSurrogate = false) : ∃ cs, s = ofChars cs := by
  obtain ⟨points⟩ := s
  induction points with
  | nil => exact ⟨[], rfl⟩
  | cons p ps ih =>
      simp only [hasSurrogate, List.any_cons, Bool.or_eq_false_iff] at plain
      obtain ⟨cs, rest⟩ := ih plain.2
      cases p with
      | char c =>
          refine ⟨c :: cs, ?_⟩
          simp only [ofChars, mk.injEq, List.map_cons] at rest ⊢
          rw [rest]
      | surrogate o => simp [Point.isSurrogate, Point.char?] at plain

theorem hasSurrogate_ofChars (cs : List Char) : (ofChars cs).hasSurrogate = false := by
  simp [hasSurrogate, ofChars, Point.isSurrogate, Point.char?]

theorem ofChars_append (as bs : List Char) : ofChars (as ++ bs) = ofChars as ++ ofChars bs := by
  simp only [ofChars, List.map_append]
  rfl

end Text.Str

theorem jsonText_ofChars (cs : List Char) :
    jsonText (Str.ofChars cs) = Str.ofChars (jsonLiteralChars cs) := by
  simp [jsonText, jsonLiteralChars, Str.ofChars, jsonPoint, List.map_flatMap, List.flatMap_map]

/-! ### Scalars -/

namespace Scalar

/-- A scalar that its compact text stands for: an integer whose text the reader takes, a
finite floating point number, a text without lone surrogates, null or a boolean. -/
def Rereadable : Scalar → Prop
  | .int n => (toString n).length ≤ Reader.integerLimit
  | .float x => x.isFinite = true
  | .str s => s.hasSurrogate = false
  | .null | .bool _ => True

instance : DecidablePred Rereadable := fun s =>
  match s with
  | .int n => inferInstanceAs (Decidable ((toString n).length ≤ Reader.integerLimit))
  | .float x => inferInstanceAs (Decidable (x.isFinite = true))
  | .str t => inferInstanceAs (Decidable (t.hasSurrogate = false))
  | .null | .bool _ => inferInstanceAs (Decidable True)

/-- A map key that reading gives back, keys coerced when `coerce` is set: a text without lone
surrogates that coerces to itself, and with coercion also a boolean or an integer of 64 signed
bits, which are written bare. -/
def RereadableKey (coerce : Bool) : Scalar → Prop
  | .str s => s.hasSurrogate = false ∧ (coerce = true → coerceKey s = .ok (.str s))
  | .bool _ => coerce = true
  | .int n => coerce = true ∧ -Int.pow 2 63 ≤ n ∧ n ≤ Int.pow 2 63 - 1
  | .null | .float _ => False

/-- The characters of the compact text of a scalar, lone surrogates dropped. -/
def chars (s : Scalar) : List Char :=
  s.render.points.filterMap Text.Point.char?

/-- The class of lexeme a scalar is written as where a value stands. -/
def lexKind : Scalar → TokenKind
  | .str _ => .string
  | .int _ | .float _ => .number
  | .null | .bool _ => .literal

/-- The class of lexeme a map key is written as: a text is a string, anything else bare. -/
def keyKind : Scalar → TokenKind
  | .str _ => .string
  | .null | .bool _ | .int _ | .float _ => .name

theorem chars_str (cs : List Char) : (Scalar.str (Str.ofChars cs)).chars = jsonLiteralChars cs := by
  rw [chars, render, jsonText_ofChars, Str.filterMap_ofChars]

theorem chars_int (n : Int) : (Scalar.int n).chars = (toString n).toList := by
  rw [chars, render, Str.ofString, Str.filterMap_ofChars]

theorem chars_float (x : Binary64) : (Scalar.float x).chars = (Notation.json.write x).toList := by
  rw [chars, render, Str.ofString, Str.filterMap_ofChars]

theorem chars_literal {s : Scalar} {word : List Char} (spelled : literalWord s = some word) :
    s.chars = word := by
  unfold literalWord at spelled
  split at spelled <;> cases spelled <;> rfl

theorem render_eq_ofChars {s : Scalar} (plain : ∀ t, s = .str t → t.hasSurrogate = false) :
    s.render = Str.ofChars s.chars := by
  cases s with
  | str t =>
      obtain ⟨cs, rfl⟩ := Str.exists_eq_ofChars (plain _ rfl)
      rw [chars_str, render, jsonText_ofChars]
  | bool b => cases b <;> rfl
  | _ => rw [chars, render, Str.ofString, Str.filterMap_ofChars]

theorem RereadableKey.render_eq {coerce : Bool} {k : Scalar} (key : k.RereadableKey coerce) :
    k.render = Str.ofChars k.chars :=
  Scalar.render_eq_ofChars fun t same => by
    subst same
    exact key.1

end Scalar

/-! ### Value trees -/

namespace Value

/-- The value trees that reading gives back from their compact text, keys read with coercion
when `coerce` is set: scalars that their text stands for, lists of such trees, and maps of such
trees whose keys read back and lie in different slots. -/
inductive Rereadable (coerce : Bool) : Value → Prop
  | scalar {s : Scalar} (plain : s.Rereadable) : Rereadable coerce (.scalar s)
  | list {xs : List Value} (items : ∀ x ∈ xs, Rereadable coerce x) : Rereadable coerce (.list xs)
  | map {es : List (Scalar × Value)} (keys : ∀ e ∈ es, e.1.RereadableKey coerce)
      (values : ∀ e ∈ es, Rereadable coerce e.2)
      (slots : es.Pairwise fun a b => a.1.sameSlot b.1 = false) : Rereadable coerce (.map es)

mutual

/-- The most containers that an element of a value tree lies under. -/
def nesting : Value → Nat
  | .scalar _ => 0
  | .list [] => 0
  | .list xs => itemsNesting xs + 1
  | .map [] => 0
  | .map es => entriesNesting es + 1

/-- The deepest nesting among the items of a list. -/
def itemsNesting : List Value → Nat
  | [] => 0
  | x :: xs => max x.nesting (itemsNesting xs)

/-- The deepest nesting among the values of a map. -/
def entriesNesting : List (Scalar × Value) → Nat
  | [] => 0
  | (_, v) :: es => max v.nesting (entriesNesting es)

end

mutual

/-- The lexemes of the compact text of a value tree, by class and characters. -/
def lexemes : Value → List (TokenKind × List Char)
  | .scalar s => [(s.lexKind, s.chars)]
  | .list xs => (.mark, ['[']) :: (itemLexemes xs ++ [(.mark, [']'])])
  | .map es => (.mark, ['{']) :: (entryLexemes es ++ [(.mark, ['}'])])

/-- The lexemes of the items of a list, separated by commas. -/
def itemLexemes : List Value → List (TokenKind × List Char)
  | [] => []
  | [x] => x.lexemes
  | x :: xs => x.lexemes ++ (.mark, [',']) :: itemLexemes xs

/-- The lexemes of the entries of a map, separated by commas. -/
def entryLexemes : List (Scalar × Value) → List (TokenKind × List Char)
  | [] => []
  | [(k, v)] => (k.keyKind, k.chars) :: (.mark, [':']) :: v.lexemes
  | (k, v) :: es => (k.keyKind, k.chars) :: (.mark, [':']) :: (v.lexemes ++ (.mark, [',']) :: entryLexemes es)

end

theorem itemLexemes_cons_cons (x y : Value) (ys : List Value) :
    itemLexemes (x :: y :: ys) = x.lexemes ++ (.mark, [',']) :: itemLexemes (y :: ys) := by
  rw [itemLexemes]
  exact fun nil => List.cons_ne_nil y ys nil

theorem entryLexemes_cons_cons (k : Scalar) (v : Value) (e : Scalar × Value)
    (es : List (Scalar × Value)) :
    entryLexemes ((k, v) :: e :: es) =
      (k.keyKind, k.chars) :: (.mark, [':']) :: (v.lexemes ++ (.mark, [',']) :: entryLexemes (e :: es)) := by
  rw [entryLexemes]
  exact fun nil => List.cons_ne_nil e es nil

/-- A written tree starts with an opening mark or a scalar, never with a closing mark. -/
theorem lexemes_head (v : Value) :
    ∃ l ls, v.lexemes = l :: ls ∧ l ≠ (.mark, [']']) ∧ l ≠ (.mark, ['}']) := by
  cases v with
  | scalar s =>
      refine ⟨_, [], rfl, ?_, ?_⟩ <;> cases s <;> simp [Scalar.lexKind]
  | list xs => exact ⟨_, _, rfl, by decide, by decide⟩
  | map es => exact ⟨_, _, rfl, by decide, by decide⟩

theorem nesting_le_items {x : Value} : ∀ {xs : List Value}, x ∈ xs → x.nesting ≤ itemsNesting xs
  | y :: ys, member => by
      rw [itemsNesting]
      rcases List.mem_cons.mp member with rfl | later
      · exact Nat.le_max_left _ _
      · exact (nesting_le_items later).trans (Nat.le_max_right _ _)

theorem nesting_le_entries {e : Scalar × Value} :
    ∀ {es : List (Scalar × Value)}, e ∈ es → e.2.nesting ≤ entriesNesting es
  | (k, v) :: es, member => by
      rw [entriesNesting]
      rcases List.mem_cons.mp member with rfl | later
      · exact Nat.le_max_left _ _
      · exact (nesting_le_entries later).trans (Nat.le_max_right _ _)

/-- An item lies strictly less deep than its list. -/
theorem nesting_lt_list {x : Value} {xs : List Value} (member : x ∈ xs) :
    x.nesting < (Value.list xs).nesting := by
  cases xs with
  | nil => cases member
  | cons y ys =>
      simp only [nesting]
      exact Nat.lt_succ_of_le (nesting_le_items member)

/-- A value lies strictly less deep than its map. -/
theorem nesting_lt_map {e : Scalar × Value} {es : List (Scalar × Value)} (member : e ∈ es) :
    e.2.nesting < (Value.map es).nesting := by
  cases es with
  | nil => cases member
  | cons f fs =>
      simp only [nesting]
      exact Nat.lt_succ_of_le (nesting_le_entries member)

/-! ### The compact text is the text of the lexemes -/

theorem renderItems_eq :
    ∀ xs : List Value, (∀ x ∈ xs, x.render = Str.ofChars (lexText x.lexemes)) →
      renderItems xs = Str.ofChars (lexText (itemLexemes xs))
  | [], _ => rfl
  | [x], each => by
      rw [renderItems, itemLexemes]
      exact each x List.mem_cons_self
  | x :: y :: ys, each => by
      have first := each x List.mem_cons_self
      have rest := renderItems_eq (y :: ys) (fun z member => each z (List.mem_cons_of_mem _ member))
      simp only [renderItems, itemLexemes, first, rest, Str.ofString, String.reduceToList,
        ← Str.ofChars_append]
      simp

theorem renderEntries_eq :
    ∀ es : List (Scalar × Value),
      (∀ e ∈ es, e.1.render = Str.ofChars e.1.chars ∧ e.2.render = Str.ofChars (lexText e.2.lexemes)) →
      renderEntries es = Str.ofChars (lexText (entryLexemes es))
  | [], _ => rfl
  | [(k, v)], each => by
      have ⟨key, value⟩ := each (k, v) List.mem_cons_self
      simp only [renderEntries, entryLexemes, key, value, Str.ofString, String.reduceToList,
        ← Str.ofChars_append]
      simp
  | (k, v) :: e :: es, each => by
      have ⟨key, value⟩ := each (k, v) List.mem_cons_self
      have rest := renderEntries_eq (e :: es) (fun f member => each f (List.mem_cons_of_mem _ member))
      simp only [renderEntries, entryLexemes, key, value, rest, Str.ofString, String.reduceToList,
        ← Str.ofChars_append]
      simp

/-- **The compact text is the text of the lexemes.** -/
theorem render_eq_lexText {coerce : Bool} {v : Value} (rereadable : v.Rereadable coerce) :
    v.render = Str.ofChars (lexText v.lexemes) := by
  induction rereadable with
  | scalar plain =>
      rw [render, lexemes, lexText_cons, lexText_nil, List.append_nil]
      exact Scalar.render_eq_ofChars fun t same => by
        subst same
        exact plain
  | list items ih =>
      rw [render, lexemes, renderItems_eq _ ih]
      simp [Str.ofString, ← Str.ofChars_append]
  | map keys values slots ih =>
      rw [render, lexemes, renderEntries_eq _ fun e member =>
          ⟨(keys e member).render_eq, ih e member⟩]
      simp [Str.ofString, ← Str.ofChars_append]

end Value

/-! ### The lexer finds the lexemes of a compact text -/

namespace Scalar

/-- A scalar's text where a value stands is one lexeme of its class, ended by what closes it. -/
theorem lexes_value {s : Scalar} (plain : s.Rereadable) {follow : List Char}
    (closes : Closes follow) : Lexes s.lexKind s.chars follow := by
  cases s with
  | null =>
      have spelled : literalWord .null = some ['n', 'u', 'l', 'l'] := rfl
      rw [chars_literal spelled]
      exact lexes_word spelled closes
  | bool b =>
      rw [chars_literal (literalWord_bool b)]
      exact lexes_word (literalWord_bool b) closes
  | int i =>
      obtain ⟨n, spelled, -⟩ := Decimal.intText i
      rw [lexKind, chars_int, spelled]
      exact lexes_number n closes
  | float x =>
      obtain ⟨n, spelled, -⟩ := Decimal.numberText_write (show x.isFinite = true from plain)
      rw [lexKind, chars_float, spelled]
      exact lexes_number n closes
  | str t =>
      obtain ⟨cs, rfl⟩ := Str.exists_eq_ofChars (show t.hasSurrogate = false from plain)
      rw [lexKind, chars_str]
      exact lexes_string cs follow

/-- A key's text before its colon is one lexeme: a string, or a bare name. -/
theorem lexes_key {coerce : Bool} {k : Scalar} (key : k.RereadableKey coerce) (rest : List Char) :
    Lexes k.keyKind k.chars (':' :: rest) := by
  have noGap : ∀ d ∈ ([] : List Char), isBlank d = true := List.forall_mem_nil _
  cases k with
  | str t =>
      obtain ⟨cs, rfl⟩ := Str.exists_eq_ofChars key.1
      rw [keyKind, chars_str]
      exact lexes_string cs _
  | bool b =>
      rw [keyKind, chars_literal (literalWord_bool b)]
      cases b
      · exact lexes_name (literalWord_names (s := .bool false) rfl) (by decide) (by decide)
          (by decide) noGap rest
      · exact lexes_name (literalWord_names (s := .bool true) rfl) (by decide) (by decide)
          (by decide) noGap rest
  | int i =>
      rw [keyKind, chars_int]
      exact lexes_intName i noGap rest
  | null => exact key.elim
  | float x => exact key.elim

end Scalar

namespace Value

/-- Lexemes written with no blanks between them: the first is found whole before the text of
the others. -/
theorem Separated.tight {follow : List Char} {kind : TokenKind} {lex : List Char}
    {ls : List (TokenKind × List Char)} (lexes : Lexes kind lex (lexText ls ++ follow))
    (rest : Separated follow ls (lexText ls)) :
    Separated follow ((kind, lex) :: ls) (lexText ((kind, lex) :: ls)) :=
  .cons (List.forall_mem_nil _) lexes rest (by rw [lexText_cons, List.append_nil]; rfl)

theorem Separated.tight_append {follow : List Char} {ls ms : List (TokenKind × List Char)}
    (first : Separated (lexText ms ++ follow) ls (lexText ls))
    (second : Separated follow ms (lexText ms)) :
    Separated follow (ls ++ ms) (lexText (ls ++ ms)) := by
  rw [lexText_append]
  exact first.append second

theorem separated_items :
    ∀ xs : List Value,
      (∀ x ∈ xs, ∀ follow, Closes follow → Separated follow x.lexemes (lexText x.lexemes)) →
      ∀ follow, Closes follow → Separated follow (itemLexemes xs) (lexText (itemLexemes xs))
  | [], _, _, _ => .nil
  | [x], each, follow, closes => by
      rw [itemLexemes]
      exact each x List.mem_cons_self follow closes
  | x :: y :: ys, each, follow, closes => by
      rw [itemLexemes_cons_cons]
      refine Separated.tight_append (each x List.mem_cons_self _ (Closes.of_head (.inl rfl) _))
        (Separated.tight (lexes_mark rfl _) ?_)
      exact separated_items (y :: ys) (fun z member => each z (List.mem_cons_of_mem _ member))
        follow closes

theorem separated_entries {coerce : Bool} :
    ∀ es : List (Scalar × Value), (∀ e ∈ es, e.1.RereadableKey coerce) →
      (∀ e ∈ es, ∀ follow, Closes follow → Separated follow e.2.lexemes (lexText e.2.lexemes)) →
      ∀ follow, Closes follow → Separated follow (entryLexemes es) (lexText (entryLexemes es))
  | [], _, _, _, _ => .nil
  | [(k, v)], keys, each, follow, closes => by
      rw [entryLexemes]
      exact Separated.tight (Scalar.lexes_key (keys _ List.mem_cons_self) _)
        (Separated.tight (lexes_mark rfl _) (each _ List.mem_cons_self follow closes))
  | (k, v) :: e :: es, keys, each, follow, closes => by
      rw [entryLexemes_cons_cons]
      refine Separated.tight (Scalar.lexes_key (keys _ List.mem_cons_self) _)
        (Separated.tight (lexes_mark rfl _) ?_)
      refine Separated.tight_append (each _ List.mem_cons_self _ (Closes.of_head (.inl rfl) _))
        (Separated.tight (lexes_mark rfl _) ?_)
      exact separated_entries (e :: es) (fun f member => keys f (List.mem_cons_of_mem _ member))
        (fun f member => each f (List.mem_cons_of_mem _ member)) follow closes

/-- **The lexemes of a compact text are separated.** Ended by a comma, a closing bracket or
brace, or nothing, the text of a value tree that reading gives back is lexed into its lexemes,
one by one. -/
theorem separated_lexemes {coerce : Bool} {v : Value} (rereadable : v.Rereadable coerce) :
    ∀ follow, Closes follow → Separated follow v.lexemes (lexText v.lexemes) := by
  induction rereadable with
  | scalar plain =>
      intro follow closes
      exact Separated.tight (by simpa using Scalar.lexes_value plain closes) .nil
  | list items ih =>
      intro follow closes
      refine Separated.tight (lexes_mark rfl _) (Separated.tight_append ?_
        (Separated.tight (lexes_mark rfl _) .nil))
      exact separated_items _ ih _ (Closes.of_head (.inr (.inl rfl)) _)
  | map keys values slots ih =>
      intro follow closes
      refine Separated.tight (lexes_mark rfl _) (Separated.tight_append ?_
        (Separated.tight (lexes_mark rfl _) .nil))
      exact separated_entries _ keys ih _ (Closes.of_head (.inr (.inr rfl)) _)

/-- **The lexer splits a compact text into its lexemes.** -/
theorem scan_lexText {coerce : Bool} {v : Value} (rereadable : v.Rereadable coerce) :
    ∃ ts : List Token, ts.map Token.view = v.lexemes ∧ Token.scan (lexText v.lexemes) = .ok ts := by
  obtain ⟨ts, views, run⟩ := scanFrom_separated (by simp)
    (separated_lexemes rereadable [] (by simp [Closes])) 0 []
  refine ⟨ts, views, ?_⟩
  rw [Token.scan, ← List.append_nil (lexText v.lexemes), run, scanFrom]
  simp

end Value

end Ingest
