import Ingest.Proofs.Relaxed.Rendering

/-!
Contract: the reader gives back the tree whose lexemes it reads.

Owns: one equation for each way the descent goes on the tokens of a written tree (a string, a
number, a literal, an opening bracket or brace, a closing one, an item or entry followed by a
comma or by the closing mark, a key and its colon), stated with `Reader.Gives`; the scalar each
written lexeme reads as, keys coerced back to themselves included; that pairs in different
slots are a map as they are; and, by induction on `Value.Rereadable`, that reading at a depth
within the limit gives the tree back (`Reader.reads_of_rereadable`).

Does not own: which tokens the lexer makes of a text; that is `Relaxed.Lexing` and
`Relaxed.Rendering`.
-/

namespace Ingest.Relaxed

open Ingest.Text

namespace Reader

variable (r : Reader) {d : Nat} {t : Token} {rest : List Token}

/-- A reading step that gives `a` and leaves the lexemes `rest`. -/
def Gives {α : Type} {ts : List Token} (p : Parsed α ts) (a : α) (rest : List Token) : Prop :=
  ∃ h, p = .ok ⟨(a, rest), h⟩

theorem value_string (shallow : ¬r.options.maxDepth < d) (kind : t.kind = .string)
    {s : Str} (text : r.stringText t = .ok s) :
    Gives (r.value d (t :: rest)) (.scalar (.str s)) rest := by
  rw [value, if_neg shallow]
  simp only [kind, text]
  exact ⟨_, rfl⟩

theorem value_number (shallow : ¬r.options.maxDepth < d) (kind : t.kind = .number)
    {s : Scalar} (scalar : numberScalar t = .ok s) :
    Gives (r.value d (t :: rest)) (.scalar s) rest := by
  rw [value, if_neg shallow]
  simp only [kind, scalar]
  exact ⟨_, rfl⟩

theorem value_literal (shallow : ¬r.options.maxDepth < d) (kind : t.kind = .literal) :
    Gives (r.value d (t :: rest)) (.scalar (literalScalar t.raw)) rest := by
  rw [value, if_neg shallow]
  simp only [kind]
  exact ⟨_, rfl⟩

theorem value_list (shallow : ¬r.options.maxDepth < d) (kind : t.kind = .mark)
    (raw : t.raw = ['[']) {v : Value} {more : List Token}
    (body : Gives (r.listBody (d + 1) rest) v more) : Gives (r.value d (t :: rest)) v more := by
  obtain ⟨h, body⟩ := body
  rw [value, if_neg shallow]
  simp only [kind, raw, if_true, body]
  exact ⟨_, rfl⟩

theorem value_map (shallow : ¬r.options.maxDepth < d) (kind : t.kind = .mark)
    (raw : t.raw = ['{']) {v : Value} {more : List Token}
    (body : Gives (r.mapBody (d + 1) rest) v more) : Gives (r.value d (t :: rest)) v more := by
  obtain ⟨h, body⟩ := body
  have notList : (['{'] : List Char) ≠ ['['] := by decide
  rw [value, if_neg shallow]
  simp only [kind, raw, notList, if_false, if_true, body]
  exact ⟨_, rfl⟩

theorem listBody_close (close : t.isMark ']' = true) :
    Gives (r.listBody d (t :: rest)) (.list []) rest := by
  rw [listBody, if_pos close]
  exact ⟨_, rfl⟩

theorem listBody_items (open_ : t.isMark ']' = false) :
    r.listBody d (t :: rest) = r.listItems d [] (t :: rest) := by
  rw [listBody, if_neg (by simp [open_])]

theorem mapBody_close (close : t.isMark '}' = true) :
    Gives (r.mapBody d (t :: rest)) (.map []) rest := by
  rw [mapBody, if_pos close]
  exact ⟨_, rfl⟩

theorem mapBody_entries (open_ : t.isMark '}' = false) :
    r.mapBody d (t :: rest) = r.mapEntries d [] (t :: rest) := by
  rw [mapBody, if_neg (by simp [open_])]

section Runs

variable {ts : List Token} {v w : Value} {more : List Token}

theorem listItems_last {acc : List Value} (item : Gives (r.value d ts) v (t :: rest))
    (close : t.isMark ']' = true) : Gives (r.listItems d acc ts) (.list (v :: acc).reverse) rest := by
  obtain ⟨h, item⟩ := item
  rw [listItems]
  simp only [item, close, if_true]
  exact ⟨_, rfl⟩

theorem listItems_next {acc : List Value} (item : Gives (r.value d ts) v (t :: rest))
    (open_ : t.isMark ']' = false) (comma : t.isMark ',' = true)
    (next : Gives (r.listItems d (v :: acc) rest) w more) : Gives (r.listItems d acc ts) w more := by
  obtain ⟨h, item⟩ := item
  obtain ⟨h', next⟩ := next
  rw [listItems]
  simp only [item, open_, comma, Bool.false_eq_true, if_false, if_true, next]
  exact ⟨_, rfl⟩

variable {k : Scalar} {afterKey afterColon : List Token}

theorem mapEntries_last {acc : List (Scalar × Value)} (key : Gives (r.key ts) k afterKey)
    (colon : Gives (r.colon afterKey) () afterColon)
    (value : Gives (r.value d afterColon) v (t :: rest)) (close : t.isMark '}' = true) :
    Gives (r.mapEntries d acc ts) (.map (Entries.ofPairs ((k, v) :: acc).reverse)) rest := by
  obtain ⟨hk, key⟩ := key
  obtain ⟨hc, colon⟩ := colon
  obtain ⟨hv, value⟩ := value
  rw [mapEntries]
  simp only [key, colon, value, close, if_true]
  exact ⟨_, rfl⟩

theorem mapEntries_next {acc : List (Scalar × Value)} (key : Gives (r.key ts) k afterKey)
    (colon : Gives (r.colon afterKey) () afterColon)
    (value : Gives (r.value d afterColon) v (t :: rest)) (open_ : t.isMark '}' = false)
    (comma : t.isMark ',' = true) (next : Gives (r.mapEntries d ((k, v) :: acc) rest) w more) :
    Gives (r.mapEntries d acc ts) w more := by
  obtain ⟨hk, key⟩ := key
  obtain ⟨hc, colon⟩ := colon
  obtain ⟨hv, value⟩ := value
  obtain ⟨h', next⟩ := next
  rw [mapEntries]
  simp only [key, colon, value, open_, comma, Bool.false_eq_true, if_false, if_true, next]
  exact ⟨_, rfl⟩

theorem colon_mark (colon : t.isMark ':' = true) : Gives (r.colon (t :: rest)) () rest := by
  rw [Reader.colon, if_pos colon]
  exact ⟨_, rfl⟩

end Runs

end Reader

/-! ### Scalar lexemes -/

section Scalars

open Decimal

/-- Whether a character marks a number as floating point. -/
theorem any_point_chars (n : NumberText) :
    n.chars.any (fun c => decide (c = '.' ∨ c = 'e' ∨ c = 'E')) =
      (n.fraction.isSome || n.exponent.isSome) := by
  have whole : n.whole.any (fun c => decide (c = '.' ∨ c = 'e' ∨ c = 'E')) = false := by
    refine List.any_eq_false.mpr fun c member => ?_
    have digit := n.whole_digits.2 c member
    simp only [decide_eq_true_eq, not_or]
    refine ⟨?_, ?_, ?_⟩ <;> (rintro rfl; contradiction)
  have sign : (if n.negative then ['-'] else []).any
      (fun c => decide (c = '.' ∨ c = 'e' ∨ c = 'E')) = false := by
    split <;> decide
  have fraction : n.fractionChars.any (fun c => decide (c = '.' ∨ c = 'e' ∨ c = 'E')) =
      n.fraction.isSome := by
    cases h : n.fraction <;> simp [NumberText.fractionChars, h]
  have exponent : n.exponentChars.any (fun c => decide (c = '.' ∨ c = 'e' ∨ c = 'E')) =
      n.exponent.isSome := by
    cases h : n.exponent with
    | none => simp [NumberText.exponentChars, h]
    | some e =>
        obtain ⟨isMark, -, -⟩ := n.exponent_form e (by simp [h])
        simp [NumberText.exponentChars, h, isMark]
  simp only [NumberText.chars, List.any_append, sign, whole, fraction, exponent,
    Bool.false_or]

theorem numberScalar_point {t : Token} (n : NumberText) (raw : t.raw = n.chars)
    (marked : n.fraction.isSome ∨ n.exponent.isSome) :
    Reader.numberScalar t = .ok (.float n.numeral.toBinary64) := by
  have point : t.raw.any (fun c => decide (c = '.' ∨ c = 'e' ∨ c = 'E')) = true := by
    rw [raw, any_point_chars]
    rcases marked with marked | marked <;> simp [marked]
  rw [Reader.numberScalar, if_pos point, raw, NumberText.read?_chars]

theorem numberScalar_float {t : Token} {x : Binary64} (finite : x.isFinite = true)
    (raw : t.raw = (Notation.json.write x).toList) : Reader.numberScalar t = .ok (.float x) := by
  obtain ⟨n, spelled, marked⟩ := numberText_write finite
  have value := read?_write_json finite
  rw [spelled, NumberText.read?_chars, Option.map_some, Option.some.injEq] at value
  rw [numberScalar_point n (raw.trans spelled) marked, value]

/-- The digits of an integer's magnitude, signed as the integer is, give the integer back. -/
theorem signed_digitsValue_toDigits (i : Int) :
    (if decide (i < 0) = true then -(digitsValue (Nat.toDigits 10 i.natAbs) : Int)
      else (digitsValue (Nat.toDigits 10 i.natAbs) : Int)) = i := by
  rw [digitsValue_toDigits]
  by_cases negative : i < 0
  · simp [negative, abs_of_neg negative]
  · simp [negative, abs_of_nonneg (not_lt.mp negative)]

theorem numberScalar_int {t : Token} {i : Int} (raw : t.raw = (toString i).toList)
    (short : (toString i).length ≤ Reader.integerLimit) : Reader.numberScalar t = .ok (.int i) := by
  obtain ⟨n, spelled, noFraction, noExponent, -, -⟩ := intText i
  have noPoint : t.raw.any (fun c => decide (c = '.' ∨ c = 'e' ∨ c = 'E')) = false := by
    rw [raw, spelled, any_point_chars, noFraction, noExponent]
    rfl
  have length : ¬t.raw.length > Reader.integerLimit := by
    rw [raw, String.length_toList]
    omega
  rw [Reader.numberScalar, if_neg (by rw [noPoint]; exact Bool.false_ne_true), if_neg length, raw,
    spanSign_toString]
  simp only [signed_digitsValue_toDigits]

theorem literalScalar_word {s : Scalar} {word : List Char} (spelled : literalWord s = some word) :
    Reader.literalScalar word = s := by
  unfold literalWord at spelled
  split at spelled <;> cases spelled <;> decide

theorem stringText_json (r : Reader) {t : Token} (kind : t.kind = .string) {cs : List Char}
    (raw : t.raw = jsonLiteralChars cs) : r.stringText t = .ok (Str.ofChars cs) := by
  rw [Reader.stringText]
  simp only [kind, raw, readLiteral_jsonLiteralChars]
  rfl

/-! ### Keys -/

theorem coerceKey_word (b : Bool) {word : List Char} (spelled : literalWord (.bool b) = some word) :
    coerceKey (Str.ofChars word) = .ok (.bool b) := by
  cases b <;> cases spelled <;> rw [coerceKey, Str.toChars?_ofChars] <;> dsimp only
  · rw [if_neg (by decide), if_pos (by decide)]
  · rw [if_pos (by decide)]

theorem lowerAscii_of_not_upper {c : Char} (notUpper : c.toNat < 65 ∨ 90 < c.toNat) :
    lowerAscii c = c := by
  rw [lowerAscii, if_neg]
  rintro ⟨low, high⟩
  simp only [Char.le_def, UInt32.le_iff_toNat_le] at low high
  have : c.toNat = c.val.toNat := rfl
  simp at low high
  omega

/-- **An integer key of 64 signed bits coerces back to itself.** -/
theorem coerceKey_int {i : Int} (low : -Int.pow 2 63 ≤ i) (high : i ≤ Int.pow 2 63 - 1) :
    coerceKey (Str.ofChars (toString i).toList) = .ok (.int i) := by
  have lowered : (toString i).toList.map lowerAscii = (toString i).toList := by
    refine (List.map_congr_left fun c member => lowerAscii_of_not_upper ?_).trans (List.map_id _)
    rcases sign_or_digit_of_mem_toString member with rfl | digit
    · decide
    · have := (isDigit_iff c).mp digit
      omega
  have notWord : ∀ word : List Char, 't' ∈ word ∨ 'f' ∈ word → (toString i).toList ≠ word := by
    rintro word letter rfl
    rcases letter with letter | letter <;>
      rcases sign_or_digit_of_mem_toString letter with same | digit <;>
      first | exact absurd same (by decide) | exact absurd digit (by decide)
  have parts : integerParts? (toString i).toList = some (decide (i < 0), Nat.toDigits 10 i.natAbs) := by
    have digits := isDigits_toDigits i.natAbs
    unfold integerParts?
    rw [spanSign_toString]
    simp [digits.1, List.all_eq_true.mpr digits.2]
  have short : (Nat.toDigits 10 i.natAbs).length ≤ 19 := by
    have two : Int.pow 2 63 = 9223372036854775808 := rfl
    exact Nat.toDigits_length 10 i.natAbs 19 (by norm_num) (by omega)
  rw [coerceKey, Str.toChars?_ofChars]
  dsimp only
  rw [lowered, if_neg (notWord _ (by simp)), if_neg (notWord _ (by simp)), parts]
  dsimp only
  rw [if_pos ((List.length_dropWhile_le _ _).trans short), if_neg (by simp [Loose.intDigitLimit]; omega)]
  simp only [signed_digitsValue_toDigits, if_pos (And.intro low high)]

/-- **A written key reads back.** Keys are coerced exactly when `coerce` says, and bare keys
are allowed when they are coerced. -/
theorem key_rereadable (r : Reader) {coerce : Bool} {k : Scalar} (key : k.RereadableKey coerce)
    (coerces : r.options.coerceKeys = coerce) (bare : coerce = true → r.options.unquotedKeys = true)
    {t : Token} (view : t.view = (k.keyKind, k.chars)) (rest : List Token) :
    Reader.Gives (r.key (t :: rest)) k rest := by
  simp only [Token.view, Prod.mk.injEq] at view
  obtain ⟨kind, raw⟩ := view
  cases k with
  | str s =>
      obtain ⟨cs, rfl⟩ := Str.exists_eq_ofChars key.1
      rw [Scalar.chars_str] at raw
      have text := stringText_json r kind raw
      rw [Reader.key]
      cases coerce
      · simp only [kind, Scalar.keyKind, text, coerces, Bool.false_eq_true, if_false, bind,
          Except.bind, pure, Except.pure]
        exact ⟨_, rfl⟩
      · simp only [kind, Scalar.keyKind, text, coerces, if_true, bind, Except.bind, pure,
          Except.pure, key.2 rfl]
        exact ⟨_, rfl⟩
  | bool b =>
      have coerced : coerce = true := key
      rw [Scalar.chars_literal (literalWord_bool b)] at raw
      rw [Reader.key]
      simp only [kind, Scalar.keyKind, raw, bare coerced, coerces, coerced, if_true, bind, Except.bind,
        pure, Except.pure, coerceKey_word b (literalWord_bool b)]
      exact ⟨_, rfl⟩
  | int i =>
      rw [Scalar.chars_int] at raw
      rw [Reader.key]
      simp only [kind, Scalar.keyKind, raw, bare key.1, coerces, key.1, if_true, bind, Except.bind,
        pure, Except.pure, coerceKey_int key.2.1 key.2.2]
      exact ⟨_, rfl⟩
  | null => exact key.elim
  | float x => exact key.elim

theorem value_word (r : Reader) {d : Nat} (shallow : ¬r.options.maxDepth < d) {s : Scalar}
    {word : List Char} (spelled : literalWord s = some word) {t : Token} (kind : t.kind = .literal)
    (raw : t.raw = word) {rest : List Token} : Reader.Gives (r.value d (t :: rest)) (.scalar s) rest := by
  have literal : Reader.Gives (r.value d (t :: rest)) _ rest := r.value_literal shallow kind
  rwa [raw, literalScalar_word spelled] at literal

/-- **A written scalar reads back.** -/
theorem value_scalar (r : Reader) {d : Nat} (shallow : ¬r.options.maxDepth < d) {s : Scalar}
    (plain : s.Rereadable) {t : Token} (view : t.view = (s.lexKind, s.chars)) (rest : List Token) :
    Reader.Gives (r.value d (t :: rest)) (.scalar s) rest := by
  simp only [Token.view, Prod.mk.injEq] at view
  obtain ⟨kind, raw⟩ := view
  cases s with
  | null => exact value_word r shallow rfl kind (raw.trans (Scalar.chars_literal rfl))
  | bool b =>
      exact value_word r shallow (literalWord_bool b) kind
        (raw.trans (Scalar.chars_literal (literalWord_bool b)))
  | int i =>
      rw [Scalar.chars_int] at raw
      exact r.value_number shallow kind (numberScalar_int raw plain)
  | float x =>
      rw [Scalar.chars_float] at raw
      exact r.value_number shallow kind (numberScalar_float plain raw)
  | str u =>
      obtain ⟨cs, rfl⟩ := Str.exists_eq_ofChars (show u.hasSurrogate = false from plain)
      rw [Scalar.chars_str] at raw
      exact r.value_string shallow kind (stringText_json r kind raw)

end Scalars

/-! ### Maps of keys in different slots -/

namespace Entries

open Ingest.Entries

theorem put_of_fresh {k : Scalar} {v : Value} :
    ∀ entries : List (Scalar × Value), (∀ e ∈ entries, e.1.sameSlot k = false) →
      put entries k v = entries ++ [(k, v)]
  | [], _ => rfl
  | (k', v') :: rest, fresh => by
      rw [put, if_neg (by simp [fresh (k', v') List.mem_cons_self]),
        put_of_fresh rest fun e member => fresh e (List.mem_cons_of_mem _ member)]
      rfl

/-- **Pairs in different slots are a map as they are.** -/
theorem ofPairs_of_pairwise {pairs : List (Scalar × Value)}
    (slots : pairs.Pairwise fun a b => a.1.sameSlot b.1 = false) : ofPairs pairs = pairs := by
  have run : ∀ (pairs acc : List (Scalar × Value)),
      (∀ a ∈ acc, ∀ b ∈ pairs, a.1.sameSlot b.1 = false) →
      pairs.Pairwise (fun a b => a.1.sameSlot b.1 = false) →
      pairs.foldl (fun acc p => put acc p.1 p.2) acc = acc ++ pairs := by
    intro pairs
    induction pairs with
    | nil => simp
    | cons p ps ih =>
        intro acc fresh slots
        rw [List.pairwise_cons] at slots
        rw [List.foldl_cons, put_of_fresh acc fun a member => fresh a member p List.mem_cons_self,
          ih _ _ slots.2]
        · simp
        · intro a member b later
          rcases List.mem_append.mp member with old | new
          · exact fresh a old b (List.mem_cons_of_mem _ later)
          · rw [List.mem_singleton.mp new]
            exact slots.1 b later
  simpa [ofPairs] using run pairs [] (by simp) slots

end Entries

/-! ### Reading a written tree -/

theorem Token.isMark_eq_false {t : Token} {c : Char} (other : t.view ≠ (.mark, [c])) :
    t.isMark c = false := by
  simp only [Token.view, ne_eq, Prod.mk.injEq] at other
  simp only [Token.isMark, Bool.and_eq_false_iff, beq_eq_false_iff_ne, ne_eq]
  by_cases kind : t.kind = .mark
  · by_cases raw : t.raw = [c]
    · exact absurd ⟨kind, raw⟩ other
    · exact .inr raw
  · exact .inl kind

theorem Token.isMark_of_view {t : Token} {c : Char} (view : t.view = (.mark, [c])) (e : Char) :
    t.isMark e = (c == e) := by
  simp only [Token.view, Prod.mk.injEq] at view
  simp only [Token.isMark, view.1, view.2]
  by_cases same : c = e <;> simp [same]

theorem Token.isMark_self {t : Token} {c : Char} (view : t.view = (.mark, [c])) :
    t.isMark c = true := by
  simp [Token.isMark_of_view view]

theorem Token.isMark_other {t : Token} {c e : Char} (view : t.view = (.mark, [c])) (other : c ≠ e) :
    t.isMark e = false := by
  simp [Token.isMark_of_view view, other]


namespace Reader

/-- Reading at depth `d` gives back `v` from any tokens that spell its lexemes, whatever comes
after them. -/
def Reads (r : Reader) (d : Nat) (v : Value) : Prop :=
  ∀ ts more, ts.map Token.view = v.lexemes → Gives (r.value d (ts ++ more)) v more

variable (r : Reader) {d : Nat}

/-- Items that each read back, written between commas and closed by a bracket, read back as
the rest of the list. -/
theorem listItems_reads :
    ∀ xs : List Value, xs ≠ [] → (∀ x ∈ xs, r.Reads d x) →
      ∀ (acc : List Value) (ts more : List Token),
        ts.map Token.view = Value.itemLexemes xs ++ [(.mark, [']'])] →
        Gives (r.listItems d acc (ts ++ more)) (.list (acc.reverse ++ xs)) more
  | [], nonempty, _, _, _, _, _ => absurd rfl nonempty
  | [x], _, each, acc, ts, more, views => by
      rw [Value.itemLexemes, List.map_eq_append_iff] at views
      obtain ⟨item, close, rfl, itemViews, closeViews⟩ := views
      obtain ⟨t, rfl, tView⟩ := List.map_eq_singleton_iff.mp closeViews
      have read := each x List.mem_cons_self item (t :: more) itemViews
      rw [List.append_assoc, List.singleton_append]
      simpa using r.listItems_last read (Token.isMark_self tView)
  | x :: y :: ys, _, each, acc, ts, more, views => by
      rw [Value.itemLexemes_cons_cons, List.append_assoc, List.cons_append,
        List.map_eq_append_iff] at views
      obtain ⟨item, after, rfl, itemViews, afterViews⟩ := views
      obtain ⟨t, rest, rfl, tView, restViews⟩ := List.map_eq_cons_iff.mp afterViews
      have read := each x List.mem_cons_self item (t :: (rest ++ more)) itemViews
      have next := listItems_reads (y :: ys) (List.cons_ne_nil y ys)
        (fun z member => each z (List.mem_cons_of_mem _ member)) (x :: acc) rest more restViews
      rw [List.append_assoc, List.cons_append]
      simpa using r.listItems_next read (Token.isMark_other tView (by decide))
        (Token.isMark_self tView) next

/-- Items that each read back, written between commas and closed by a bracket, read back as the
body of a list, the empty one included. -/
theorem listBody_reads (xs : List Value) (each : ∀ x ∈ xs, r.Reads d x) (ts more : List Token)
    (views : ts.map Token.view = Value.itemLexemes xs ++ [(.mark, [']'])]) :
    Gives (r.listBody d (ts ++ more)) (.list xs) more := by
  cases xs with
  | nil =>
      obtain ⟨t, rfl, closeView⟩ : ∃ t, ts = [t] ∧ t.view = (.mark, [']']) := by
        simpa [Value.itemLexemes, List.map_eq_singleton_iff] using views
      exact r.listBody_close (Token.isMark_self closeView)
  | cons x xs =>
      -- the first lexeme of the first item is no closing bracket, so the items are read
      obtain ⟨l, ls, head, notClose, -⟩ := x.lexemes_head
      obtain ⟨others, items⟩ : ∃ others, Value.itemLexemes (x :: xs) = x.lexemes ++ others := by
        cases xs with
        | nil => exact ⟨[], by simp [Value.itemLexemes]⟩
        | cons y ys => exact ⟨_, Value.itemLexemes_cons_cons x y ys⟩
      have first := views
      rw [items, head, List.cons_append, List.cons_append] at first
      obtain ⟨t, ts', rfl, tView, -⟩ := List.map_eq_cons_iff.mp first
      rw [List.cons_append, r.listBody_items (Token.isMark_eq_false (tView ▸ notClose)),
        ← List.cons_append]
      simpa using r.listItems_reads (x :: xs) (List.cons_ne_nil x xs) each [] _ more views

section Entries

variable {coerce : Bool} (coerces : r.options.coerceKeys = coerce)
  (bare : coerce = true → r.options.unquotedKeys = true)
include coerces bare

/-- Entries whose keys and values each read back, written between commas and closed by a brace,
read back as the rest of the map's pairs. -/
theorem mapEntries_reads :
    ∀ es : List (Scalar × Value), es ≠ [] → (∀ e ∈ es, e.1.RereadableKey coerce) →
      (∀ e ∈ es, r.Reads d e.2) →
      ∀ (acc : List (Scalar × Value)) (ts more : List Token),
        ts.map Token.view = Value.entryLexemes es ++ [(.mark, ['}'])] →
        Gives (r.mapEntries d acc (ts ++ more)) (.map (Entries.ofPairs (acc.reverse ++ es))) more
  | [], nonempty, _, _, _, _, _, _ => absurd rfl nonempty
  | [(k, v)], _, keys, each, acc, ts, more, views => by
      rw [Value.entryLexemes, List.cons_append, List.cons_append] at views
      obtain ⟨tk, ts, rfl, kView, views⟩ := List.map_eq_cons_iff.mp views
      obtain ⟨tc, ts, rfl, cView, views⟩ := List.map_eq_cons_iff.mp views
      obtain ⟨item, close, rfl, itemViews, closeViews⟩ := List.map_eq_append_iff.mp views
      obtain ⟨t, rfl, tView⟩ := List.map_eq_singleton_iff.mp closeViews
      have key := key_rereadable r (keys _ List.mem_cons_self) coerces bare kView
        (tc :: (item ++ [t] ++ more))
      have colon : Gives (r.colon (tc :: (item ++ [t] ++ more))) () (item ++ [t] ++ more) :=
        r.colon_mark (Token.isMark_self cView)
      have read := each _ List.mem_cons_self item (t :: more) itemViews
      rw [List.append_assoc, List.singleton_append] at key colon
      have last : Gives (r.mapEntries d acc _) _ more :=
        r.mapEntries_last key colon read (Token.isMark_self tView)
      rw [show tk :: tc :: (item ++ [t]) ++ more = tk :: tc :: (item ++ t :: more) by simp]
      simpa using last
  | (k, v) :: e :: es, _, keys, each, acc, ts, more, views => by
      rw [Value.entryLexemes_cons_cons, List.cons_append, List.cons_append, List.append_assoc,
        List.cons_append] at views
      obtain ⟨tk, ts, rfl, kView, views⟩ := List.map_eq_cons_iff.mp views
      obtain ⟨tc, ts, rfl, cView, views⟩ := List.map_eq_cons_iff.mp views
      obtain ⟨item, after, rfl, itemViews, afterViews⟩ := List.map_eq_append_iff.mp views
      obtain ⟨t, rest, rfl, tView, restViews⟩ := List.map_eq_cons_iff.mp afterViews
      have key := key_rereadable r (keys _ List.mem_cons_self) coerces bare kView
        (tc :: (item ++ t :: (rest ++ more)))
      have colon : Gives (r.colon (tc :: (item ++ t :: (rest ++ more)))) () (item ++ t :: (rest ++ more)) :=
        r.colon_mark (Token.isMark_self cView)
      have read := each _ List.mem_cons_self item (t :: (rest ++ more)) itemViews
      have next := mapEntries_reads (e :: es) (List.cons_ne_nil e es)
        (fun f member => keys f (List.mem_cons_of_mem _ member))
        (fun f member => each f (List.mem_cons_of_mem _ member)) ((k, v) :: acc) rest more restViews
      have step : Gives (r.mapEntries d acc _) _ more :=
        r.mapEntries_next key colon read (Token.isMark_other tView (by decide))
          (Token.isMark_self tView) next
      rw [show tk :: tc :: (item ++ t :: rest) ++ more = tk :: tc :: (item ++ t :: (rest ++ more)) by simp]
      simpa using step

/-- Entries whose keys and values each read back and whose keys lie in different slots, written
between commas and closed by a brace, read back as the body of a map, the empty one included. -/
theorem mapBody_reads (es : List (Scalar × Value)) (keys : ∀ e ∈ es, e.1.RereadableKey coerce)
    (slots : es.Pairwise fun a b => a.1.sameSlot b.1 = false) (each : ∀ e ∈ es, r.Reads d e.2)
    (ts more : List Token) (views : ts.map Token.view = Value.entryLexemes es ++ [(.mark, ['}'])]) :
    Gives (r.mapBody d (ts ++ more)) (.map es) more := by
  cases es with
  | nil =>
      obtain ⟨t, rfl, closeView⟩ : ∃ t, ts = [t] ∧ t.view = (.mark, ['}']) := by
        simpa [Value.entryLexemes, List.map_eq_singleton_iff] using views
      exact r.mapBody_close (Token.isMark_self closeView)
  | cons e es =>
      -- the first lexeme is a key, no closing brace, so the entries are read
      obtain ⟨k, v⟩ := e
      obtain ⟨others, entries⟩ : ∃ others,
          Value.entryLexemes ((k, v) :: es) = (k.keyKind, k.chars) :: others := by
        cases es with
        | nil => exact ⟨_, rfl⟩
        | cons f fs => exact ⟨_, Value.entryLexemes_cons_cons k v f fs⟩
      have notClose : (k.keyKind, k.chars) ≠ (.mark, ['}']) := by
        cases k <;> simp [Scalar.keyKind]
      have first := views
      rw [entries, List.cons_append] at first
      obtain ⟨t, ts', rfl, tView, -⟩ := List.map_eq_cons_iff.mp first
      rw [List.cons_append, r.mapBody_entries (Token.isMark_eq_false (tView ▸ notClose)),
        ← List.cons_append]
      have read := r.mapEntries_reads coerces bare ((k, v) :: es) (List.cons_ne_nil _ _) keys
        each [] _ more views
      rwa [List.reverse_nil, List.nil_append, Entries.ofPairs_of_pairwise slots] at read

/-- **A written tree reads back.** A tree that reading can give back, at a depth from which its
deepest element stays within the limit, is read from the tokens of its lexemes. -/
theorem reads_of_rereadable {v : Value} (rereadable : v.Rereadable coerce) :
    ∀ d : Nat, (d : Int) + v.nesting ≤ r.options.maxDepth → r.Reads d v := by
  induction rereadable with
  | @scalar s plain =>
      intro d deep ts more views
      rw [Value.lexemes] at views
      obtain ⟨t, rfl, tView⟩ := List.map_eq_singleton_iff.mp views
      exact value_scalar r (by simp [Value.nesting] at deep; omega) plain tView more
  | @list xs items ih =>
      intro d deep ts more views
      rw [Value.lexemes] at views
      obtain ⟨t, ts, rfl, tView, views⟩ := List.map_eq_cons_iff.mp views
      have shallow : ¬r.options.maxDepth < d := by omega
      simp only [Token.view, Prod.mk.injEq] at tView
      -- the items lie one level deeper, where each still respects the limit
      have each : ∀ x ∈ xs, r.Reads (d + 1) x := fun x member =>
        ih x member (d + 1) (by have := Value.nesting_lt_list member; push_cast; omega)
      rw [List.cons_append]
      exact r.value_list shallow tView.1 tView.2 (r.listBody_reads xs each ts more views)
  | @map es keys values slots ih =>
      intro d deep ts more views
      rw [Value.lexemes] at views
      obtain ⟨t, ts, rfl, tView, views⟩ := List.map_eq_cons_iff.mp views
      have shallow : ¬r.options.maxDepth < d := by omega
      simp only [Token.view, Prod.mk.injEq] at tView
      have each : ∀ e ∈ es, r.Reads (d + 1) e.2 := fun e member =>
        ih e member (d + 1) (by have := Value.nesting_lt_map member; push_cast; omega)
      rw [List.cons_append]
      exact r.value_map shallow tView.1 tView.2
        (r.mapBody_reads coerces bare es keys slots each ts more views)

end Entries

theorem document_of_value {ts : List Token} (nonempty : ts ≠ []) {v : Value}
    (read : Gives (r.value 0 ts) v []) : r.document ts = .ok (some v) := by
  obtain ⟨h, read⟩ := read
  obtain ⟨t, ts, rfl⟩ := List.exists_cons_of_ne_nil nonempty
  rw [document, read]
  exact List.cons_ne_nil t ts

end Reader

end Ingest.Relaxed
