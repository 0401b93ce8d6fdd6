import Ingest.Proofs.Relaxed.Lexing

/-!
Contract: a lexeme is read off its own characters.

Owns: the characters between the quotes of a string lexeme (`QuotedBody`), which the lexer reads
up to the closing quote whatever follows; what `classify` finds each class of lexeme by; that a
name, a number and a literal are found, and measured, alike before anything that closes a value
(`nameLength_append_closes`, `numberLength_append_stop`); that every lexeme is at least one and
at most all of the characters left; and that a text the lexer splits is blanks and then its
lexemes laid out one after another, each found whole before the text after it
(`scanFrom_layout`).

Does not own: how a lexeme may be respelled; that is `Relaxed.Respelling`.
-/

namespace Ingest.Relaxed

open Ingest.Text

/-! ### Runs of characters -/

section Runs

variable {p : Char → Bool} {cs f : List Char}

theorem takeWhile_append_stop (stop : ∀ c ∈ f.head?, p c = false) :
    (cs ++ f).takeWhile p = cs.takeWhile p := by
  induction cs with
  | nil =>
      cases f with
      | nil => rfl
      | cons d rest => simp [stop d rfl]
  | cons c cs ih => simp only [List.cons_append, List.takeWhile_cons, ih]

theorem dropWhile_append_stop (stop : ∀ c ∈ f.head?, p c = false) :
    (cs ++ f).dropWhile p = cs.dropWhile p ++ f := by
  induction cs with
  | nil =>
      cases f with
      | nil => rfl
      | cons d rest => simp [stop d rfl]
  | cons c cs ih =>
      simp only [List.cons_append, List.dropWhile_cons, ih]
      split <;> rfl

end Runs

/-! ### String bodies -/

/-- The characters between the quotes `q` of a string lexeme: characters other than the quote,
the backslash and controls, and escapes, a backslash and any character after it. -/
inductive QuotedBody (q : Char) : List Char → Prop
  | nil : QuotedBody q []
  | plain {c : Char} {rest : List Char} : c ≠ q → c ≠ '\\' → 0x20 ≤ c.toNat → QuotedBody q rest →
      QuotedBody q (c :: rest)
  | escape (e : Char) {rest : List Char} : QuotedBody q rest → QuotedBody q ('\\' :: e :: rest)

/-- The lexer reads a string body up to its closing quote, whatever follows. -/
theorem QuotedBody.quotedLength_append {q : Char} (notBackslash : q ≠ '\\') {body : List Char}
    (quoted : QuotedBody q body) (acc : Nat) (follow : List Char) :
    quotedLength q acc (body ++ q :: follow) = some (acc + body.length + 1) := by
  induction quoted generalizing acc with
  | nil => exact quotedLength_close
  | plain notQuote notBs printable _ ih =>
      rw [List.cons_append, quotedLength_plain notQuote notBs printable, ih]
      simp only [List.length_cons, Option.some.injEq]
      omega
  | escape e _ ih =>
      rw [List.cons_append, List.cons_append, quotedLength_escape notBackslash, ih]
      simp only [List.length_cons, Option.some.injEq]
      omega

/-- What the lexer takes for a string is a body and its closing quote. -/
theorem quotedBody_of_quotedLength {q : Char} {acc n : Nat} {cs : List Char}
    (closed : quotedLength q acc cs = some n) :
    ∃ body follow, cs = body ++ q :: follow ∧ QuotedBody q body ∧ n = acc + body.length + 1 := by
  fun_induction quotedLength q acc cs with
  | case1 => cases closed
  | case2 acc more =>
      exact ⟨[], more, rfl, .nil, by simpa using closed.symm⟩
  | case3 => cases closed
  | case4 acc e more _ ih =>
      obtain ⟨body, follow, rfl, quoted, rfl⟩ := ih closed
      exact ⟨'\\' :: e :: body, follow, rfl, .escape e quoted, by simp; omega⟩
  | case5 => cases closed
  | case6 acc c more notQuote notBs printable ih =>
      obtain ⟨body, follow, rfl, quoted, rfl⟩ := ih closed
      exact ⟨c :: body, follow, rfl, .plain notQuote notBs (by omega) quoted, by simp; omega⟩

/-! ### What `classify` finds each class by -/

section Classes

variable {c : Char} {cs : List Char} {n : Nat}

theorem classify_eq_string (classified : classify c cs = .token .string n) :
    c = '"' ∧ ∃ m, n = m + 1 ∧ quotedLength '"' 0 cs = some m := by
  unfold classify at classified
  split at classified
  · cases classified
  · split at classified
    · rename_i m quoted
      cases classified
      split at quoted
      · exact ⟨‹_›, m, rfl, quoted⟩
      · cases quoted
    · repeat' split at classified
      all_goals cases classified

theorem classify_eq_singleQuoted (classified : classify c cs = .token .singleQuoted n) :
    c = '\'' ∧ ∃ m, n = m + 1 ∧ quotedLength '\'' 0 cs = some m := by
  unfold classify at classified
  split at classified
  · cases classified
  · split at classified
    · cases classified
    · split at classified
      · rename_i m quoted
        cases classified
        split at quoted
        · exact ⟨‹_›, m, rfl, quoted⟩
        · cases quoted
      · repeat' split at classified
        all_goals cases classified

theorem classify_eq_name (classified : classify c cs = .token .name n) :
    nameLength (c :: cs) = some n := by
  unfold classify at classified
  repeat' split at classified
  all_goals cases classified
  assumption

theorem classify_eq_number (classified : classify c cs = .token .number n) :
    isBlank c = false ∧ c ≠ '"' ∧ c ≠ '\'' ∧ nameLength (c :: cs) = none ∧
      numberLength (c :: cs) = some n := by
  unfold classify at classified
  repeat' split at classified
  all_goals cases classified
  have number : numberLength (c :: cs) = some n := by assumption
  refine ⟨by simpa using ‹¬isBlank c = true›, ?_, ?_, by assumption, number⟩
  all_goals
    rintro rfl
    rw [numberLength_of_head (by decide) (by decide)] at number
    cases number

theorem classify_eq_literal (classified : classify c cs = .token .literal n) :
    literalLength (c :: cs) = some n := by
  unfold classify at classified
  repeat' split at classified
  all_goals cases classified
  assumption

theorem classify_eq_mark (classified : classify c cs = .token .mark n) :
    n = 1 ∧ isMarkChar c = true := by
  unfold classify at classified
  repeat' split at classified
  all_goals cases classified
  exact ⟨rfl, ‹_›⟩

end Classes

/-! ### Names -/

section Names

variable {cs f : List Char}

theorem Closes.not_nameChar (closes : Closes f) : ∀ c ∈ f.head?, isNameChar c = false := by
  intro c member
  rcases closes.head c member with blank | mark
  · exact isNameChar_of_blank blank
  · rcases mark with rfl | rfl | rfl <;> decide +kernel

/-- A colon after blanks is found within a text, or not at all, when what follows the text
closes a value. -/
theorem colon_append_closes (closes : Closes f) (cs : List Char) :
    ((cs ++ f).dropWhile isBlank).head? = some ':' ↔ (cs.dropWhile isBlank).head? = some ':' := by
  rw [List.dropWhile_append]
  split
  · rename_i blanks
    rw [List.isEmpty_iff.mp blanks]
    refine ⟨fun colon => ?_, fun colon => by simp at colon⟩
    rcases closes ':' colon with wrong | wrong | wrong <;> exact absurd wrong (by decide)
  · rename_i kept
    cases found : cs.dropWhile isBlank with
    | nil => simp [found] at kept
    | cons d rest => simp

/-- **A name is read off its own characters.** What closes a value after a text neither makes a
name of it nor ends one. -/
theorem nameLength_append_closes (closes : Closes f) : nameLength (cs ++ f) = nameLength cs := by
  have colon := colon_append_closes closes (cs.dropWhile isNameChar)
  unfold nameLength
  simp only [takeWhile_append_stop closes.not_nameChar, dropWhile_append_stop closes.not_nameChar]
  split
  · rfl
  · split <;> split <;> simp_all

theorem nameLength_bound (found : nameLength cs = some n) : 0 < n ∧ n ≤ cs.length := by
  simp only [nameLength] at found
  split at found
  · cases found
  · rename_i nonempty
    split at found
    · cases found
      refine ⟨?_, (List.takeWhile_prefix _).length_le⟩
      cases run : cs.takeWhile isNameChar with
      | nil => simp [run] at nonempty
      | cons _ _ => simp
    · cases found

end Names

/-! ### Numbers -/

section Numbers

variable {cs f : List Char}

/-- What may stand right after a number without being read into it. -/
def StopsNumber (f : List Char) : Prop :=
  ∀ c ∈ f.head?, c.isDigit = false ∧ c ≠ '-' ∧ c ≠ '+' ∧ c ≠ '.' ∧ c ≠ 'e' ∧ c ≠ 'E' ∧
    continuesNumber c = false

theorem digitRun_le (cs : List Char) : digitRun cs ≤ cs.length :=
  (List.takeWhile_prefix _).length_le

/-- The length of the sign of an exponent: 1 for a plus or a minus, 0 otherwise. -/
def exponentSign (rest : List Char) : Nat :=
  if rest.head? = some '+' ∨ rest.head? = some '-' then 1 else 0

/-- The length of an exponent part after its `e` or `E`, the letter included, or 0. -/
def exponentRest (rest : List Char) : Nat :=
  if digitRun (rest.drop (exponentSign rest)) = 0 then 0
  else 1 + exponentSign rest + digitRun (rest.drop (exponentSign rest))

theorem exponentLength_cons (e : Char) (rest : List Char) :
    exponentLength (e :: rest) = if e = 'e' ∨ e = 'E' then exponentRest rest else 0 := by
  rw [exponentLength.eq_def]
  dsimp only
  by_cases mark : e = 'e' ∨ e = 'E'
  · rw [if_pos mark, if_pos mark]
    split
    · simp [exponentRest, exponentSign]
    · simp [exponentRest, exponentSign]
    · rename_i notPlus notMinus
      have unsigned : exponentSign rest = 0 := by
        cases rest with
        | nil => rfl
        | cons c more =>
            simp only [exponentSign, List.head?_cons, Option.some.injEq]
            rw [if_neg]
            rintro (rfl | rfl)
            exacts [notPlus more rfl, notMinus more rfl]
      simp [exponentRest, unsigned]
  · rw [if_neg mark, if_neg mark]

theorem exponentSign_le (rest : List Char) : exponentSign rest ≤ rest.length := by
  unfold exponentSign
  split
  · rename_i signed
    cases rest with
    | nil => simp at signed
    | cons _ _ => simp
  · exact Nat.zero_le _

theorem signLength_le (cs : List Char) : signLength cs ≤ cs.length := by
  unfold signLength
  split <;> simp

theorem wholeLength_le (cs : List Char) : wholeLength cs ≤ cs.length := by
  unfold wholeLength
  split
  · simp
  · split
    · exact digitRun_le _
    · exact Nat.zero_le _
  · exact Nat.zero_le _

theorem fractionLength_le (cs : List Char) : fractionLength cs ≤ cs.length := by
  unfold fractionLength
  split
  · rename_i rest
    have := digitRun_le rest
    split
    · exact Nat.zero_le _
    · simp only [List.length_cons]
      omega
  · exact Nat.zero_le _

theorem exponentLength_le (cs : List Char) : exponentLength cs ≤ cs.length := by
  cases cs with
  | nil => exact Nat.zero_le _
  | cons e rest =>
      have run := digitRun_le (rest.drop (exponentSign rest))
      have sign := exponentSign_le rest
      rw [exponentLength_cons]
      unfold exponentRest
      simp only [List.length_drop, List.length_cons] at run ⊢
      split_ifs <;> omega

/-- The length of the number at the front of a text, were nothing to follow it: its sign, whole
part, fraction and exponent. -/
def numberSize (cs : List Char) : Nat :=
  let body := cs.drop (signLength cs)
  let afterWhole := body.drop (wholeLength body)
  signLength cs + wholeLength body + fractionLength afterWhole +
    exponentLength (afterWhole.drop (fractionLength afterWhole))

/-- A number is found where a whole part starts, and then ends where its parts do unless a
character that continues numbers comes next. -/
theorem numberLength_eq (cs : List Char) :
    numberLength cs = if wholeLength (cs.drop (signLength cs)) = 0 then none
      else ((cs.drop (numberSize cs)).head?).elim (some (numberSize cs))
        fun c => if continuesNumber c then none else some (numberSize cs) := by
  unfold numberLength numberSize
  simp only
  split
  · rfl
  · split <;> simp_all

theorem numberSize_le (cs : List Char) : numberSize cs ≤ cs.length := by
  simp only [numberSize]
  generalize body : cs.drop (signLength cs) = b
  generalize after : b.drop (wholeLength b) = a
  have := congrArg List.length body
  have := congrArg List.length after
  have := signLength_le cs
  have := wholeLength_le b
  have := fractionLength_le a
  have := exponentLength_le (a.drop (fractionLength a))
  simp only [List.length_drop] at *
  omega

theorem numberLength_bound {n : Nat} (found : numberLength cs = some n) :
    0 < n ∧ n ≤ cs.length := by
  rw [numberLength_eq] at found
  split at found
  · cases found
  · rename_i whole
    have size : numberSize cs = n := by
      generalize (cs.drop (numberSize cs)).head? = next at found
      cases next with
      | none => exact Option.some.inj found
      | some c =>
          simp only [Option.elim_some] at found
          split at found
          · cases found
          · exact Option.some.inj found
    have := numberSize_le cs
    have : wholeLength (cs.drop (signLength cs)) ≤ numberSize cs := by simp only [numberSize]; omega
    omega

variable (stop : StopsNumber f)
include stop

theorem digitRun_append_stop : digitRun (cs ++ f) = digitRun cs := by
  rw [digitRun, digitRun, takeWhile_append_stop fun c member => (stop c member).1]

theorem signLength_append_stop : signLength (cs ++ f) = signLength cs := by
  cases cs with
  | cons c rest => by_cases minus : c = '-' <;> simp [signLength, minus]
  | nil =>
      cases f with
      | nil => rfl
      | cons d rest => simp [signLength, (stop d rfl).2.1]

theorem wholeLength_append_stop : wholeLength (cs ++ f) = wholeLength cs := by
  cases cs with
  | cons c rest =>
      by_cases zero : c = '0'
      · subst zero
        rfl
      · rw [List.cons_append, wholeLength.eq_2 _ _ zero, wholeLength.eq_2 _ _ zero,
          ← List.cons_append, digitRun_append_stop stop]
  | nil =>
      cases f with
      | nil => rfl
      | cons d rest =>
          have notDigit := (stop d rfl).1
          have notZero : d ≠ '0' := by
            rintro rfl
            contradiction
          rw [List.nil_append, wholeLength.eq_2 _ _ notZero, if_neg (by simp [notDigit])]
          rfl

theorem fractionLength_append_stop : fractionLength (cs ++ f) = fractionLength cs := by
  cases cs with
  | cons c rest =>
      by_cases point : c = '.'
      · subst point
        simp only [List.cons_append, fractionLength, digitRun_append_stop stop]
      · rw [List.cons_append, fractionLength.eq_2 _ (by simp [point]),
          fractionLength.eq_2 _ (by simp [point])]
  | nil =>
      cases f with
      | nil => rfl
      | cons d rest =>
          rw [List.nil_append, fractionLength.eq_2 _ (by simp [(stop d rfl).2.2.2.1]),
            fractionLength.eq_2 _ (by simp)]

theorem exponentSign_append_stop : exponentSign (cs ++ f) = exponentSign cs := by
  cases cs with
  | cons c rest => rfl
  | nil =>
      cases f with
      | nil => rfl
      | cons d rest =>
          obtain ⟨-, notMinus, notPlus, -⟩ := stop d rfl
          simp [exponentSign, notMinus, notPlus]

theorem exponentLength_append_stop : exponentLength (cs ++ f) = exponentLength cs := by
  cases cs with
  | cons e rest =>
      have drop : (rest ++ f).drop (exponentSign rest) = rest.drop (exponentSign rest) ++ f :=
        List.drop_append_of_le_length (exponentSign_le rest)
      rw [List.cons_append, exponentLength_cons, exponentLength_cons]
      simp only [exponentRest, exponentSign_append_stop stop, drop, digitRun_append_stop stop]
  | nil =>
      cases f with
      | nil => rfl
      | cons d rest =>
          obtain ⟨-, -, -, -, notE, notBigE, -⟩ := stop d rfl
          rw [List.nil_append, exponentLength_cons,
            if_neg (by rintro (rfl | rfl) <;> contradiction)]
          rfl

theorem numberSize_append_stop : numberSize (cs ++ f) = numberSize cs := by
  unfold numberSize
  simp only [signLength_append_stop stop, List.drop_append_of_le_length (signLength_le cs),
    wholeLength_append_stop stop, List.drop_append_of_le_length (wholeLength_le _),
    fractionLength_append_stop stop, List.drop_append_of_le_length (fractionLength_le _),
    exponentLength_append_stop stop]

/-- **A number is read off its own characters.** Whether a number starts a text, and how long
it is, does not depend on what follows the text when that stops numbers. -/
theorem numberLength_append_stop : numberLength (cs ++ f) = numberLength cs := by
  have within := numberSize_le cs
  rw [numberLength_eq, numberLength_eq, numberSize_append_stop stop, signLength_append_stop stop,
    List.drop_append_of_le_length (signLength_le cs), wholeLength_append_stop stop,
    List.drop_append_of_le_length within]
  cases rest : cs.drop (numberSize cs) with
  | cons d more => rfl
  | nil =>
      cases f with
      | nil => rfl
      | cons d more => simp [(stop d rfl).2.2.2.2.2.2]

end Numbers

/-! ### Literals -/

theorem literalLength_eq_some (found : literalLength cs = some n) :
    ∃ s word, literalWord s = some word ∧ cs.take n = word ∧ n = word.length := by
  unfold literalLength at found
  simp only at found
  split_ifs at found
  all_goals
    repeat' split at found
    all_goals cases found
  all_goals
    first
    | exact ⟨.bool true, _, rfl, ‹_›, rfl⟩
    | exact ⟨.bool false, _, rfl, ‹_›, rfl⟩
    | exact ⟨.null, _, rfl, ‹_›, rfl⟩


/-- What closes a value stops numbers. -/
theorem Closes.stopsNumber {f : List Char} (closes : Closes f) : StopsNumber f := by
  intro c member
  rcases closes.head c member with blank | mark
  · have apart : ∀ d, isBlank d = false → c ≠ d := fun d notBlank same => by
      rw [same, notBlank] at blank
      contradiction
    have notDigit : c.isDigit = false := by
      cases digit : c.isDigit
      · rfl
      · rw [isBlank_of_isDigit digit] at blank
        contradiction
    exact ⟨notDigit, apart '-' (by decide), apart '+' (by decide), apart '.' (by decide),
      apart 'e' (by decide), apart 'E' (by decide), continuesNumber_of_blank blank⟩
  · rcases mark with rfl | rfl | rfl <;> decide

/-! ### Lexemes of a split text -/

/-- A lexeme is at least the character it starts with and at most all of the text. -/
theorem classify_token_bound {c : Char} {cs : List Char} {kind : TokenKind} {n : Nat}
    (classified : classify c cs = .token kind n) : 0 < n ∧ n ≤ cs.length + 1 := by
  cases kind with
  | string =>
      obtain ⟨-, m, rfl, quoted⟩ := classify_eq_string classified
      obtain ⟨body, follow, rfl, -, rfl⟩ := quotedBody_of_quotedLength quoted
      simp
  | singleQuoted =>
      obtain ⟨-, m, rfl, quoted⟩ := classify_eq_singleQuoted classified
      obtain ⟨body, follow, rfl, -, rfl⟩ := quotedBody_of_quotedLength quoted
      simp
  | name => simpa using nameLength_bound (classify_eq_name classified)
  | number => simpa using numberLength_bound (classify_eq_number classified).2.2.2.2
  | literal =>
      obtain ⟨s, word, spelled, taken, rfl⟩ :=
        literalLength_eq_some (classify_eq_literal classified)
      have nonempty : 0 < word.length := by
        unfold literalWord at spelled
        split at spelled <;> cases spelled <;> simp
      have := congrArg List.length taken
      simp only [List.length_take, List.length_cons] at this
      omega
  | mark =>
      obtain ⟨rfl, -⟩ := classify_eq_mark classified
      simp

/-- **A split text is blanks and then its lexemes laid out.** Each lexeme the lexer splits off is
found whole before the text after it, and the blanks it skips lie between them. -/
theorem scanFrom_layout {pos : Nat} {acc ts : List Token} {cs : List Char}
    (scanned : scanFrom pos acc cs = .ok ts) :
    ∃ gap text more, cs = gap ++ text ∧ (∀ c ∈ gap, isBlank c = true) ∧
      Separated [] (more.map Token.view) text ∧ ts = acc.reverse ++ more := by
  fun_induction scanFrom pos acc cs generalizing ts with
  | case1 pos acc =>
      cases scanned
      exact ⟨[], [], [], rfl, by simp, .nil, by simp⟩
  | case2 pos acc c cs n classified ih =>
      obtain ⟨gap, text, more, split, blanks, separated, rfl⟩ := ih scanned
      obtain ⟨blank, rest⟩ := classify_blank classified
      refine ⟨c :: cs.takeWhile isBlank ++ gap, text, more, ?_, ?_, separated, rfl⟩
      · calc c :: cs = c :: (cs.takeWhile isBlank ++ cs.dropWhile isBlank) := by
              rw [List.takeWhile_append_dropWhile]
          _ = c :: cs.takeWhile isBlank ++ gap ++ text := by
              rw [← rest, split]
              simp
      · intro d member
        rcases List.mem_cons.mp member with rfl | later
        · exact blank
        · rcases List.mem_append.mp later with skipped | kept
          · exact List.mem_takeWhile_imp skipped
          · exact blanks d kept
  | case3 pos acc c cs kind n classified ih =>
      obtain ⟨gap, text, more, split, blanks, separated, rfl⟩ := ih scanned
      obtain ⟨positive, within⟩ := classify_token_bound classified
      have taken : (c :: cs).take n = c :: cs.take (n - 1) := by
        obtain ⟨m, rfl⟩ : ∃ m, n = m + 1 := ⟨n - 1, by omega⟩
        rfl
      have lexes : Lexes kind ((c :: cs).take n) (gap ++ text ++ []) := by
        refine ⟨c, cs.take (n - 1), taken, ?_⟩
        rw [List.append_nil, ← split, List.take_append_drop, classified, List.length_take,
          List.length_cons, Nat.min_eq_left within]
      refine ⟨[], (c :: cs).take n ++ gap ++ text, ⟨kind, (c :: cs).take n, pos⟩ :: more, ?_,
        by simp, .cons blanks lexes separated rfl, by simp⟩
      rw [List.nil_append, List.append_assoc, ← split, taken, List.cons_append,
        List.take_append_drop]
  | case4 => cases scanned

/-- The lexemes of a text are laid out after its leading blanks. -/
theorem scan_layout {cs : List Char} {ts : List Token} (scanned : Token.scan cs = .ok ts) :
    ∃ gap text, cs = gap ++ text ∧ (∀ c ∈ gap, isBlank c = true) ∧
      Separated [] (ts.map Token.view) text := by
  obtain ⟨gap, text, more, split, blanks, separated, rfl⟩ := scanFrom_layout scanned
  exact ⟨gap, text, split, blanks, by simpa using separated⟩

end Ingest.Relaxed
