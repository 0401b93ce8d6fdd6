import Ingest.Proofs.Relaxed.Descent

/-!
Contract: what reading makes of a whole text.

Owns: the empty documents, which are exactly the texts of blanks whatever the options
(`read_eq_none_iff`), from the scanner's count of lexemes; and the round trip of
`Value.render` and `read` on the trees that reading can give back (`read_render`), assembled
from the lexer's run over the written lexemes (`Value.scan_lexText`) and the reader's descent
over their tokens (`Reader.reads_of_rereadable`), with a tree under bare keys that shows every
kind of lexeme coming back.

Does not own: the text of a tree that holds a lone surrogate, which is no `String` and so is
outside what `read` takes.
-/

namespace Ingest.Relaxed

open Ingest.Text

/-! ### Empty documents -/

theorem document_eq_none_iff (r : Reader) (ts : List Token) :
    r.document ts = .ok none ↔ ts = [] := by
  constructor
  · intro none_
    cases ts with
    | nil => rfl
    | cons t rest =>
        rw [Reader.document] at none_
        · split at none_
          · cases none_
          · cases none_
          · cases none_
        · exact List.cons_ne_nil t rest
  · rintro rfl
    rfl

/-- **Reading gives no value exactly for a blank text.** Whatever the options, a document is
empty exactly when every character of it is blank. -/
theorem read_eq_none_iff (o : Options) (text : String) :
    read o text = .ok none ↔ ∀ c ∈ text.toList, isBlank c = true := by
  rw [← scan_eq_nil_iff, read]
  split
  · rename_i e scanned
    rw [scanned]
    constructor <;> intro wrong <;> cases wrong
  · rename_i ts scanned
    rw [document_eq_none_iff, scanned]
    simp

/-- A form feed is blank but no JSON whitespace, and a strict reading of it gives no value. -/
theorem read_strict_formFeed :
    '\x0c' ∉ [' ', '\t', '\n', '\r'] ∧ read Options.strict "\x0c" = .ok none := by
  refine ⟨by decide, ?_⟩
  have scanned : Token.scan "\x0c".toList = .ok [] := (scan_eq_nil_iff _).mpr (by simp; decide)
  rw [read, scanned]
  rfl

/-! ### Reading a written tree -/

/-- **Reading inverts writing on the trees it can give back.** The compact text of a tree whose
scalars their text stands for and whose maps have keys in different slots is a plain text, and
reading it gives the tree back, with its kinds of scalars, its items and its entries in order,
under any options whose nesting limit its deepest element respects: without key coercion when
every key is a text, and with coercion and bare keys allowed when every key is a boolean, an
integer of 64 signed bits or a text that coerces to itself. -/
theorem read_render {coerce : Bool} {v : Value} (rereadable : v.Rereadable coerce) {o : Options}
    (coerces : o.coerceKeys = coerce) (bare : coerce = true → o.unquotedKeys = true)
    (deep : (v.nesting : Int) ≤ o.maxDepth) :
    ∃ text : String, Str.ofString text = v.render ∧ read o text = .ok (some v) := by
  obtain ⟨ts, views, scanned⟩ := Value.scan_lexText rereadable
  refine ⟨String.ofList (lexText v.lexemes), ?_, ?_⟩
  · rw [Value.render_eq_lexText rereadable, Str.ofString, String.toList_ofList]
  · have nonempty : ts ≠ [] := by
      obtain ⟨l, ls, head, -⟩ := v.lexemes_head
      rintro rfl
      rw [List.map_nil, head] at views
      exact List.cons_ne_nil _ _ views.symm
    have reads := Reader.reads_of_rereadable ⟨o, (lexText v.lexemes).length⟩ coerces bare
      rereadable 0 (by simpa using deep) ts [] views
    rw [List.append_nil] at reads
    rw [read, String.toList_ofList, scanned]
    exact Reader.document_of_value _ nonempty reads

/-- A map under bare keys `true` and `-7`, holding a list of an integer, the floating point number
`0.5`, null and an empty map, and a text with a quote and a line feed. -/
def bareKeysSample : Value :=
  .map [(.bool true, .list [.scalar (.int 12), .scalar (.float ⟨0x3FE0000000000000⟩), .scalar .null,
      .map []]),
    (.int (-7), .scalar (.str (Str.ofChars ['a', '"', '\n'])))]

theorem bareKeysSample_rereadable : bareKeysSample.Rereadable true := by
  refine .map ?_ ?_ (by decide)
  · intro e member
    simp only [List.mem_cons, List.not_mem_nil, or_false] at member
    rcases member with rfl | rfl
    · exact rfl
    · exact ⟨rfl, by decide, by decide⟩
  · intro e member
    simp only [List.mem_cons, List.not_mem_nil, or_false] at member
    rcases member with rfl | rfl
    · refine .list fun x member => ?_
      simp only [List.mem_cons, List.not_mem_nil, or_false] at member
      rcases member with rfl | rfl | rfl | rfl
      · exact .scalar (by decide)
      · exact .scalar (by decide)
      · exact .scalar trivial
      · exact .map (by simp) (by simp) .nil
    · exact .scalar (by decide)

theorem read_render_bareKeys :
    bareKeysSample.Rereadable true ∧ (bareKeysSample.nesting : Int) ≤ 200 ∧
      ∃ text : String, Str.ofString text = bareKeysSample.render ∧
        read { coerceKeys := true } text = .ok (some bareKeysSample) :=
  ⟨bareKeysSample_rereadable, by decide,
    read_render bareKeysSample_rereadable rfl (fun _ => rfl) (by decide)⟩

end Ingest.Relaxed
