import Mathlib.Data.List.Find
import Ingest.Proofs.Relaxed.ParseTree
import Ingest.Proofs.Value.Slots

/-!
Contract: looking a key up in a map that reading builds gives the value of the last member of
the object literal whose key shares the key's slot; under key coercion the original text of a
coerced key finds nothing.

Owns: that reading a decimal never gives not-a-number; what a key text can be coerced to
(`CoercesTo`, `coerceKey_cases`): a text only to itself, and a float never to not-a-number, so
every coerced key shares its own slot; and, for every object literal at any depth of the parse
tree of a text that reads, the lookups by its keys and by their texts (`read_lookups`).

Does not own: how the parse tree is read, which is `Relaxed.ParseTree`, or what a lookup in a
map built from pairs finds, which is `Value.Slots`.
-/

namespace Ingest

/-! ### Reading never gives not-a-number -/

namespace Binary64

theorem exponentField_ofFields (neg : Bool) (e f : Nat) :
    (ofFields neg e f).exponentField = e % 2048 := by
  unfold ofFields exponentField
  simp only [Nat.pow_eq, Nat.reducePow, UInt64.toNat_ofNat']
  have fits : (if neg then 9223372036854775808 else 0) + e % 2048 * 4503599627370496 +
      f % 4503599627370496 < 18446744073709551616 := by
    split <;> omega
  rw [Nat.mod_eq_of_lt fits]
  split <;> omega

theorem fractionField_ofFields (neg : Bool) (e f : Nat) :
    (ofFields neg e f).fractionField = f % 4503599627370496 := by
  unfold ofFields fractionField
  simp only [Nat.pow_eq, Nat.reducePow, UInt64.toNat_ofNat']
  have fits : (if neg then 9223372036854775808 else 0) + e % 2048 * 4503599627370496 +
      f % 4503599627370496 < 18446744073709551616 := by
    split <;> omega
  rw [Nat.mod_eq_of_lt fits]
  split <;> omega

theorem isNaN_ofFields {neg : Bool} {e f : Nat}
    (finite : e % 2048 ≠ 2047 ∨ f % 4503599627370496 = 0) : (ofFields neg e f).isNaN = false := by
  simp only [isNaN, exponentField_ofFields, fractionField_ofFields]
  rcases finite with exponent | fraction
  · simp [exponent]
  · simp [fraction]

theorem place_isNaN (neg : Bool) (s : Nat) (q : Int) : (place neg s q).isNaN = false := by
  unfold place
  split
  -- a subnormal has exponent field 0, an infinity fraction 0, a normal an exponent below 2047
  split
  · exact isNaN_ofFields (.inl (by decide))
  split
  · exact isNaN_ofFields (.inr (by decide))
  · exact isNaN_ofFields (.inl (by omega))

theorem ofRatio_isNaN (neg : Bool) (num den : Nat) : (ofRatio neg num den).isNaN = false := by
  unfold ofRatio
  split
  · exact isNaN_ofFields (.inl (by decide))
  dsimp only
  split
  · exact isNaN_ofFields (.inr (by decide))
  · exact place_isNaN _ _ _

/-- Reading a decimal never gives not-a-number. -/
theorem ofDecimal_isNaN (neg : Bool) (digits : Nat) (exp : Int) :
    (ofDecimal neg digits exp).isNaN = false := by
  unfold ofDecimal
  split
  · exact isNaN_ofFields (.inl (by decide))
  dsimp only
  split
  · exact isNaN_ofFields (.inr (by decide))
  split
  · exact isNaN_ofFields (.inl (by decide))
  split <;> exact ofRatio_isNaN _ _ _

end Binary64

/-! ### Coerced keys -/

namespace Relaxed

open Ingest.Text

/-- What a key text can be coerced to: the text itself, a boolean, an integer, or the float of a
decimal numeral. -/
def CoercesTo (text : Str) (k : Scalar) : Prop :=
  k = .str text ∨ (∃ b, k = .bool b) ∨ (∃ n, k = .int n) ∨
    ∃ n : Decimal.Numeral, k = .float n.toBinary64

theorem coerceKey_cases {text : Str} {k : Scalar} (coerced : coerceKey text = .ok k) :
    CoercesTo text k := by
  unfold coerceKey at coerced
  split at coerced
  · cases coerced
    exact Or.inl rfl
  lift_lets at coerced
  extract_lets lowered viaFloat at coerced
  -- every branch that spells no boolean and no integer gives the float a numeral spells, or
  -- else the text itself
  have fallback : CoercesTo text viaFloat := by
    simp only [viaFloat]
    split
    · exact Or.inr (Or.inr (Or.inr ⟨_, rfl⟩))
    · exact Or.inl rfl
  split at coerced
  · cases coerced
    exact Or.inr (Or.inl ⟨_, rfl⟩)
  split at coerced
  · cases coerced
    exact Or.inr (Or.inl ⟨_, rfl⟩)
  split at coerced
  · -- an integer text: refused past the digit limit, else an integer of 64 bits or the fallback
    extract_lets n at coerced
    split at coerced
    · split at coerced
      · cases coerced
      · split at coerced
        · cases coerced
          exact Or.inr (Or.inr (Or.inl ⟨_, rfl⟩))
        · rw [← Except.ok.inj coerced]
          exact fallback
    · rw [← Except.ok.inj coerced]
      exact fallback
  · rw [← Except.ok.inj coerced]
    exact fallback

/-- A key text coerced to a text is coerced to itself. -/
theorem coerceKey_str {text s : Str} (coerced : coerceKey text = .ok (.str s)) : s = text := by
  rcases coerceKey_cases coerced with same | ⟨_, wrong⟩ | ⟨_, wrong⟩ | ⟨_, wrong⟩
  · exact Scalar.str.inj same
  all_goals cases wrong

/-- A coerced key shares its own slot: it is never not-a-number. -/
theorem coerceKey_sameSlot_self {text : Str} {k : Scalar} (coerced : coerceKey text = .ok k) :
    k.sameSlot k = true := by
  rcases coerceKey_cases coerced with rfl | ⟨b, rfl⟩ | ⟨n, rfl⟩ | ⟨n, rfl⟩
  · simp [Scalar.sameSlot]
  · simp [Scalar.sameSlot]
  · simp [Scalar.sameSlot]
  · simp [Scalar.sameSlot, Binary64.sameValue, Decimal.Numeral.toBinary64,
      Binary64.ofDecimal_isNaN]

section Keys

variable {coerce : Bool} {text : Str} {key : Scalar}

theorem KeyReads.coerced (reads : KeyReads coerce text key) (coercing : coerce = true) :
    coerceKey text = .ok key := by
  simpa [KeyReads, coercing] using reads

theorem KeyReads.plain (reads : KeyReads coerce text key) (plain : coerce = false) :
    key = .str text := by
  simpa [KeyReads, plain] using reads

theorem KeyReads.sameSlot_self (reads : KeyReads coerce text key) : key.sameSlot key = true := by
  cases coerce with
  | true => exact coerceKey_sameSlot_self (reads.coerced rfl)
  | false =>
    rw [reads.plain rfl]
    simp [Scalar.sameSlot]

end Keys

/-! ### Lookups in the maps of object literals -/

namespace ParseTree

variable {coerce : Bool} {members : List (Member coerce (ParseTree coerce))}

/-- The last of the members whose key shares the slot of `k`, if any. -/
def lastInSlot (members : List (Member coerce (ParseTree coerce))) (k : Scalar) :
    Option (Member coerce (ParseTree coerce)) :=
  members.reverse.find? fun m => m.key.sameSlot k

/-- The last of the members whose key text is `text`, if any. -/
def lastWithText (members : List (Member coerce (ParseTree coerce))) (text : Str) :
    Option (Member coerce (ParseTree coerce)) :=
  members.reverse.find? fun m => m.text == text

/-- Looking a key up in the map of an object literal gives the value of the last member in the
key's slot. -/
theorem get?_entries (members : List (Member coerce (ParseTree coerce))) (k : Scalar) :
    Entries.get? (entries members) k = (lastInSlot members k).map fun m => m.value.build := by
  rw [entries, Entries.get?_ofPairs, lastInSlot, ← List.map_reverse, List.find?_map,
    Option.map_map]
  rfl

/-- Every member is in its own slot, so its slot has a last member. -/
theorem lastInSlot_of_mem {m : Member coerce (ParseTree coerce)} (member : m ∈ members) :
    ∃ last, lastInSlot members m.key = some last :=
  Option.isSome_iff_exists.mp
    (List.find?_isSome.mpr ⟨m, List.mem_reverse.mpr member, m.keyReads.sameSlot_self⟩)

/-- Without coercion every key is its text, so a text finds the last member with that key
text. -/
theorem get?_text_of_plain (plain : coerce = false) (members : List (Member coerce (ParseTree coerce)))
    (t : Str) :
    Entries.get? (entries members) (.str t) = (lastWithText members t).map fun m => m.value.build := by
  rw [get?_entries, lastInSlot, lastWithText]
  congr 1
  apply List.find?_congr
  intro m _
  rw [m.keyReads.plain plain]
  rfl

/-- **A coerced key is not found by its text.** Under coercion a member whose key is no text
leaves nothing in the slot of its key text: a member keyed by a text is keyed by its own text,
which would coerce as this one does. -/
theorem get?_text_of_coerced (coercing : coerce = true) {m : Member coerce (ParseTree coerce)}
    (notText : ∀ s, m.key ≠ .str s) :
    Entries.get? (entries members) (.str m.text) = none := by
  rw [get?_entries, Option.map_eq_none_iff, lastInSlot, List.find?_eq_none]
  intro other _ hit
  obtain ⟨s, keyed⟩ : ∃ s, other.key = .str s := by
    cases found : other.key <;> rw [found] at hit <;> simp [Scalar.sameSlot] at hit
    exact ⟨_, rfl⟩
  have sameText : s = m.text := by
    rw [keyed] at hit
    simpa [Scalar.sameSlot] using hit
  have own : s = other.text := coerceKey_str (keyed ▸ other.keyReads.coerced coercing)
  have recoerced : coerceKey m.text = .ok (.str s) :=
    calc coerceKey m.text = coerceKey other.text := by rw [← sameText, own]
      _ = .ok other.key := other.keyReads.coerced coercing
      _ = .ok (.str s) := by rw [keyed]
  rw [m.keyReads.coerced coercing] at recoerced
  exact notText s (Except.ok.inj recoerced)

end ParseTree

/-- **Coerced lookups are by slot, never by the original text.** When a text reads, its parse tree
builds the value read, and in the map of every object literal of that tree, at any depth, the
key of each member finds the value of the last member in its slot. Under key coercion the key is
the coercion of the key text, and a key that is not a text leaves its key text unfound; without
coercion the key is its text and finds the last member with that text. -/
theorem read_lookups {o : Options} {text : String} {v : Value}
    (readOk : read o text = .ok (some v)) :
    ∃ tree, readTree o text = .ok (some tree) ∧ tree.build = v ∧
      ∀ members, tree.HasObject members → ∀ m ∈ members,
        (∃ last, ParseTree.lastInSlot members m.key = some last ∧
          Entries.get? (ParseTree.entries members) m.key = some last.value.build) ∧
        (o.coerceKeys = true → coerceKey m.text = .ok m.key ∧
          ((∀ s, m.key ≠ .str s) →
            Entries.get? (ParseTree.entries members) (.str m.text) = none)) ∧
        (o.coerceKeys = false → m.key = .str m.text ∧
          ∃ last, ParseTree.lastWithText members m.text = some last ∧
            Entries.get? (ParseTree.entries members) (.str m.text) = some last.value.build) := by
  rw [read_eq_readTree] at readOk
  cases parsed : readTree o text with
  | error e =>
    rw [parsed] at readOk
    cases readOk
  | ok tree? =>
    rw [parsed] at readOk
    cases tree? with
    | none => cases readOk
    | some tree =>
      refine ⟨tree, rfl, Option.some.inj (Except.ok.inj readOk),
        fun members _ m member => ⟨?_, fun coercing => ?_, fun plain => ?_⟩⟩
      · obtain ⟨last, found⟩ := ParseTree.lastInSlot_of_mem member
        exact ⟨last, found, by rw [ParseTree.get?_entries, found]; rfl⟩
      · exact ⟨m.keyReads.coerced coercing, ParseTree.get?_text_of_coerced coercing⟩
      · -- the member itself has its key text, so that text has a last member
        obtain ⟨last, found⟩ : ∃ last, ParseTree.lastWithText members m.text = some last :=
          Option.isSome_iff_exists.mp
            (List.find?_isSome.mpr ⟨m, List.mem_reverse.mpr member, by simp⟩)
        exact ⟨m.keyReads.plain plain, last, found,
          by rw [ParseTree.get?_text_of_plain plain, found]; rfl⟩

/-- Under coercion the keys `"1"` and `1` share a slot, and the later value is the one kept. -/
example : (match read { coerceKeys := true } "\x7b\"1\": 'a', 1: 'd'\x7d" with
    | .ok (some (.map [(.int 1, .scalar (.str s))])) => s == Str.ofString "d"
    | _ => false) = true := by
  decide +kernel

/-- An object literal that fills the slot of `1` twice, and a nested one whose keys `"01"` and
`"1.0"` are an integer and a float. -/
def repeatedKeys : String := "\x7b\"1\": 'a', x: \x7b\"01\": 'b', \"1.0\": 'c'\x7d, 1: 'd'\x7d"

theorem read_lookups_repeatedKeys :
    ∃ v, read { coerceKeys := true } repeatedKeys = .ok (some v) ∧
      ∃ tree, readTree { coerceKeys := true } repeatedKeys = .ok (some tree) ∧ tree.build = v ∧
        ∀ members, tree.HasObject members → ∀ m ∈ members,
          (∃ last, ParseTree.lastInSlot members m.key = some last ∧
            Entries.get? (ParseTree.entries members) m.key = some last.value.build) ∧
          (({ coerceKeys := true } : Options).coerceKeys = true →
            coerceKey m.text = .ok m.key ∧
            ((∀ s, m.key ≠ .str s) →
              Entries.get? (ParseTree.entries members) (.str m.text) = none)) ∧
          (({ coerceKeys := true } : Options).coerceKeys = false → m.key = .str m.text ∧
            ∃ last, ParseTree.lastWithText members m.text = some last ∧
              Entries.get? (ParseTree.entries members) (.str m.text) =
                some last.value.build) := by
  have reads : ((read { coerceKeys := true } repeatedKeys).toOption.join).isSome = true := by
    decide +kernel
  obtain ⟨v, found⟩ := Option.isSome_iff_exists.mp reads
  cases readOk : read { coerceKeys := true } repeatedKeys with
  | error e =>
    rw [readOk] at found
    cases found
  | ok doc =>
    rw [readOk] at found
    obtain rfl : doc = some v := found
    exact ⟨v, rfl, read_lookups readOk⟩

end Relaxed

end Ingest
