/-!
Code points and strings of code points.

The strings of a relaxed document are sequences of Unicode code points. A `\uD800` escape that
no low surrogate escape follows stands for a lone surrogate: a code point, but not a Unicode
scalar value, so such a string is not a Lean `String`. A `Point` is either a scalar value or
one of the 2048 surrogates, and a `Str` is a list of points. Text without surrogates is the
same in both forms (`Str.toString?_ofString`), and every scalar value keeps its meaning.

A surrogate is never blank, never a digit or a letter, and has no case, so the rules that read
texts treat it like any other character that is none of these.

The escapes of a quoted text spell code points as fixed-width hexadecimal numerals
(`hexPadded`).
-/

namespace Ingest.Text

/-- A Unicode code point: a scalar value, or the surrogate `0xD800 + offset`. -/
inductive Point where
  | char (c : Char)
  | surrogate (offset : Fin 0x800)
deriving DecidableEq, Repr

namespace Point

/-- The number of a code point. -/
def code : Point → Nat
  | .char c => c.toNat
  | .surrogate o => 0xD800 + o.val

/-- The code point of a number below `0x110000`: a surrogate from `0xD800` to `0xDFFF`, and the
character of that number otherwise. -/
def ofCode (n : Nat) : Point :=
  if h : 0xD800 ≤ n ∧ n < 0xE000 then .surrogate ⟨n - 0xD800, by omega⟩ else .char (Char.ofNat n)

/-- The character of a scalar value, `none` for a surrogate. -/
def char? : Point → Option Char
  | .char c => some c
  | .surrogate _ => none

/-- Whether a code point is a surrogate. -/
def isSurrogate (p : Point) : Bool :=
  p.char?.isNone

theorem char?_comp_char : Point.char? ∘ Point.char = some := rfl

end Point

/-- A string of code points, which may hold lone surrogates. -/
structure Str where
  points : List Point
deriving DecidableEq, Repr, Inhabited

namespace Str

/-- The string of a list of characters. -/
def ofChars (cs : List Char) : Str :=
  ⟨cs.map .char⟩

/-- The string of a text. -/
def ofString (s : String) : Str :=
  ofChars s.toList

instance : Coe String Str := ⟨ofString⟩

instance : Append Str := ⟨fun a b => ⟨a.points ++ b.points⟩⟩

/-- The characters of a string that holds no surrogate. -/
def toChars? (s : Str) : Option (List Char) :=
  s.points.mapM Point.char?

/-- The text of a string that holds no surrogate. -/
def toString? (s : Str) : Option String :=
  s.toChars?.map String.ofList

/-- Whether a string holds a surrogate. -/
def hasSurrogate (s : Str) : Bool :=
  s.points.any Point.isSurrogate

/-- The number of code points of a string. -/
def length (s : Str) : Nat :=
  s.points.length

theorem toChars?_ofChars (cs : List Char) : (ofChars cs).toChars? = some cs := by
  induction cs with
  | nil => rfl
  | cons c cs ih =>
    simp only [toChars?, ofChars, List.map_cons, List.mapM_cons, Point.char?] at ih ⊢
    simp [ih]

theorem toString?_ofString (s : String) : (ofString s).toString? = some s := by
  simp [toString?, ofString, toChars?_ofChars]

end Str

/-- The hexadecimal digit of a value below sixteen, in lower or upper case. -/
def hexDigit (upper : Bool) (n : Nat) : Char :=
  if n < 10 then Char.ofNat (48 + n)
  else if upper then Char.ofNat (55 + n) else Char.ofNat (87 + n)

/-- The last `width` hexadecimal digits of `n`, most significant first, zeros in front. -/
def hexDigits (upper : Bool) : Nat → Nat → List Char
  | 0, _ => []
  | width + 1, n => hexDigits upper width (n / 16) ++ [hexDigit upper (n % 16)]

/-- The numeral of `n` in `width` hexadecimal digits. -/
def hexPadded (upper : Bool) (width n : Nat) : String :=
  String.ofList (hexDigits upper width n)

example : hexPadded false 2 255 = "ff" ∧ hexPadded true 4 0xE9 = "00E9" := by decide

end Ingest.Text
