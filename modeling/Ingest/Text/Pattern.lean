/-!
Text patterns by lists of successes.

A pattern maps a text to every rest that can remain after it matches a prefix, so alternation
and repetition backtrack for free, and a pattern matches a whole text when the empty rest is
among the results. Classes of characters, literal words, sequence, choice, optional parts and
repetition are enough to write the plain-scalar rules of a data format as data.
-/

namespace Ingest.Text

/-- A pattern: every rest of the text after a match of a prefix. -/
def Pattern := List Char → List (List Char)

namespace Pattern

/-- One character of a class. -/
def cls (p : Char → Bool) : Pattern
  | c :: rest => if p c then [rest] else []
  | [] => []

/-- One given character. -/
def char (c : Char) : Pattern :=
  cls (· = c)

/-- A literal word. -/
def word (w : List Char) : Pattern := fun s =>
  if w.isPrefixOf s then [s.drop w.length] else []

/-- One pattern after the other. -/
def seq (a b : Pattern) : Pattern := fun s =>
  (a s).flatMap b

/-- Either pattern. -/
def alt (a b : Pattern) : Pattern := fun s =>
  a s ++ b s

/-- The pattern or nothing. -/
def opt (a : Pattern) : Pattern := fun s =>
  s :: a s

/-- Any number of characters of a class: the text itself first, then each rest after one more
character of the class. -/
def many (p : Char → Bool) : Pattern
  | [] => [[]]
  | c :: rest => (c :: rest) :: (if p c then many p rest else [])

/-- At least one character of a class. -/
def many1 (p : Char → Bool) : Pattern :=
  seq (cls p) (many p)

/-- A sequence of patterns. -/
def seqs : List Pattern → Pattern
  | [] => fun s => [s]
  | p :: ps => seq p (seqs ps)

/-- A choice of patterns. -/
def alts : List Pattern → Pattern
  | [] => fun _ => []
  | p :: ps => alt p (alts ps)

/-- One or more repetitions of a pattern that always consumes a character; `fuel` bounds the
number of repetitions. -/
def repeat1 (a : Pattern) : Nat → Pattern
  | 0 => fun _ => []
  | fuel + 1 => fun s => (a s).flatMap fun r => r :: repeat1 a fuel r

/-- Whether a pattern matches the whole of a text. -/
def fullMatch (a : Pattern) (s : List Char) : Bool :=
  (a s).any List.isEmpty

end Pattern

end Ingest.Text
