import CodeAudit.Pattern.Basic

/-!
# Writing patterns

Words, classes and repetitions from which the checks compose their patterns. `p ++ q` is sequence
and `p <|> q` ordered choice.
-/

namespace CodeAudit

open Text

namespace Pattern

instance : Append Pattern := ⟨seq⟩

instance : OrElse Pattern := ⟨fun p q => choice p (q ())⟩

/-- The character itself. -/
def char (c : Char) : Pattern := one (· == c)

/-- The characters of a list in a row. -/
def ofChars : List Char → Pattern
  | [] => empty
  | [c] => char c
  | c :: rest => char c ++ ofChars rest

/-- The characters of a list in a row, where case is ignored. -/
def ofFoldedChars : List Char → Pattern
  | [] => empty
  | [c] => one (foldCase · == c)
  | c :: rest => one (foldCase · == c) ++ ofFoldedChars rest

/-- The word itself. -/
def lit (word : String) : Pattern := ofChars word.toList

/-- The word, given in small letters, where case is ignored. -/
def anyCase (word : String) : Pattern := ofFoldedChars word.toList

/-- One of the characters of the word. -/
def oneOf (chars : String) : Pattern := one (chars.toList.contains ·)

/-- One character other than those of the word. -/
def noneOf (chars : String) : Pattern := one (!chars.toList.contains ·)

/-- A word character. -/
def word : Pattern := one isWord

/-- A decimal digit. -/
def digit : Pattern := one isDecimal

/-- A white-space character. -/
def blank : Pattern := one isBlank

/-- Any character but a line feed. -/
def any : Pattern := one (· != '\n')

/-- Any number of rounds, as many as possible. -/
def many (p : Pattern) : Pattern := repeated true p

/-- At least one round, as many as possible. -/
def many1 (p : Pattern) : Pattern := p ++ repeated true p

/-- Any number of rounds, as few as possible. -/
def few (p : Pattern) : Pattern := repeated false p

/-- The pattern or nothing, preferring the pattern. -/
def opt (p : Pattern) : Pattern := choice p empty

/-- Exactly `n` rounds. -/
def times (p : Pattern) : Nat → Pattern
  | 0 => empty
  | 1 => p
  | n + 1 => p ++ times p n

/-- White space, possibly none. -/
def blanks : Pattern := many blank

/-- White space, at least one character. -/
def blanks1 : Pattern := many1 blank

/-- The first pattern of a list that leads to a match; the empty list never matches. -/
def first : List Pattern → Pattern
  | [] => one fun _ => false
  | [p] => p
  | p :: rest => choice p (first rest)

/-- One of the words, earlier ones preferred. -/
def lits (words : List String) : Pattern := first (words.map lit)

/-- One of the words, given in small letters, where case is ignored. -/
def anyCases (words : List String) : Pattern := first (words.map anyCase)

end Pattern

end CodeAudit
