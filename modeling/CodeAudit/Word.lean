/-!
# Words

Numbers that are kept in words have bounds. A natural number fits in a word of `n` bits if it is
below `2 ^ n`; half of that bounds the numbers with a sign.
-/

namespace CodeAudit.Word

/-- Natural numbers of 8 bits are below this number. -/
def bound8 : Nat := 0x100

/-- Natural numbers of 32 bits are below this number. -/
def bound32 : Nat := 0x100000000

/-- Numbers of 64 bits with a sign are below this number, and not below its negative. -/
def bound63 : Nat := 0x8000000000000000

/-- Natural numbers of 64 bits are below this number. -/
def bound64 : Nat := 0x10000000000000000

/-- A number that is kept in a word with a bound: none if it does not fit. -/
def fit? (bound value : Nat) : Option Nat :=
  if value < bound then some value else none

end CodeAudit.Word
