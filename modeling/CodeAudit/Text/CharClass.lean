import CodeAudit.Text.Age
import CodeAudit.Text.Alphabetic
import CodeAudit.Text.Mark
import CodeAudit.Text.Numeral

/-!
# Character classes

The classes that the checks speak of: white space, decimal digits, letters and digits, and the
characters of a word. Each is the Unicode class; on ASCII it is decided without a table. The digits
and word characters, which patterns are made of, leave out the youngest characters.

`foldCase` sends a character to the lower-case ASCII letter that it matches when case is ignored.
Besides the capital letters only two characters do so: the long s and the Kelvin sign.
-/

namespace CodeAudit.Text

/-- White space, the Unicode property `White_Space`. -/
def isBlank (c : Char) : Bool :=
  let n := c.toNat
  (9 ≤ n && n ≤ 13) || n == 0x20 || n == 0x85 || n == 0xA0 || n == 0x1680 ||
    (0x2000 ≤ n && n ≤ 0x200A) || n == 0x2028 || n == 0x2029 || n == 0x202F || n == 0x205F ||
    n == 0x3000

/-- A decimal digit of any script, as patterns know it. -/
def isDecimal (c : Char) : Bool :=
  if c.toNat < 128 then c.isDigit
  else decimalDigits.contains c.toNat && !youngest.contains c.toNat

/-- A letter or a numeral of any script. -/
def isLetterOrDigit (c : Char) : Bool :=
  if c.toNat < 128 then c.isAlphanum
  else
    alphabetic.contains c.toNat || decimalDigits.contains c.toNat ||
      otherNumerals.contains c.toNat

/-- A character of a word: a letter, a mark, a decimal digit, a connector such as the low line,
    or one of the two join controls, as patterns know it. -/
def isWord (c : Char) : Bool :=
  let n := c.toNat
  if n < 128 then c.isAlphanum || c == '_'
  else
    (alphabetic.contains n || decimalDigits.contains n || bareMarks.contains n ||
      n == 0x203F || n == 0x2040 || n == 0x2054 || n == 0xFE33 || n == 0xFE34 ||
      (0xFE4D ≤ n && n ≤ 0xFE4F) || n == 0xFF3F || n == 0x200C || n == 0x200D) &&
      !youngest.contains n

/-- The lower-case ASCII letter that a character matches when case is ignored, or the character
    itself. -/
def foldCase (c : Char) : Char :=
  if c == '\u017f' then 's' else if c == '\u212a' then 'k' else c.toLower

end CodeAudit.Text
