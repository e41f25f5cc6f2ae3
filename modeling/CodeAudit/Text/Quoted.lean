import CodeAudit.Text.Mark
import CodeAudit.Text.Unprintable

/-!
# Quoted texts

Texts in quotes for messages. Quotes and backslashes are escaped, and so are characters that do not
show: marks that join the character before them, characters that are shown as nothing, and
everything unprintable but the blank.
-/

namespace CodeAudit.Text

/-- The hexadecimal digits of a number. -/
def hexDigits (n : Nat) : List Char :=
  Nat.toDigits 16 n

/-- Does a character not show by itself? -/
def isHidden (c : Char) : Bool :=
  graphemeExtenders.contains c.toNat || ignorable.contains c.toNat ||
    (c != ' ' && unprintable.contains c.toNat)

/-- The escaped form of a character. -/
def escapeShown (c : Char) : List Char :=
  match c with
  | '"' => "\\\"".toList
  | '\\' => "\\\\".toList
  | '\n' => "\\n".toList
  | '\r' => "\\r".toList
  | '\t' => "\\t".toList
  | '\x00' => "\\0".toList
  | c => if isHidden c then "\\u\x7b".toList ++ hexDigits c.toNat ++ ['\x7d'] else [c]

/-- A text in quotes. -/
def quoted (s : String) : String :=
  "\"" ++ String.ofList (s.toList.flatMap escapeShown) ++ "\""

/-- A list of texts in quotes. -/
def quoteList (items : List String) : String :=
  "[" ++ String.intercalate ", " (items.map quoted) ++ "]"

end CodeAudit.Text
