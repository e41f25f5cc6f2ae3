import CodeAudit.Text.Find

/-!
# Lines

A line ends at a line feed, and a carriage return just before the feed belongs to the ending. The
last line may lack its feed; then nothing is taken off it, and it counts only if it is not empty.
-/

namespace CodeAudit.Text

/-- The reversed line without a carriage return at its end. -/
def dropReturn : List Char → List Char
  | '\r' :: line => line
  | line => line

/-- Lines of a text, where `line` holds the characters read of the current one, last first. -/
def linesFrom (line : List Char) : List Char → List (List Char)
  | [] => if line.isEmpty then [] else [line.reverse]
  | c :: rest =>
    if c = '\n' then (dropReturn line).reverse :: linesFrom [] rest
    else linesFrom (c :: line) rest

/-- The lines of a text without their endings. -/
def lines (text : List Char) : List (List Char) :=
  linesFrom [] text

/-- The line without one carriage return at its end. -/
def chopReturn (line : List Char) : List Char :=
  (dropReturn line.reverse).reverse

/-- The line without any carriage returns at its end. -/
def chopReturns (line : List Char) : List Char :=
  (line.reverse.dropWhile (· = '\r')).reverse

/-- Width of the leading white space, where a tab counts as four columns (`indent_width`). -/
def indentWidth (line : List Char) : Nat :=
  (line.takeWhile isBlank).foldr (fun c width => (if c = '\t' then 4 else 1) + width) 0

end CodeAudit.Text
