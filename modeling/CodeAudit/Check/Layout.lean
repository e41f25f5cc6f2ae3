import CodeAudit.Check.Subject

/-!
# Layout

Long lines, blanks at the end of a line, and indentation that mixes tabs and spaces.
-/

namespace CodeAudit.Check.Layout

open Text

/-- The longest line that is accepted, in characters (`MAX_LINE_LENGTH`). -/
def maxLineLength : Nat := 120

/-- A line that is too long (`check_length`). -/
def longLine (s : Subject) (line : SourceLine) : List Issue :=
  let length := line.text.length
  if length ≤ maxLineLength then []
  else
    [(s.report .quality "long_line" .info line.row "Line too long"
      ("Line is " ++ toString length ++ " characters long (limit " ++ toString maxLineLength ++
        ")")
      "Break the statement across several lines").withMetadata "length" (.nat length)]

/-- A line that ends in blanks or tabs (`check_trailing`). -/
def trailingBlanks (s : Subject) (line : SourceLine) : List Issue :=
  if line.text.getLast?.any fun c => c == ' ' || c == '\t' then
    [s.report .quality "trailing_whitespace" .info line.row "Trailing whitespace"
      "Line ends with spaces or tabs" "Configure your editor to trim trailing whitespace"]
  else []

/-- The white space in front of a line. The blank that aligns the star of a comment block does not
    count. -/
def margin (text : List Char) : List Char :=
  let leading := text.takeWhile isBlank
  if beginsWith "*" (trimStart text) && leading.getLast? == some ' ' then leading.dropLast
  else leading

/-- A line whose margin has both tabs and blanks (`check_indentation`). -/
def mixedMargin (s : Subject) (line : SourceLine) : List Issue :=
  let leading := margin line.text
  if leading.contains ' ' && leading.contains '\t' then
    [s.report .quality "mixed_indentation" .low line.row "Mixed indentation"
      "Leading whitespace mixes tabs and spaces" "Indent with four spaces (PSR-12)"]
  else []

/-- Findings about the layout of the lines. -/
def run (s : Subject) : List Issue :=
  s.lines.flatMap fun line => longLine s line ++ trailingBlanks s line ++ mixedMargin s line

/-- The check of layout (`CodingStandards`). -/
def check : Check := .ofPhp "coding_standards" run

end CodeAudit.Check.Layout
