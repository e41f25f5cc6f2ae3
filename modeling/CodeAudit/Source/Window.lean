import CodeAudit.Text.Line
import CodeAudit.Word

/-!
# Context windows

Every finding carries the lines around it, numbered from one.
-/

namespace CodeAudit.Source

open Text

/-- Lines from `line - radius` to `line + radius`, clamped to the file, with their numbers. A line
    number outside of the file counts as its nearest line. -/
def window (lines : List (List Char)) (line radius : Nat) : List (Nat × List Char) :=
  if lines.isEmpty then []
  else
    let centre := min (max line 1) lines.length
    let first := max (centre - radius) 1
    let last := min (centre + radius) lines.length
    ((lines.drop (first - 1)).take (last + 1 - first)).zipIdx first |>.map fun entry =>
      (entry.2, chopReturns entry.1)

/-- The window, where numbers of lines are kept in words of 64 bits: none if the number of the last
    line does not fit before it is clamped. -/
def window? (lines : List (List Char)) (line radius : Nat) : Option (List (Nat × List Char)) :=
  if lines.isEmpty then some []
  else do
    let _ ← Word.fit? Word.bound64 (min (max line 1) lines.length + radius)
    return window lines line radius

end CodeAudit.Source
