import CodeAudit.Text.Bytes
import CodeAudit.Text.Find

/-!
# Template comments

In a template everything from two opening braces and two dashes to two dashes and two closing
braces is comment, over any number of lines. Comments are blanked, a space for each byte, so that
offsets stay.
-/

namespace CodeAudit.Source

open Text

/-- The marker that opens a template comment. -/
def templateOpener : List Char := "\x7b\x7b--".toList

/-- The marker that closes a template comment. -/
def templateCloser : List Char := "--\x7d\x7d".toList

/-- The marker that ends the present state: the closer inside of a comment, the opener outside. -/
def templateMarker : Bool → List Char
  | true => templateCloser
  | false => templateOpener

theorem length_templateMarker (inComment : Bool) : (templateMarker inComment).length = 4 := by
  cases inComment <;> rfl

/-- As many spaces as the text has bytes. -/
def blanked (text : List Char) : List Char :=
  List.replicate (byteLength text) ' '

/-- A line with its comments blanked, and whether it ends inside of one. -/
def blankComments (inComment : Bool) (line : List Char) : List Char × Bool :=
  match _h : cut? (templateMarker inComment) line with
  | none => (if inComment then blanked line else line, inComment)
  | some (before, rest) =>
    let tail := blankComments (!inComment) rest
    ((if inComment then blanked before else before) ++ List.replicate 4 ' ' ++ tail.1, tail.2)
termination_by line.length
decreasing_by
  have := length_cut? _h
  have := length_templateMarker inComment
  omega

/-- Lines with their comments blanked, where the first begins inside of one or not. -/
def blankTemplateFrom (inComment : Bool) : List (List Char) → List (List Char)
  | [] => []
  | line :: rest =>
    let result := blankComments inComment line
    result.1 :: blankTemplateFrom result.2 rest

/-- The lines of a template with comments blanked (`strip_blade_comments`). -/
def blankTemplateComments (lines : List (List Char)) : List (List Char) :=
  blankTemplateFrom false lines

end CodeAudit.Source
