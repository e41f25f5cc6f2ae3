import CodeAudit.Source.Quoting
import CodeAudit.Text.Find

/-!
# Comments

A comment starts at `//`, at `/*`, or at `#` unless `#[` opens an attribute, and never inside a
quoted string. `codePart` is what a line holds before its comment. `commentMask` marks the lines
that are taken to be comment as a whole: those that begin inside a block comment, and those whose
first visible characters open a comment or continue a documentation block.
-/

namespace CodeAudit.Source

open Text

/-- Do the characters open a comment? -/
def opensComment : List Char → Bool
  | '/' :: '/' :: _ => true
  | '/' :: '*' :: _ => true
  | '#' :: '[' :: _ => false
  | '#' :: _ => true
  | _ => false

/-- Byte offset of the first comment opener in a blanked line that starts at byte `offset`. -/
def openerFrom (offset : Nat) : List Char → Option Nat
  | [] => none
  | c :: rest =>
    if opensComment (c :: rest) then some offset else openerFrom (offset + c.utf8Size) rest

/-- Byte offset at which the comment of a line starts (`comment_start`). -/
def commentStart? (line : List Char) : Option Nat :=
  openerFrom 0 (blankStrings line)

/-- The line without its comment (`code_portion`). -/
def codePart (line : List Char) : List Char :=
  match commentStart? line with
  | none => line
  | some n => (takeBytes? n line).getD line

/-- The comment of a line (`comment_portion`). -/
def commentPart? (line : List Char) : Option (List Char) :=
  (commentStart? line).bind (dropBytes? · line)

/-- The code of a line with the contents of strings blanked. -/
def bareCode (line : List Char) : List Char :=
  blankStrings (codePart line)

/-- What follows the `/*` of a line, if that is how its comment starts. -/
def afterBlockOpener? (line : List Char) : Option (List Char) :=
  match commentPart? line with
  | some ('/' :: '*' :: rest) => some rest
  | _ => none

theorem length_afterBlockOpener? {line rest : List Char} (h : afterBlockOpener? line = some rest) :
    rest.length < line.length := by
  unfold afterBlockOpener? at h
  split at h
  · rename_i r hr
    obtain ⟨n, -, hn⟩ := Option.bind_eq_some_iff.mp hr
    have := length_dropBytes?_le hn
    simp only [Option.some.injEq] at h
    subst h
    simp only [List.length_cons] at this
    omega
  · simp at h

/-- Does a line that begins inside a block comment, or outside of one, end inside of one
    (`block_state_after`)? -/
def endsInBlock (inBlock : Bool) (line : List Char) : Bool :=
  if inBlock then
    match _h : cut? ['*', '/'] line with
    | none => true
    | some (_, rest) => endsInBlock false rest
  else
    match _h : afterBlockOpener? line with
    | none => false
    | some rest => endsInBlock true rest
termination_by line.length
decreasing_by
  · have := length_cut? _h
    simp only [List.length_cons, List.length_nil] at this
    omega
  · exact length_afterBlockOpener? _h

/-- Is a line whose first visible character is the head of `shown` comment by its looks? -/
def looksLikeComment (shown : List Char) : Bool :=
  beginsWith "//" shown || beginsWith "/*" shown || beginsWith "*" shown ||
    (beginsWith "#" shown && !beginsWith "#[" shown)

/-- Marks the comment lines of a text that begins inside a block comment, or outside of one. -/
def maskFrom (inBlock : Bool) : List (List Char) → List Bool
  | [] => []
  | line :: rest =>
    (inBlock || looksLikeComment (trimStart line)) :: maskFrom (endsInBlock inBlock line) rest

/-- Marks the lines that are comment as a whole (`comment_mask`). -/
def commentMask (lines : List (List Char)) : List Bool :=
  maskFrom false lines

/-- Is a name at byte `offset` of a line called as a plain function (`is_bare_call`)? It is not if
    the character before it makes it a method, a static member, a variable or part of a longer
    name. -/
def isBareCall (line : List Char) (offset : Nat) : Bool :=
  !(charBefore? line offset).any fun c =>
    isLetterOrDigit c || c == '_' || c == '>' || c == ':' || c == '$' || c == '\\'

end CodeAudit.Source
