import CodeAudit.Check.Subject
import CodeAudit.Pattern.Build
import CodeAudit.Pattern.Search

/-!
# Assignments

Assignments to local variables, as the checks of names and of unused variables read them.
-/

namespace CodeAudit

namespace Check

open Text

section Patterns

open Pattern

/-- A variable, named as group one, with an assignment sign behind it (`ASSIGN_RE`). -/
def assignmentPattern : Pattern :=
  char '$' ++ group 1 (one (fun c => c.isAlpha || c == '_') ++ many word) ++ blanks ++ char '=' ++
    (noneOf "=>" <|> textEnd)

/-- The start of a property declaration (`PROPERTY_RE`). -/
def propertyStart : Pattern :=
  textStart ++ blanks ++ lits ["public", "protected", "private", "var"] ++ wordEdge

end Patterns

/-- Does the line declare a property or a function (`is_declaration_line`)? It then assigns
    defaults, not locals. -/
def isDeclarationLine (line : List Char) : Bool :=
  propertyStart.isIn line || mentions "function" line

/-- An assignment to a local variable. -/
structure Assignment where
  row : Nat
  /-- The name of the variable without its sign. -/
  name : List Char
  /-- What the line says after the assignment sign. -/
  value : List Char

namespace Assignment

/-- What a line says after the name that ends at byte `offset` and the assignment sign. -/
def valueAfter (line : List Char) (offset : Nat) : List Char :=
  match trimStart ((dropBytes? offset line).getD []) with
  | '=' :: value => value
  | value => value

/-- The assignments of a line. Strings and comments do not count. -/
def ofLine (line : SourceLine) : List Assignment :=
  if isDeclarationLine line.text then []
  else
    (assignmentPattern.findAll line.bare).filterMap fun found => do
      let name ← found.group? 1
      return ⟨line.row, name.text, valueAfter line.text name.stop⟩

end Assignment

end Check

/-- The assignments to local variables in a file. -/
def Subject.assignments (s : Subject) : List Check.Assignment :=
  s.codeLines.flatMap Check.Assignment.ofLine

end CodeAudit
