import CodeAudit.Issue
import CodeAudit.Source.Comment
import CodeAudit.Source.Parsed
import CodeAudit.Source.Role
import CodeAudit.Source.Window

/-!
# What a check sees

A check reads one file: its lines with their numbers and whether they are comment, its text, its
tree if it has one, and its role. It reports issues, each under a category, a name and a severity
that the check gives itself, with a window of lines around it. What a check cannot read yields
nothing. Its only way to break off is a window whose last line has no number in words of 64 bits.
-/

namespace CodeAudit

open Text Source SyntaxTree

/-- A line of a file, numbered from one. -/
structure SourceLine where
  row : Nat
  text : List Char
  /-- Is the line comment as a whole? -/
  isComment : Bool

namespace SourceLine

/-- The line without its comment. -/
def code (line : SourceLine) : List Char := codePart line.text

/-- The line without its comment, with the contents of strings blanked. -/
def bare (line : SourceLine) : List Char := bareCode line.text

end SourceLine

/-- Everything that a check may look at for one file (`RuleContext`). The requested categories,
    which stand there too, are left out: no check reads them. -/
structure Subject where
  path : String
  kind : SourceKind
  role : Role
  content : List Char
  tree : Option Node
  /-- The lines of the file, without line ends. -/
  texts : List (List Char)
  /-- The lines of the file with their numbers and marks. -/
  lines : List SourceLine
  /-- How many lines of context an issue shows on either side. -/
  radius : Nat

namespace Subject

/-- How many lines of context are shown unless something else is asked for (`DEFAULT_RADIUS`). -/
def defaultRadius : Nat := 3

/-- Numbers the lines of a text and marks those that are comment. -/
def number (texts : List (List Char)) : List SourceLine :=
  ((texts.zip (commentMask texts)).zipIdx 1).map fun entry =>
    ⟨entry.2, entry.1.1, entry.1.2⟩

/-- The subject that a parsed file makes (`RuleContext::new`). -/
def ofSource (path : String) (source : ParsedSource) (role : Role) (radius : Nat) : Subject :=
  let texts := (Text.lines source.content).map chopReturn
  { path, role, radius, texts
    kind := source.kind
    content := source.content
    tree := source.tree
    lines := number texts }

/-- The lines that are not comment as a whole (`code_lines`). -/
def codeLines (s : Subject) : List SourceLine :=
  s.lines.filter (!·.isComment)

/-- An issue on a line, with the lines around it (`RuleContext::issue`). Every place that reports
    something names the category, the rule and the severity. Where the window does not fit, the run
    of the check breaks off (`carries`). -/
def report (s : Subject) (category : Category) (rule : String) (severity : Severity) (row : Nat)
    (title description suggestion : String) : Issue :=
  { Issue.make category rule severity s.path row with
    title, description, suggestion
    context := (window s.texts row s.radius).map fun entry => (entry.1, String.ofList entry.2) }

@[simp] theorem ruleName_report (s : Subject) (category : Category) (rule : String)
    (severity : Severity) (row : Nat) (title description suggestion : String) :
    (s.report category rule severity row title description suggestion).ruleName = rule := rfl

@[simp] theorem line_report (s : Subject) (category : Category) (rule : String)
    (severity : Severity) (row : Nat) (title description suggestion : String) :
    (s.report category rule severity row title description suggestion).line = max row 1 := rfl

/-- Do the windows of all issues fit in words of 64 bits? -/
def carries (s : Subject) (issues : List Issue) : Bool :=
  issues.all fun issue => (window? s.texts issue.line s.radius).isSome

end Subject

/-- The values of a list of pairs whose keys did not occur before. -/
def firstPerKey {κ α : Type} [BEq κ] (seen : List κ) : List (κ × α) → List α
  | [] => []
  | (key, value) :: rest =>
    if seen.contains key then firstPerKey seen rest
    else value :: firstPerKey (key :: seen) rest

/-- A check: its name, the kinds of source that it reads, and what it finds (`RuleEngine`). -/
structure Check where
  name : String
  appliesTo : SourceKind → Bool
  run : Subject → List Issue

namespace Check

/-- A check of program text. -/
def ofPhp (name : String) (run : Subject → List Issue) : Check :=
  ⟨name, (· == .php), run⟩

/-- A check of templates. -/
def ofBlade (name : String) (run : Subject → List Issue) : Check :=
  ⟨name, (· == .blade), run⟩

/-- The findings of those checks that read the kind of the subject, in the order of the checks
    (`run_all`). -/
def runAll (checks : List Check) (s : Subject) : List Issue :=
  (checks.filter (·.appliesTo s.kind)).flatMap (·.run s)

/-- The findings of checks, none if they break off: the window of an issue does not fit. -/
def runAll? (checks : List Check) (s : Subject) : Option (List Issue) :=
  let issues := runAll checks s
  if s.carries issues then some issues else none

end Check

end CodeAudit
