import CodeAudit.Check.QueryScope
import CodeAudit.Check.Subject
import CodeAudit.Pattern.Build
import CodeAudit.Pattern.Search
import CodeAudit.Source.TemplateComment

/-!
# Output of templates

Output that is not escaped, program text and queries in templates, old braces, and inline styles.
Templates are read line by line, with their comments blanked.
-/

namespace CodeAudit

open Text Source

/-- The lines of a template without its comments, with their numbers. -/
def Subject.templateLines (s : Subject) : List (Nat × List Char) :=
  ((blankTemplateComments s.texts).zipIdx 1).map fun entry => (entry.2, entry.1)

namespace Check.TemplateOutput

section Patterns

open Pattern

/-- Output that is not escaped, with its expression as group one (`UNESCAPED_RE`). -/
def rawOutput : Pattern :=
  lit "\x7b!!" ++ blanks ++ group 1 (few any) ++ blanks ++ lit "!!\x7d"

/-- The start of program text (`RAW_PHP_RE`). -/
def programText : Pattern :=
  lit "<?php" ++ wordEdge <|>
    (textStart <|> one fun c => !(c == '@' || isWord c)) ++ lit "@php" ++ wordEdge

/-- A static call: class and method as groups one and two (`STATIC_CALL_RE`). -/
def staticCall : Pattern :=
  group 1 (many1 (one fun c => c == '\\' || isWord c)) ++ lit "::" ++ group 2 (many1 word) ++
    blanks ++ char '('

/-- The start of an inline style (`INLINE_STYLE_RE`). -/
def inlineStyle : Pattern :=
  wordEdge ++ anyCase "style" ++ blanks ++ char '=' ++ blanks ++ oneOf "\"'"

end Patterns

/-- Calls whose raw output is markup of the framework (`SAFE_RAW_HELPERS`). -/
def safeCalls : List String := ["csrf_field(", "method_field("]

/-- Static methods that run a query when a template calls them (`VIEW_QUERY_METHODS`). -/
def queryMethods : List String :=
  ["all", "find", "findOrFail", "where", "whereIn", "first", "get", "count", "pluck", "query",
    "with", "latest", "oldest", "paginate", "select", "table"]

/-- Output that is not escaped (`check_unescaped`). -/
def unescaped (s : Subject) (row : Nat) (line : List Char) : List Issue :=
  let found := ((rawOutput.findAll line).map (·.text 1)).find? fun expression =>
    !(safeCalls.any fun call => beginsWith call expression)
  match found with
  | none => []
  | some expression =>
    let shown := String.ofList expression
    [(s.report .template "unescaped_output" .high row "Unescaped output"
      ("\x7b!! " ++ shown ++ " !!\x7d prints without HTML escaping")
      "Use \x7b\x7b \x7d\x7d unless the value is sanitized markup").withMetadata "expression"
      (.str shown)]

/-- Program text in a template. -/
def embedded (s : Subject) (row : Nat) (line : List Char) : List Issue :=
  if programText.isIn line then
    [s.report .template "raw_php" .low row "Raw PHP in template" "The template embeds a PHP block"
      "Compute the value in the controller or a view composer"]
  else []

/-- Does the call run a query? -/
def runsQuery (call : Match) : Bool :=
  call.text 1 == "DB".toList ||
    (isQueryScope (call.text 1) && queryMethods.contains (String.ofList (call.text 2)))

/-- A query in a template (`check_query`). -/
def query (s : Subject) (row : Nat) (line : List Char) : List Issue :=
  match (staticCall.findAll line).find? runsQuery with
  | none => []
  | some call =>
    [s.report .template "query_in_view" .medium row "Query in view"
      ("`" ++ String.ofList (call.text 1) ++ "::" ++ String.ofList (call.text 2) ++
        "()` runs a database query while rendering")
      "Load the data in the controller and pass it to the view"]

/-- Output in triple braces. -/
def tripleBraces (s : Subject) (row : Nat) (line : List Char) : List Issue :=
  if mentions "\x7b\x7b\x7b" line then
    [s.report .template "deprecated_triple_braces" .low row "Triple-brace echo"
      "\x7b\x7b\x7b \x7d\x7d\x7d was removed from Blade"
      "Use \x7b\x7b \x7d\x7d, which escapes by default"]
  else []

/-- An inline style. -/
def style (s : Subject) (row : Nat) (line : List Char) : List Issue :=
  if inlineStyle.isIn line then
    [s.report .template "inline_style" .info row "Inline style"
      "Styling is hard-coded on the element"
      "Move the rules into a stylesheet or utility classes"]
  else []

/-- Findings about the output of a template. -/
def run (s : Subject) : List Issue :=
  s.templateLines.flatMap fun (row, line) =>
    unescaped s row line ++ embedded s row line ++ query s row line ++ tripleBraces s row line ++
      style s row line

/-- The check of output (`Output`). -/
def check : Check := .ofBlade "output" run

end Check.TemplateOutput

end CodeAudit
