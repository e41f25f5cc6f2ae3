import CodeAudit.Check.Subject
import CodeAudit.Pattern.Build
import CodeAudit.Pattern.Search

/-!
# Documentation

Classes and public methods without a documentation block, and work notes that were left behind.
-/

namespace CodeAudit.Check.Documentation

open Text Source

section Patterns

open Pattern

/-- Words that may stand in front of a class, with the white space after them. -/
def classModifiers : Pattern :=
  many (lits ["abstract", "final", "readonly"] ++ blanks1)

/-- The head of a class or of something like it: its sort and its name as groups one and two
    (`CLASS_RE`). -/
def classHead : Pattern :=
  textStart ++ blanks ++ classModifiers ++ group 1 (lits ["class", "interface", "trait", "enum"]) ++
    blanks1 ++ group 2 (many1 word)

/-- The head of a method: margin, modifiers and name as groups one to three (`METHOD_RE`). -/
def methodHead : Pattern :=
  textStart ++ group 1 blanks ++
    group 2 (many (lits ["public", "protected", "private", "static", "final", "abstract"] ++
      blanks1)) ++
    lit "function" ++ blanks1 ++ opt (char '&') ++ blanks ++ group 3 (many1 word) ++ blanks ++
    char '('

/-- A note about work that is left to do, as group one (`MARKER_RE`). -/
def workNote : Pattern :=
  wordEdge ++ group 1 (lits ["TODO", "FIXME", "HACK", "XXX"]) ++ wordEdge

end Patterns

/-! ## Documentation blocks -/

/-- How far up a documentation block is looked for (`LOOK_BACK`). -/
def lookBack : Nat := 5

/-- Does one of the lines, given from the bottom up, open a documentation block before another
    statement or block ends? -/
def opensAbove : List (List Char) → Bool
  | [] => false
  | line :: rest =>
    let shown := trim line
    if beginsWith "/**" shown then true
    else if endsWith ";" shown || endsWith "\x7d" shown || endsWith "\x7b" shown then false
    else opensAbove rest

/-- Does a documentation block stand above a declaration (`has_docblock`)? The lines above it are
    given from the bottom up. If the nearest one that is neither blank nor an attribute ends a
    comment, that comment decides; otherwise a few lines up to the previous statement are
    searched. -/
def hasDocBlock (above : List (List Char)) : Bool :=
  let skipped (line : List Char) : Bool := isBlankLine line || beginsWith "#[" (trim line)
  match above.dropWhile skipped with
  | [] => false
  | nearest :: further =>
    if endsWith "*/" (trimEnd nearest) then
      match (nearest :: further).find? (mentions "/*") with
      | some opener => mentions "/**" opener
      | none => false
    else opensAbove (above.take lookBack)

/-- The lines above a line, from the bottom up. -/
def linesAbove (s : Subject) (line : SourceLine) : List (List Char) :=
  (s.texts.take (line.row - 1)).reverse

/-- A class without documentation (`check_class`). -/
def undocumentedClass (s : Subject) (line : SourceLine) : List Issue :=
  match classHead.find? line.text with
  | none => []
  | some head =>
    if hasDocBlock (linesAbove s line) then []
    else
      [s.report .quality "missing_class_doc" .low line.row "Missing class documentation"
        (String.ofList (head.text 1) ++ " '" ++ String.ofList (head.text 2) ++
          "' has no docblock")
        "Add a /** ... */ block describing the class's responsibility"]

/-- Is a method with this margin and these modifiers public (`is_public_method`)? It says so itself,
    or it stands in a class, which the margin shows, and says nothing. -/
def isPublicMethod (margin modifiers : List Char) : Bool :=
  mentions "public" modifiers ||
    (!(mentions "protected" modifiers || mentions "private" modifiers) && !margin.isEmpty)

/-- A public method without documentation (`check_method`). -/
def undocumentedMethod (s : Subject) (line : SourceLine) : List Issue :=
  match methodHead.find? line.text with
  | none => []
  | some head =>
    if !isPublicMethod (head.text 1) (head.text 2) || hasDocBlock (linesAbove s line) then []
    else
      [s.report .quality "missing_method_doc" .low line.row "Missing method documentation"
        ("Public method '" ++ String.ofList (head.text 3) ++ "' has no docblock")
        "Document parameters, return value and side effects"]

/-! ## Work notes -/

/-- The comment of a line, which is all of it when it is comment as a whole. -/
def commentOf? (line : SourceLine) : Option (List Char) :=
  if line.isComment then some line.text else commentPart? line.text

/-- A work note in the comment of a line (`check_markers`). -/
def leftNote? (s : Subject) (line : SourceLine) : Option Issue := do
  let comment ← commentOf? line
  let note ← workNote.find? comment
  let marker := String.ofList (note.text 1)
  let rest := trim ((dropBytes? note.whole.start comment).getD [])
  return (s.report .quality "todo_comment" .info line.row (marker ++ " comment")
    ("Unresolved marker: " ++ String.ofList rest)
    "Resolve the note or move it to the issue tracker").withMetadata "marker" (.str marker)

/-- Findings about documentation. -/
def run (s : Subject) : List Issue :=
  (s.codeLines.flatMap fun line => undocumentedClass s line ++ undocumentedMethod s line) ++
    s.lines.filterMap (leftNote? s)

/-- The check of documentation (`Documentation`). -/
def check : Check := .ofPhp "documentation" run

end CodeAudit.Check.Documentation
