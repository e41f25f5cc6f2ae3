import CodeAudit.Scan.Session

/-!
# Analysis of a file

A file is read and parsed, and the suites of the requested categories look at it. A file that cannot
be read, that has a syntax error, or on which a suite breaks off gives an issue of its own; no file
makes a scan fail.
-/

namespace CodeAudit

open Text

/-- What became of a file. -/
structure FileOutcome where
  issues : List Issue
  lines : Nat := 0
  bytes : Nat := 0
  /-- Could the file not be read, or did a suite break off on it? -/
  failed : Bool := false

/-- What the file adds to the throughput of a scan (`Throughput::add`). -/
def FileOutcome.throughput (o : FileOutcome) : Throughput where
  lines := o.lines
  bytes := o.bytes
  filesFailed := if o.failed then 1 else 0

namespace Category

/-- The known categories of a request, of which there must be one (`Category::resolve`). -/
def resolve (requested : List String) : Except ScanError (List Category) :=
  match resolve? requested with
  | none => .error (.noValidCategories requested)
  | some categories => .ok categories

/-- The category of issues about files as such (`diagnostic_category`). -/
def diagnostic (categories : List Category) : Category :=
  if categories.contains quality then quality else categories.head?.getD quality

end Category

/-- The issue of a file that cannot be analysed (`scan_error`). -/
def Issue.scanError (category : Category) (path message : String) : Issue :=
  let issue := make category "scan_error" .low path 1
  { issue with
    title := "File could not be scanned"
    description := message
    suggestion := "Check the file permissions and encoding" }.withMetadata "error" (.str message)

/-- The issue of a file with a syntax error. -/
def Issue.parseError (category : Category) (path : String) (failure : ParseFailure) : Issue :=
  let issue := make category "parse_error" .low path 1
  { issue with
    title := "Parse error"
    description := failure.message
    suggestion := "Fix the syntax error; tree-based rules were skipped for this file"
    }.withMetadata "error" (.str failure.message) |>.withMetadata "line" (.nat failure.line)

/-- What is said about a suite that breaks off. -/
def Category.failureText (category : Category) (reason : String) : String :=
  "The " ++ category.name ++ " rules failed on this file: " ++ reason

namespace Session

/-- What is said about numbers of lines that do not fit. -/
def overflowText : String := "attempt to add with overflow"

/-- What the suite of a category finds, or why it breaks off. A suite that does not read the kind of
    the file is not run. -/
def examine (s : Session) (subject : Subject) (category : Category) :
    Except String (List Issue) :=
  if category.appliesTo subject.kind then
    match s.breaksOff category subject with
    | some reason => .error reason
    | none =>
      match category.findings? subject with
      | none => .error overflowText
      | some issues => .ok issues
  else .ok []

/-- The issues that the suite of a category gives, one issue if it breaks off. -/
def suiteIssues (s : Session) (categories : List Category) (subject : Subject)
    (category : Category) : List Issue :=
  match s.examine subject category with
  | .ok issues => issues
  | .error reason =>
    [Issue.scanError (Category.diagnostic categories) subject.path (category.failureText reason)]

/-- The issues of a parsed file, those of disabled rules among them. -/
def issuesOf (s : Session) (categories : List Category) (source : ParsedSource)
    (subject : Subject) : List Issue :=
  let diagnosed :=
    match source.failure with
    | none => []
    | some failure => [Issue.parseError (Category.diagnostic categories) subject.path failure]
  diagnosed ++ categories.flatMap (s.suiteIssues categories subject)

/-- Analyses a file (`analyze_file`). -/
def analyzeFile (s : Session) (categories : List Category) (path : String) : FileOutcome :=
  match s.load path with
  | .error e =>
    { issues :=
        [Issue.scanError (Category.diagnostic categories) path ("Could not read file: " ++ e)]
      failed := true }
  | .ok content =>
    let source := ParsedSource.parse s.grammar path content
    let subject :=
      Subject.ofSource path source (Role.classify path content) s.settings.scan.contextRadius
    { issues := (s.issuesOf categories source subject).filter fun issue =>
        !s.settings.rules.isDisabled issue.ruleId
      lines := (lines content).length
      bytes := byteLength content
      failed := categories.any fun category => !(s.examine subject category).isOk }

end Session

end CodeAudit
