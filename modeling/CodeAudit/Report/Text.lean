import CodeAudit.Report.Ink
import CodeAudit.Result.Basic

/-!
# Reports

Results as texts: a plain list with a line per issue, and a report for readers with the issues of
every file, their context if asked for, and the summary.
-/

namespace CodeAudit

/-! ## Issues by file -/

/-- The issues of one file in the order of their lines. -/
structure FileIssues where
  path : String
  issues : List Issue

/-- The issues by file, in the order of the first issue of each file (`issues_by_file`). Issues of
    one line keep their order. -/
def FileIssues.ofIssues (issues : List Issue) : List FileIssues :=
  (Issue.paths issues).map fun path =>
    { path, issues := (Issue.atPath issues path).mergeSort fun a b => a.line ≤ b.line }

namespace Report

/-! ## Durations -/

/-- The digits behind the point of a number of thousandths. -/
def thousandths (n : Nat) : List Char :=
  let digits := (Nat.toDigits 10 (1000 + n)).drop 1
  (digits.reverse.dropWhile (· == '0')).reverse

/-- A duration in milliseconds as text. -/
def duration (milliseconds : Nat) : String :=
  if milliseconds = 0 then "0ns"
  else if milliseconds < 1000 then toString milliseconds ++ "ms"
  else
    let seconds := toString (milliseconds / 1000)
    match thousandths (milliseconds % 1000) with
    | [] => seconds ++ "s"
    | digits => seconds ++ "." ++ String.ofList digits ++ "s"

/-! ## The plain list -/

/-- The line of an issue. -/
def plainLine (path : String) (issue : Issue) : String :=
  "FILE: " ++ path ++ " | RULE: " ++ issue.ruleId ++ " | SEVERITY: " ++ issue.severity.name ++
    " | LINE: " ++ toString issue.line ++ " | " ++ issue.title

/-- The lines of all issues, file by file. -/
def plainLines (r : ScanResult) : List String :=
  (FileIssues.ofIssues r.issues).flatMap fun file => file.issues.map (plainLine file.path)

/-- Lines as one text. -/
def unlines (lines : List String) : String :=
  String.join (lines.map (· ++ "\n"))

/-- The plain list (`format_report_string`). -/
def plain (r : ScanResult) : String :=
  unlines (plainLines r)

/-! ## The report for readers -/

/-- How a report is shown. -/
structure Style where
  colored : Bool := false
  /-- Are descriptions, context and suggestions shown? -/
  verbose : Bool := false

/-- The name of a severity in capitals, in its ink (`severity_tag`). -/
def severityTag (style : Style) (severity : Severity) : String :=
  let ink : Ink :=
    match severity with
    | .critical => { bold := true, reversed := true, color := some .red }
    | .high => { bold := true, color := some .red }
    | .medium => { color := some .yellow }
    | .low => { color := some .cyan }
    | .info => { dim := true }
  ink.paint style.colored (String.ofList (severity.name.toList.map Char.toUpper))

/-- The word, in the plural unless there is one. -/
def pluralize (word : String) (count : Nat) : String :=
  if count = 1 then word else word ++ "s"

/-- The lines around an issue (`print_context`). -/
def contextLines (style : Style) (issue : Issue) : List String :=
  let blue : Ink := { color := some .blue }
  if issue.context.isEmpty then []
  else
    ("          " ++ blue.paint style.colored "|") ::
      issue.context.map fun (number, text) =>
        let gutter := padLeft 4 (toString number) ++ " |"
        if number = issue.line then
          "     " ++ blue.paint style.colored gutter ++ " " ++ text
        else
          "     " ++ { blue with dim := true }.paint style.colored gutter ++ " " ++
            ({ dim := true } : Ink).paint style.colored text

/-- The lines of an issue (`print_issue`). -/
def issueLines (style : Style) (issue : Issue) : List String :=
  let place :=
    match issue.column with
    | none => toString issue.line
    | some column => toString issue.line ++ ":" ++ toString column
  let dim : Ink := { dim := true }
  let head :=
    "  " ++ ({ color := some .blue } : Ink).paint style.colored (padLeft 7 place) ++ " " ++
      severityTag style issue.severity ++ " " ++ issue.title ++ " " ++
      dim.paint style.colored ("[" ++ issue.ruleId ++ "]")
  if !style.verbose then [head]
  else
    [head] ++
    (if issue.description.isEmpty then []
      else ["          " ++ dim.paint style.colored issue.description]) ++
    contextLines style issue ++
    (if issue.suggestion.isEmpty then []
      else ["          " ++ ({ color := some .green } : Ink).paint style.colored "FIX:" ++ " " ++
        issue.suggestion])

/-- The lines of the issues of a file. -/
def fileLines (style : Style) (file : FileIssues) : List String :=
  [({ bold := true, underline := true } : Ink).paint style.colored file.path] ++
    file.issues.flatMap (issueLines style) ++ [""]

/-- The lines of the recommendations (`print_recommendations`). -/
def recommendationLines (style : Style) (summary : Summary) : List String :=
  summary.recommendations.map fun r =>
    let bullet :=
      match r.priority with
      | .high => ({ bold := true, color := some .red } : Ink).paint style.colored "!"
      | .medium => ({ color := some .yellow } : Ink).paint style.colored "*"
      | .low => ({ dim := true } : Ink).paint style.colored "-"
    "  " ++ bullet ++ " " ++ ({ bold := true } : Ink).paint style.colored r.title ++ ": " ++
      r.description

/-- The numbers of issues by severity, the worst first, without those that are none. -/
def countList (counts : SeverityCounts) : String :=
  let present := Severity.ranked.filter fun severity => 0 < counts.get severity
  String.intercalate ", " <| present.map fun severity =>
    toString (counts.get severity) ++ " " ++ severity.name

/-- The lines about issues in numbers. -/
def totalLines (style : Style) (elapsed : String) (r : ScanResult) : List String :=
  let summary := r.summary
  let files := summary.filesScanned
  let marker :=
    if 0 < summary.bySeverity.critical + summary.bySeverity.high then
      ({ bold := true, color := some .red } : Ink).paint style.colored "X"
    else ({ bold := true, color := some .yellow } : Ink).paint style.colored "~"
  let scoreColor : Color :=
    if 80 ≤ summary.qualityScore then .green
    else if 60 ≤ summary.qualityScore then .yellow
    else .red
  let score := toString summary.qualityScore ++ "/100"
  let failed := r.throughput.filesFailed
  [marker ++ " " ++ toString summary.totalIssues ++ " " ++
    pluralize "issue" summary.totalIssues ++ " in " ++ toString summary.affectedFiles ++ "/" ++
    toString files ++ " " ++ pluralize "file" files ++ " (" ++ countList summary.bySeverity ++
    ") in " ++ elapsed ++ "."] ++
  (if failed = 0 then []
    else ["  " ++ toString failed ++ " " ++ pluralize "file" failed ++
      " could not be analyzed"]) ++
  ["  Quality score: " ++ ({ color := some scoreColor } : Ink).paint style.colored score] ++
  (if summary.topCategories.isEmpty then []
    else ["  Top categories: " ++ String.intercalate ", " (summary.topCategories.map fun c =>
      c.category.name ++ " (" ++ toString c.count ++ ")")])

/-- The lines of the summary (`print_summary`). -/
def summaryLines (style : Style) (elapsed : String) (r : ScanResult) : List String :=
  let files := r.summary.filesScanned
  (if r.summary.totalIssues = 0 then
    [({ bold := true, color := some .green } : Ink).paint style.colored "OK" ++
      " No issues found in " ++ toString files ++ " " ++ pluralize "file" files ++ " (" ++
      elapsed ++ ")."]
    else totalLines style elapsed r) ++
  recommendationLines style r.summary

/-- The report for readers (`print_report`). -/
def full (style : Style) (elapsed : String) (r : ScanResult) : String :=
  unlines <|
    (FileIssues.ofIssues r.issues).flatMap (fileLines style) ++ summaryLines style elapsed r

end Report

end CodeAudit
