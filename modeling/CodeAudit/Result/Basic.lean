import CodeAudit.Error
import CodeAudit.Result.Summary

/-!
# Results of scans

A result holds the issues of a scan in the order in which they were found, their summary, and how
much was read.
-/

namespace CodeAudit

/-! ## Throughput -/

/-- How much was read, and how many files could not be. -/
structure Throughput where
  lines : Nat := 0
  bytes : Nat := 0
  filesFailed : Nat := 0
  deriving DecidableEq, Repr

/-- Two throughputs together (`Throughput::merge`). -/
def Throughput.merge (a b : Throughput) : Throughput where
  lines := a.lines + b.lines
  bytes := a.bytes + b.bytes
  filesFailed := a.filesFailed + b.filesFailed

/-! ## Statistics -/

/-- What is kept of a finished scan besides its issues. -/
structure ScanStatistics where
  filesScanned : Nat
  totalIssues : Nat
  qualityScore : Nat
  bySeverity : SeverityCounts
  lines : Nat
  bytes : Nat
  filesFailed : Nat
  durationMs : Nat
  deriving DecidableEq, Repr

namespace ScanStatistics

/-- The statistics as JSON. -/
def toJson (s : ScanStatistics) : Json :=
  .obj [("files_scanned", .nat s.filesScanned), ("total_issues", .nat s.totalIssues),
    ("quality_score", .nat s.qualityScore), ("issues_by_severity", s.bySeverity.toJson),
    ("lines_scanned", .nat s.lines), ("bytes_scanned", .nat s.bytes),
    ("files_failed", .nat s.filesFailed), ("duration_ms", .nat s.durationMs)]

/-- Reads statistics from JSON. The number of failed files may be missing. -/
def ofJson? (value : Json) : Option ScanStatistics := do
  let fields ← value.record?
    ["files_scanned", "total_issues", "quality_score", "issues_by_severity", "lines_scanned",
      "bytes_scanned", "files_failed", "duration_ms"]
  match fields with
  | [files, total, score, severity, lines, bytes, failed, duration] =>
    return {
      filesScanned := ← Json.required? Json.nat64? files
      totalIssues := ← Json.required? Json.nat64? total
      qualityScore := ← Json.required? (Json.natBelow? 256) score
      bySeverity := ← Json.required? SeverityCounts.ofJson? severity
      lines := ← Json.required? Json.nat64? lines
      bytes := ← Json.required? Json.nat64? bytes
      filesFailed := ← Json.optional? Json.nat64? 0 failed
      durationMs := ← Json.required? Json.nat64? duration }
  | _ => none

end ScanStatistics

/-! ## Results -/

/-- The outcome of a scan. -/
structure ScanResult where
  issues : List Issue
  groups : List FileGroup
  summary : Summary
  throughput : Throughput
  durationMs : Nat := 0

namespace ScanResult

/-- The result of the issues of a number of files (`ResultAggregator::build`). -/
def ofIssues (issues : List Issue) (filesScanned : Nat) (throughput : Throughput) :
    ScanResult where
  issues
  groups := FileGroup.ofIssues issues
  summary := Summary.ofIssues issues filesScanned
  throughput

/-- The result with the time that the scan took. -/
def lasting (r : ScanResult) (milliseconds : Nat) : ScanResult :=
  { r with durationMs := milliseconds }

/-- What is kept of the scan besides its issues (`ScanResult::statistics`). -/
def statistics (r : ScanResult) : ScanStatistics where
  filesScanned := r.summary.filesScanned
  totalIssues := r.summary.totalIssues
  qualityScore := r.summary.qualityScore
  bySeverity := r.summary.bySeverity
  lines := r.throughput.lines
  bytes := r.throughput.bytes
  filesFailed := r.throughput.filesFailed
  durationMs := r.durationMs

/-- The issues of a rule (`issues_for`). -/
def issuesFor (r : ScanResult) (ruleId : String) : List Issue :=
  r.issues.filter fun issue => issue.ruleId == ruleId

/-- The worst severity of an issue (`worst_severity`). -/
def worst? (r : ScanResult) : Option Severity :=
  r.issues.foldl
    (fun worst issue => some (match worst with
      | none => issue.severity
      | some severity => severity.worse issue.severity))
    none

/-- How a command that reports a result ends: the check fails if an issue is at least as bad as the
    threshold (`exit_for`). -/
def exit (r : ScanResult) (threshold : Option Severity) : Exit :=
  match threshold, r.worst? with
  | some threshold, some worst => if worst.atLeast threshold then .checkFailed else .success
  | _, _ => .success

/-- The result as JSON. -/
def toJson (r : ScanResult) : Json :=
  .obj [("issues", .arr (r.issues.map Issue.toJson)),
    ("grouped_issues", .arr (r.groups.map FileGroup.toJson)), ("summary", r.summary.toJson),
    ("lines_scanned", .nat r.throughput.lines), ("bytes_scanned", .nat r.throughput.bytes),
    ("files_failed", .nat r.throughput.filesFailed), ("duration_ms", .nat r.durationMs)]

end ScanResult

end CodeAudit
