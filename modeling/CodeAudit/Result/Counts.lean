import CodeAudit.Issue
import CodeAudit.Json.Decode
import CodeAudit.Word

/-!
# Counts by severity

How many issues there are of each severity. The weighted sum is taken in words of 32 bits: the sum
stops at the largest word, and a single term that does not fit makes `weighted?` fail.
-/

namespace CodeAudit

/-- The number of issues of each severity. -/
structure SeverityCounts where
  critical : Nat := 0
  high : Nat := 0
  medium : Nat := 0
  low : Nat := 0
  info : Nat := 0
  deriving DecidableEq, Repr

namespace SeverityCounts

/-- Counts one more issue (`SeverityCounts::add`). -/
def add (c : SeverityCounts) : Severity → SeverityCounts
  | .critical => { c with critical := c.critical + 1 }
  | .high => { c with high := c.high + 1 }
  | .medium => { c with medium := c.medium + 1 }
  | .low => { c with low := c.low + 1 }
  | .info => { c with info := c.info + 1 }

/-- The number of issues of a severity (`SeverityCounts::get`). -/
def get (c : SeverityCounts) : Severity → Nat
  | .critical => c.critical
  | .high => c.high
  | .medium => c.medium
  | .low => c.low
  | .info => c.info

/-- Counts issues. -/
def ofIssues (issues : List Issue) : SeverityCounts :=
  issues.foldl (fun c issue => c.add issue.severity) {}

/-- The number of all issues (`SeverityCounts::total`). -/
def total (c : SeverityCounts) : Nat :=
  c.critical + c.high + c.medium + c.low + c.info

/-- The largest word of 32 bits. -/
def maxWord : Nat := Word.bound32 - 1

/-- The weight of the issues of a severity, if it fits in a word. Counts beyond a word are taken for
    the largest. -/
def weightOf? (c : SeverityCounts) (severity : Severity) : Option Nat :=
  let product := severity.weight * min (c.get severity) maxWord
  if product ≤ maxWord then some product else none

/-- The sum of the weights of all issues, at most the largest word (`SeverityCounts::weighted`).
    There is none if the weight of a severity does not fit. -/
def weighted? (c : SeverityCounts) : Option Nat :=
  (Severity.ranked.mapM c.weightOf?).map fun terms =>
    terms.foldl (fun sum term => min (sum + term) maxWord) 0

/-- The counts as JSON. -/
def toJson (c : SeverityCounts) : Json :=
  .obj [("critical", .nat c.critical), ("high", .nat c.high), ("medium", .nat c.medium),
    ("low", .nat c.low), ("info", .nat c.info)]

/-- Reads counts from JSON. -/
def ofJson? (value : Json) : Option SeverityCounts := do
  let fields ← value.record? ["critical", "high", "medium", "low", "info"]
  match fields with
  | [critical, high, medium, low, info] =>
    return {
      critical := ← Json.required? Json.nat64? critical
      high := ← Json.required? Json.nat64? high
      medium := ← Json.required? Json.nat64? medium
      low := ← Json.required? Json.nat64? low
      info := ← Json.required? Json.nat64? info }
  | _ => none

end SeverityCounts

end CodeAudit
