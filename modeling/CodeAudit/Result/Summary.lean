import CodeAudit.Check.Subject
import CodeAudit.Result.Counts
import CodeAudit.Result.Score

/-!
# Summaries

What a list of issues amounts to: counts by severity, category and file, the score, and what is
recommended. A summary does not depend on the order of the issues.
-/

namespace CodeAudit

/-! ## Files -/

/-- The issues of one file by number (`FileIssueGroup`). -/
structure FileGroup where
  path : String
  counts : SeverityCounts
  deriving DecidableEq, Repr

namespace FileGroup

/-- The number of issues of the file. -/
def issueCount (g : FileGroup) : Nat := g.counts.total

/-- Does a file come before another: more issues, or as many and the lesser path? -/
def before (a b : FileGroup) : Bool :=
  b.issueCount < a.issueCount || (a.issueCount == b.issueCount && !decide (b.path < a.path))

/-- The group as JSON. -/
def toJson (g : FileGroup) : Json :=
  .obj [("file_path", .str g.path), ("issue_count", .nat g.issueCount),
    ("issues_by_severity", g.counts.toJson)]

end FileGroup

/-- The paths of issues, in the order of their first issues. -/
def Issue.paths (issues : List Issue) : List String :=
  firstPerKey [] (issues.map fun issue => (issue.pathKey, issue.pathKey))

/-- The issues at a path. -/
def Issue.atPath (issues : List Issue) (path : String) : List Issue :=
  issues.filter fun issue => issue.pathKey == path

/-- The files of issues, those with the most issues first (`group_by_file`). -/
def FileGroup.ofIssues (issues : List Issue) : List FileGroup :=
  let groups := (Issue.paths issues).map fun path =>
    { path, counts := SeverityCounts.ofIssues (Issue.atPath issues path) : FileGroup }
  groups.mergeSort FileGroup.before

/-! ## Categories -/

/-- The number of issues of a category. -/
structure CategoryCount where
  category : Category
  count : Nat
  deriving DecidableEq, Repr

namespace CategoryCount

/-- The counts of all categories, in canonical order. -/
def ofIssues (issues : List Issue) : List CategoryCount :=
  Category.all.map fun category =>
    { category, count := issues.countP fun issue => issue.category == category }

/-- Does a count come before another: greater, or equal and of the earlier category? -/
def before (a b : CategoryCount) : Bool :=
  b.count < a.count || (a.count == b.count && a.category.rank ≤ b.category.rank)

/-- The count as JSON. -/
def toJson (c : CategoryCount) : Json :=
  .obj [("category", .str c.category.name), ("count", .nat c.count)]

end CategoryCount

/-! ## Recommendations -/

/-- What a recommendation is about (`RecommendationKind`). -/
inductive Topic where
  | security
  | quality
  | process
  | maintenance
  deriving DecidableEq, Repr

/-- The written name. -/
def Topic.name : Topic → String
  | security => "security"
  | quality => "quality"
  | process => "process"
  | maintenance => "maintenance"

/-- How urgent a recommendation is. -/
inductive Priority where
  | low
  | medium
  | high
  deriving DecidableEq, Repr

/-- The written name. -/
def Priority.name : Priority → String
  | low => "low"
  | medium => "medium"
  | high => "high"

/-- Something to do. -/
structure Recommendation where
  topic : Topic
  priority : Priority
  title : String
  description : String
  deriving DecidableEq, Repr

namespace Recommendation

/-- More issues of high severity than this ask for a recommendation (`HIGH_ISSUE_THRESHOLD`). -/
def highThreshold : Nat := 5

/-- What the counts, the number of issues and the score ask for (`recommendations`). -/
def list (counts : SeverityCounts) (total score : Nat) : List Recommendation :=
  (if 0 < counts.critical then
    [⟨.security, .high, "Fix critical security issues",
      toString counts.critical ++
        " critical issue(s) can be exploited directly; address them before the next release"⟩]
    else []) ++
  (if highThreshold < counts.high then
    [⟨.quality, .medium, "Reduce high-severity issues",
      toString counts.high ++
        " high-severity issues were found; schedule time to work through them"⟩]
    else []) ++
  (if score < 60 then
    [⟨.process, .medium, "Add quality gates",
      "Quality score is " ++ toString score ++
        "; run this scan in CI and require review for new findings"⟩]
    else []) ++
  (if 90 ≤ score then
    [⟨.maintenance, .low, "Maintain current standards",
      "Code quality is good; keep scanning regularly to catch regressions"⟩]
    else []) ++
  (if total = 0 then
    [⟨.maintenance, .low, "No issues found",
      "Nothing was reported; consider scanning more paths or enabling more categories"⟩]
    else [])

/-- The recommendation as JSON. -/
def toJson (r : Recommendation) : Json :=
  .obj [("type", .str r.topic.name), ("priority", .str r.priority.name), ("title", .str r.title),
    ("description", .str r.description)]

end Recommendation

/-! ## Summaries -/

/-- What a list of issues amounts to. -/
structure Summary where
  totalIssues : Nat
  bySeverity : SeverityCounts
  byCategory : List CategoryCount
  qualityScore : Nat
  /-- The weighted sum of the counts. There is none, and so no summary to show, if the weight of a
      severity does not fit in a word. -/
  weightedScore : Option Nat
  topCategories : List CategoryCount
  mostAffectedFiles : List FileGroup
  recommendations : List Recommendation
  filesScanned : Nat
  affectedFiles : Nat
  cleanFiles : Nat
  deriving DecidableEq, Repr

namespace Summary

/-- How many categories are listed as the most frequent (`TOP_CATEGORIES`). -/
def maxTopCategories : Nat := 5

/-- How many files are listed as the most affected (`TOP_FILES`). -/
def maxTopFiles : Nat := 10

/-- What the issues of a number of files amount to. -/
def ofIssues (issues : List Issue) (filesScanned : Nat) : Summary :=
  let bySeverity := SeverityCounts.ofIssues issues
  let byCategory := CategoryCount.ofIssues issues
  let groups := FileGroup.ofIssues issues
  let score := Score.quality issues.length filesScanned
  { totalIssues := issues.length
    bySeverity
    byCategory
    qualityScore := score
    weightedScore := bySeverity.weighted?
    topCategories :=
      ((byCategory.filter fun c => 0 < c.count).mergeSort CategoryCount.before).take
        maxTopCategories
    mostAffectedFiles := groups.take maxTopFiles
    recommendations := Recommendation.list bySeverity issues.length score
    filesScanned
    affectedFiles := groups.length
    cleanFiles := filesScanned - groups.length }

/-- The number of issues of a category (`category_count`). -/
def categoryCount (s : Summary) (category : Category) : Nat :=
  match s.byCategory.find? fun c => c.category == category with
  | none => 0
  | some c => c.count

/-- The summary as JSON. -/
def toJson (s : Summary) : Json :=
  .obj [("total_issues", .nat s.totalIssues), ("issues_by_severity", s.bySeverity.toJson),
    ("issues_by_category", .arr (s.byCategory.map CategoryCount.toJson)),
    ("quality_score", .nat s.qualityScore), ("weighted_score", s.weightedScore.elim .null .nat),
    ("top_categories", .arr (s.topCategories.map CategoryCount.toJson)),
    ("most_affected_files", .arr (s.mostAffectedFiles.map fun g =>
      .obj [("file_path", .str g.path), ("count", .nat g.issueCount)])),
    ("recommendations", .arr (s.recommendations.map Recommendation.toJson)),
    ("files_scanned", .nat s.filesScanned), ("affected_files", .nat s.affectedFiles),
    ("clean_files", .nat s.cleanFiles)]

end Summary

end CodeAudit
