import CodeAudit.Category
import CodeAudit.Disk.Path
import CodeAudit.Json.Basic
import CodeAudit.Severity

/-!
# Issues

One detected problem, with the place where it was found, what it is, and the lines around it.
-/

namespace CodeAudit

/-- One detected problem. The context maps line numbers to lines in increasing order, the metadata
    maps names to values in increasing order. -/
structure Issue where
  path : String
  line : Nat
  column : Option Nat := none
  category : Category
  severity : Severity
  ruleId : String
  ruleName : String
  title : String := ""
  description : String := ""
  suggestion : String := ""
  context : List (Nat × String) := []
  metadata : List (String × Json) := []

/-- Sets the value under a key of a list of pairs that is ordered by its keys. -/
def insertSorted {α β : Type} [DecidableEq α] (before : α → α → Bool) (key : α) (value : β) :
    List (α × β) → List (α × β)
  | [] => [(key, value)]
  | (k, v) :: rest =>
    if key = k then (key, value) :: rest
    else if before key k then (key, value) :: (k, v) :: rest
    else (k, v) :: insertSorted before key value rest

namespace Issue

/-- The identifier of a rule of a category. -/
def idOf (category : Category) (rule : String) : String :=
  category.name ++ "." ++ rule

/-- An issue without texts (`Issue::new`). Lines count from one. -/
def make (category : Category) (rule : String) (severity : Severity) (path : String) (line : Nat) :
    Issue where
  path := path
  line := max line 1
  category := category
  severity := severity
  ruleId := idOf category rule
  ruleName := rule

/-- The issue with one more entry of metadata (`with_metadata`). -/
def withMetadata (issue : Issue) (key : String) (value : Json) : Issue :=
  { issue with metadata := insertSorted (fun a b => decide (a < b)) key value issue.metadata }

@[simp] theorem ruleName_withMetadata (issue : Issue) (key : String) (value : Json) :
    (issue.withMetadata key value).ruleName = issue.ruleName := rfl

@[simp] theorem line_withMetadata (issue : Issue) (key : String) (value : Json) :
    (issue.withMetadata key value).line = issue.line := rfl

/-- The issue with one more line of context. -/
def withContextLine (issue : Issue) (line : Nat) (text : String) : Issue :=
  { issue with context := insertSorted (fun a b => decide (a < b)) line text issue.context }

/-- The path with slashes only, under which issues are grouped (`path_key`). -/
def pathKey (issue : Issue) : String :=
  Path.normalize issue.path

/-- The issue as JSON. A missing column and empty metadata are left out. -/
def toJson (issue : Issue) : Json :=
  .obj <|
    [("file_path", .str issue.path), ("line_number", .nat issue.line)] ++
    (match issue.column with
      | none => []
      | some column => [("column_number", .nat column)]) ++
    [("category", .str issue.category.name), ("severity", .str issue.severity.name),
      ("rule_id", .str issue.ruleId), ("rule_name", .str issue.ruleName),
      ("title", .str issue.title), ("description", .str issue.description),
      ("suggestion", .str issue.suggestion),
      ("context", .obj (issue.context.map fun entry => (toString entry.1, .str entry.2)))] ++
    (if issue.metadata.isEmpty then [] else [("metadata", .obj issue.metadata)])

end Issue

end CodeAudit
