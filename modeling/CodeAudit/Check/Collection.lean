import CodeAudit.Check.QueryScope
import CodeAudit.Check.Subject
import CodeAudit.Pattern.Build
import CodeAudit.Pattern.Search

/-!
# Collections

Code that loads more rows than it needs, and code that blocks a request.
-/

namespace CodeAudit.Check.Collection

open Text Source

section Patterns

open Pattern

/-- All rows of a class, named as group one (`ALL_RE`). -/
def allRows : Pattern :=
  group 1 (many1 (one fun c => c == '\\' || isWord c)) ++ lit "::all()"

/-- All rows of a class, which are then narrowed by the method of group two (`ALL_THEN_RE`). -/
def allRowsNarrowed : Pattern :=
  allRows ++ blanks ++ lit "->" ++ blanks ++
    group 2 (lit "where" ++ many word <|> lit "filter" <|> lit "first" <|> lit "count" <|>
      lit "reject" <|> lit "pluck" <|> lit "sortBy" ++ many word) ++
    blanks ++ char '('

/-- Rows that are loaded to be counted (`COUNT_ON_GET_RE`). -/
def countedRows : Pattern :=
  lit "->get()" ++ blanks ++ lit "->" ++ blanks ++ lit "count()"

/-- A query for all columns (`SELECT_STAR_RE`). -/
def allColumns : Pattern :=
  anyCase "->select(" ++ blanks ++ oneOf "'\"" ++ char '*' ++ oneOf "'\"" ++ blanks ++ char ')' <|>
    oneOf "'\"" ++ blanks ++ anyCase "select" ++ blanks1 ++ char '*' ++ blanks1 ++ anyCase "from" ++
      wordEdge

/-- A call that sleeps, named as group one (`SLEEP_RE`). -/
def sleeping : Pattern :=
  wordEdge ++ group 1 (opt (char 'u') ++ lit "sleep") ++ blanks ++ char '('

end Patterns

/-- All rows of a model, narrowed in memory (`check_all_then_filter`). -/
def narrowedInMemory (s : Subject) (row : Nat) (code : List Char) : List Issue :=
  match allRowsNarrowed.find? code with
  | none => []
  | some found =>
    let method := String.ofList (found.text 2)
    if isQueryScope (found.text 1) then
      [(s.report .performance "all_then_filter" .medium row "Filtering after ::all()"
        ("::all() loads the whole table before ->" ++ method ++ "() runs in memory")
        "Move the condition into the query: Model::where(...)->get()").withMetadata "method"
        (.str method)]
    else []

/-- Rows that are loaded to be counted. -/
def countedInMemory (s : Subject) (row : Nat) (code : List Char) : List Issue :=
  if countedRows.isIn code then
    [s.report .performance "count_on_get" .medium row "Counting a loaded collection"
      "->get()->count() loads every row just to count them"
      "Call ->count() on the query builder"]
  else []

/-- A query for all columns. -/
def allSelected (s : Subject) (row : Nat) (code : List Char) : List Issue :=
  if allColumns.isIn code then
    [s.report .performance "select_star" .low row "SELECT *" "All columns are selected"
      "Select only the columns the code reads"]
  else []

/-- All rows of a model for one request (`check_unbounded_all`). -/
def unbounded (s : Subject) (row : Nat) (code : List Char) : List Issue :=
  if (allRows.findAll code).any fun found => isQueryScope (found.text 1) then
    [s.report .performance "unbounded_all" .low row "Unbounded ::all() in a controller"
      "Every row is loaded for a single request"
      "Paginate with ->paginate() or constrain the query"]
  else []

/-- A call that blocks the request (`check_sleep`). -/
def blocking (s : Subject) (row : Nat) (code : List Char) : List Issue :=
  let bare := blankStrings code
  match sleeping.find? bare with
  | none => []
  | some found =>
    if isBareCall bare found.whole.start then
      [s.report .performance "sleep_call" .medium row "Blocking sleep"
        ("`" ++ String.ofList (found.text 1) ++ "()` blocks the request worker")
        "Move the delayed work to a queued job (->delay()) or a scheduled command"]
    else []

/-- Findings about collections. -/
def run (s : Subject) : List Issue :=
  s.codeLines.flatMap fun line =>
    let code := line.code
    narrowedInMemory s line.row code ++ countedInMemory s line.row code ++
      allSelected s line.row code ++
      (if s.role == .controller then unbounded s line.row code else []) ++
      (if s.role.runsInBackground then [] else blocking s line.row code)

/-- The check of collections (`CollectionUsage`). -/
def check : Check := .ofPhp "collection_usage" run

end CodeAudit.Check.Collection
