import CodeAudit.Check.QueryScope
import CodeAudit.Check.Subject
import CodeAudit.SyntaxTree.Call

/-!
# Queries in loops

Calls in the body of a loop that run a query on every round. The head of a loop runs once and may
query.
-/

namespace CodeAudit.Check.LoopQuery

open Text SyntaxTree

/-- Methods of a query that run it (`TERMINALS`). -/
def terminals : List String :=
  ["get", "first", "firstOrFail", "find", "findOrFail", "count", "exists", "doesntExist", "pluck",
    "sum", "max", "min", "avg", "value", "paginate", "simplePaginate", "cursor", "chunk", "update",
    "delete", "increment", "decrement"]

/-- Methods that tell a query from a collection (`BUILDERS`). -/
def builders : List String :=
  ["query", "with", "withCount", "select", "join", "leftJoin", "orderBy", "orderByDesc", "latest",
    "oldest", "groupBy", "having", "limit", "take", "skip", "offset", "newQuery"]

/-- Does the chain of calls that ends in a node build a query (`chain_builds_query`)? It does if one
    of its calls is that of a builder, or if it starts at a class that may be a model. -/
def buildsQuery (source : List Char) (node : Node) : Bool :=
  match _h : node.callSite? with
  | none => false
  | some site =>
    let method := site.method.text source
    if beginsWith "where" method || builders.contains (String.ofList method) then true
    else if site.isStatic then isQueryScope (site.target.text source)
    else buildsQuery source site.target
termination_by sizeOf node
decreasing_by exact Node.sizeOf_target_lt _h

/-- How a call that runs a query is shown, if it runs one (`query_label`). -/
def queryText? (source : List Char) (site : CallSite) : Option String :=
  let method := String.ofList (site.method.text source)
  if site.isStatic then
    let scope := site.target.text source
    if isQueryScope scope && staticQueryMethods.contains method then
      some (String.ofList (shortClass scope) ++ "::" ++ method ++ "()")
    else none
  else if terminals.contains method && buildsQuery source site.target then
    some ("->" ++ method ++ "()")
  else none

/-- A query in the body of a loop (`report`). -/
def issue (s : Subject) (site : CallSite) (shown : String) : Issue :=
  { s.report .performance "query_in_loop" .high site.node.line "Query inside a loop"
      ("`" ++ shown ++ "` runs a database query on every iteration (N+1)")
      "Eager load with ->with() or query once before the loop and index the result" with
    column := some site.node.column }.withMetadata "method"
      (.text (site.method.text s.content))

/-- The bodies of the loops in a tree, in pre-order. -/
def loopBodies (root : Node) : List Node :=
  (root.preorder.filter Node.isLoop).filterMap Node.loopBody?

/-- Findings about queries in loops, by line. A chain and the call that it starts with begin at one
    byte and count once. -/
def run (s : Subject) : List Issue :=
  match s.tree with
  | none => []
  | some root =>
    let found := (loopBodies root).flatMap fun body =>
      body.callSites.filterMap fun site =>
        (queryText? s.content site).map fun shown =>
          (site.node.label.start.byte, issue s site shown)
    (firstPerKey [] found).mergeSort fun a b => a.line ≤ b.line

/-- The check for queries in loops (`QueryInLoop`). -/
def check : Check := .ofPhp "query_in_loop" run

end CodeAudit.Check.LoopQuery
