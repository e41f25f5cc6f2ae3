import CodeAudit.Text.Find

/-!
# Query scopes

A static call runs a query when its class may be a model and its method is one of those that
models answer with a query.
-/

namespace CodeAudit.Check

open Text

/-- Classes with static calls that never reach the database (`NON_QUERY_SCOPES`). -/
def plainClasses : List String :=
  ["Str", "Arr", "Log", "Cache", "Config", "Carbon", "CarbonImmutable", "Route", "Validator",
    "Http", "Storage", "Hash", "Auth", "Gate", "Event", "Mail", "Queue", "View", "Session", "Lang",
    "Collection", "Crypt", "URL", "Redirect", "Response", "Request", "App", "File", "Blade",
    "Notification", "Bus", "Cookie", "Date", "Number", "Password", "RateLimiter", "Artisan",
    "self", "static", "parent"]

/-- The last segment of a class name (`short_class`). -/
def shortClass (name : List Char) : List Char :=
  afterLast '\\' name

/-- May a static call on the class reach the database (`is_query_scope`)? -/
def isQueryScope (name : List Char) : Bool :=
  let short := shortClass name
  short.head?.any Char.isUpper && !plainClasses.contains (String.ofList short)

/-- Static methods of models that run a query (`STATIC_QUERY_METHODS`). -/
def staticQueryMethods : List String :=
  ["all", "find", "findOrFail", "findMany", "where", "whereIn", "whereHas", "first", "firstWhere",
    "firstOrFail", "firstOrCreate", "firstOrNew", "updateOrCreate", "create", "insert", "update",
    "destroy", "query", "with", "count", "pluck", "exists", "sum", "max", "min", "avg", "latest",
    "oldest", "select", "table", "statement", "paginate", "get", "orderBy"]

end CodeAudit.Check
