import CodeAudit.Check.Subject
import CodeAudit.Pattern.Build
import CodeAudit.Pattern.Search

/-!
# Framework idioms

Access to the environment, request handling in controllers, and route definitions.
-/

namespace CodeAudit.Check.Idiom

open Text Source

section Patterns

open Pattern

/-- A call that reads the environment (`ENV_RE`). -/
def environmentCall : Pattern :=
  wordEdge ++ lit "env" ++ blanks ++ char '('

/-- A variable of the server interface, named as group one (`SUPERGLOBAL_RE`). -/
def superglobal : Pattern :=
  lit "$_" ++
    group 1 (lits ["GET", "POST", "REQUEST", "COOKIE", "SERVER", "FILES", "SESSION", "ENV"]) ++
    wordEdge

/-- All fields of a request (`REQUEST_ALL_RE`). -/
def requestAll : Pattern :=
  lit "$request->all()" <|> wordEdge ++ lit "request()->all()"

/-- A direct call of the database, with the method as group one (`DB_FACADE_RE`). -/
def databaseCall : Pattern :=
  wordEdge ++ lit "DB::" ++ group 1 (many1 word)

/-- Validation in place (`INLINE_VALIDATION_RE`). -/
def inlineValidation : Pattern :=
  lit "$request->validate(" <|> wordEdge ++ lit "request()->validate(" <|>
    lit "$this->validate(" <|> wordEdge ++ lit "Validator::make("

/-- A route that is handled by a closure, with the verb as group one (`ROUTE_CLOSURE_RE`). -/
def closureRoute : Pattern :=
  lit "Route::" ++
    group 1 (lits ["get", "post", "put", "patch", "delete", "options", "any", "match"]) ++
    blanks ++ char '(' ++ many any ++ char ',' ++ blanks ++ opt (lit "static" ++ blanks1) ++
    (lit "function" ++ wordEdge <|> lit "fn" ++ blanks ++ char '(')

end Patterns

/-! ## Environment -/

/-- Findings about access to the environment. Configuration may read it. -/
def environment (s : Subject) : List Issue :=
  if s.role == .config then []
  else
    s.codeLines.flatMap fun line =>
      let code := line.bare
      (if (environmentCall.findAll code).any fun found => isBareCall code found.whole.start then
        [s.report .idiom "env_outside_config" .medium line.row "env() outside config"
          "env() returns null once the configuration is cached"
          "Read the value in a config/*.php file and use config('...') here"]
      else []) ++
      match superglobal.find? code with
      | none => []
      | some found =>
        let name := "$_" ++ String.ofList (found.text 1)
        [(s.report .idiom "superglobal_usage" .medium line.row "Superglobal access"
          (name ++ " bypasses the framework request object")
          "Inject Illuminate\\Http\\Request and use $request->input() / ->server()").withMetadata
          "superglobal" (.str name)]

/-- The check of access to the environment (`EnvironmentAccess`). -/
def environmentCheck : Check := .ofPhp "environment_access" environment

/-! ## Controllers -/

/-- All fields of a request passed on. -/
def allFields (s : Subject) (row : Nat) (code : List Char) : List Issue :=
  if requestAll.isIn code then
    [s.report .idiom "request_all" .low row "$request->all()"
      "All input fields are passed on, including unexpected ones"
      "Use $request->validated() or $request->only([...])"]
  else []

/-- The database called from a controller. -/
def databaseUse (s : Subject) (row : Nat) (code : List Char) : List Issue :=
  match databaseCall.find? code with
  | none => []
  | some found =>
    let method := String.ofList (found.text 1)
    [(s.report .idiom "db_facade_in_controller" .low row "DB facade in a controller"
      ("DB::" ++ method ++ "() puts persistence logic in the controller")
      "Move the query into an Eloquent model, scope or repository").withMetadata "method"
      (.str method)]

/-- Validation in a controller. -/
def validation (s : Subject) (row : Nat) (code : List Char) : List Issue :=
  if inlineValidation.isIn code then
    [s.report .idiom "inline_validation" .info row "Inline validation"
      "Validation rules are defined inside the controller action"
      "Move the rules into a FormRequest class and type-hint it"]
  else []

/-- Findings about request handling, most of them in controllers only. -/
def controllers (s : Subject) : List Issue :=
  s.codeLines.flatMap fun line =>
    let code := line.code
    allFields s line.row code ++
      if s.role == .controller then databaseUse s line.row code ++ validation s line.row code
      else []

/-- The check of request handling (`ControllerHygiene`). -/
def controllerCheck : Check := .ofPhp "controller_hygiene" controllers

/-! ## Routes -/

/-- Findings about routes, which cannot be cached when closures handle them. -/
def routes (s : Subject) : List Issue :=
  if s.role == .route then
    s.codeLines.filterMap fun line => do
      let found ← closureRoute.find? line.code
      let verb := String.ofList (found.text 1)
      return (s.report .idiom "route_closure" .low line.row "Closure route"
        ("Route::" ++ verb ++ "() is handled by a closure")
        "Point the route at a controller action so routes can be cached").withMetadata "verb"
        (.str verb)
  else []

/-- The check of routes (`RouteDefinitions`). -/
def routeCheck : Check := .ofPhp "route_definitions" routes

end CodeAudit.Check.Idiom
