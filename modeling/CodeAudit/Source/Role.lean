import CodeAudit.Disk.Path
import CodeAudit.Pattern.Build
import CodeAudit.Pattern.Search
import CodeAudit.Text.Find

/-!
# Roles

What part of an application a file implements. Several checks only make sense once the role is
known: a property that nothing reads is dead in a plain class and the point of a console command,
and reading the environment is a smell everywhere except in configuration.

`Role.classify` decides in this order: template names, anonymous migrations, the base class, the
marks of queued and dispatched classes, and last the directories of the path.
-/

namespace CodeAudit

open Text

/-- What part of an application a file implements (`FileRole`). -/
inductive Role where
  | model
  | controller
  | command
  | job
  | event
  | listener
  | mailable
  | notification
  | resource
  | request
  | middleware
  | provider
  | policy
  | test
  | migration
  | seeder
  | factory
  | config
  | route
  | view
  | plain
  deriving DecidableEq, Repr

namespace Role

/-- The written name. -/
def name : Role → String
  | model => "Model"
  | controller => "Controller"
  | command => "Command"
  | job => "Job"
  | event => "Event"
  | listener => "Listener"
  | mailable => "Mailable"
  | notification => "Notification"
  | resource => "Resource"
  | request => "Request"
  | middleware => "Middleware"
  | provider => "Provider"
  | policy => "Policy"
  | test => "Test"
  | migration => "Migration"
  | seeder => "Seeder"
  | factory => "Factory"
  | config => "Config"
  | route => "Route"
  | view => "View"
  | plain => "Plain"

/-! ## Properties of a role -/

/-- Variables that exist in every scope (`SUPERGLOBALS`). -/
def superglobals : List String :=
  ["this", "GLOBALS", "_SERVER", "_GET", "_POST", "_FILES", "_COOKIE", "_SESSION", "_REQUEST",
    "_ENV"]

/-- Properties that the framework reads by reflection, which are in use even if the class itself
    does not touch them (`framework_properties`). -/
def frameworkProperties : Role → List String
  | command => ["signature", "description", "name", "hidden"]
  | model =>
    ["table", "fillable", "guarded", "hidden", "casts", "dates", "appends", "with", "primaryKey",
      "keyType", "incrementing", "timestamps", "connection", "perPage", "attributes", "visible",
      "touches"]
  | job =>
    ["timeout", "tries", "backoff", "maxExceptions", "queue", "connection",
      "deleteWhenMissingModels"]
  | event => ["queue", "connection", "afterCommit"]
  | listener => ["queue", "connection", "afterCommit"]
  | mailable => ["subject", "view", "theme", "queue"]
  | notification => ["subject", "view", "theme", "queue"]
  | resource => ["wrap", "preserveKeys"]
  | request => ["redirect", "stopOnFirstFailure", "errorBag"]
  | middleware => ["except"]
  | provider => ["listen", "policies", "bindings", "singletons"]
  | test => ["seed", "seeder"]
  | _ => []

/-- Is the variable, named without its sign, exempt from checks for unused variables
    (`allows_property`)? -/
def allowsProperty (role : Role) (name : String) : Bool :=
  superglobals.contains name || role.frameworkProperties.contains name

/-- Console commands and queued jobs may block; request handlers may not (`runs_in_background`). -/
def runsInBackground : Role → Bool
  | command => true
  | job => true
  | _ => false

/-- Files that are mostly literal data: settings and schema definitions (`is_declarative`). -/
def isDeclarative : Role → Bool
  | config => true
  | migration => true
  | _ => false

/-! ## Classification -/

section Patterns

open Pattern

/-- A class declaration at the start of a line with its base class as group one (`EXTENDS_RE`). -/
def extendsPattern : Pattern :=
  lineStart ++ blanks ++ many (lits ["abstract", "final", "readonly"] ++ blanks1) ++ lit "class" ++
    blanks1 ++ many1 word ++ blanks1 ++ lit "extends" ++ blanks1 ++ opt (char '\\') ++
    group 1 (many1 (one fun c => isWord c || c == '\\'))

/-- A class that names the queue marker among its interfaces (`IMPLEMENTS_QUEUE_RE`). -/
def queuedPattern : Pattern :=
  lit "implements" ++ blanks1 ++ many (noneOf "\x7b") ++ wordEdge ++ lit "ShouldQueue" ++ wordEdge

/-- A class that uses the dispatch trait (`DISPATCHABLE_RE`). -/
def dispatchedPattern : Pattern :=
  wordEdge ++ lit "use" ++ blanks1 ++ many (noneOf ";") ++ wordEdge ++ lit "Dispatchable" ++
    wordEdge

/-- A migration without a class name (`ANON_MIGRATION_RE`). -/
def anonymousMigrationPattern : Pattern :=
  lit "return" ++ blanks1 ++ lit "new" ++ blanks1 ++ lit "class" ++ blanks1 ++ lit "extends" ++
    blanks1 ++ lit "Migration"

end Patterns

/-- The role that a base class implies, by the last segment of its name. -/
def ofBase? (base : List Char) : Option Role :=
  match String.ofList base with
  | "Model" => some model
  | "Authenticatable" => some model
  | "Pivot" => some model
  | "User" => some model
  | "Controller" => some controller
  | "BaseController" => some controller
  | "Command" => some command
  | "Job" => some job
  | "Event" => some event
  | "Mailable" => some mailable
  | "Notification" => some notification
  | "JsonResource" => some resource
  | "ResourceCollection" => some resource
  | "FormRequest" => some request
  | "ServiceProvider" => some provider
  | "AuthServiceProvider" => some provider
  | "EventServiceProvider" => some provider
  | "RouteServiceProvider" => some provider
  | "Migration" => some migration
  | "Seeder" => some seeder
  | "Factory" => some factory
  | _ =>
    if endsWith "TestCase" base then some test
    else if endsWith "Controller" base then some controller
    else none

/-- The role that the base class of the first class declaration implies (`role_from_base`). -/
def ofContent? (content : List Char) : Option Role := do
  let found ← extendsPattern.find? content
  ofBase? (afterLast '\\' (found.text 1))

/-- Directories that imply a role, in order of precedence (`SEGMENTS`). -/
def directories : List (String × Role) :=
  [("/config/", config), ("/migrations/", migration), ("/seeders/", seeder),
    ("/factories/", factory), ("/routes/", route), ("/tests/", test), ("/Middleware/", middleware),
    ("/Policies/", policy), ("/Listeners/", listener), ("/Events/", event), ("/Jobs/", job),
    ("/Controllers/", controller), ("/Models/", model)]

/-- The role that the directories of a path imply (`role_from_path`). -/
def ofDirectories (path : List Char) : Role :=
  match directories.find? fun entry => mentions entry.1 path with
  | some (_, role) => role
  | none => plain

/-- The role of a file by its path and content (`classify_role`). -/
def classify (path : String) (content : List Char) : Role :=
  let path := '/' :: (Path.normalize path).toList
  if endsWith ".blade.php" path then view
  else if anonymousMigrationPattern.isIn content then migration
  else
    match ofContent? content with
    | some role => role
    | none =>
      if queuedPattern.isIn content then
        if mentions "/Listeners/" path then listener else job
      else if dispatchedPattern.isIn content && mentions "/Events/" path then event
      else ofDirectories path

end Role

end CodeAudit
