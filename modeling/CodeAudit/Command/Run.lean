import CodeAudit.Command.Arguments
import CodeAudit.Json.Printer
import CodeAudit.Report.Text
import CodeAudit.Settings.Stored
import CodeAudit.Store.Job
import CodeAudit.Store.Memory

/-!
# Running commands

What the commands print, how they end, and what they leave on the disk.
-/

namespace CodeAudit.Command

/-- How long something took, and how that is shown. -/
structure Elapsed where
  milliseconds : Nat
  shown : String

/-- A time in milliseconds. -/
def Elapsed.ofMilliseconds (n : Nat) : Elapsed := ⟨n, Report.duration n⟩

/-- How a command went. The text depends on the time that the command took. -/
structure Outcome where
  result : Except Failure Exit
  output : Elapsed → String
  disk : Disk

/-- A command that failed prints nothing and changes nothing. -/
def Outcome.failed (disk : Disk) (failure : Failure) : Outcome where
  result := .error failure
  output _ := ""
  disk

/-! ## Scans -/

/-- The kind of scan for a target: a file is scanned alone, and a project, or anything with paths
    given, as a code base (`infer_kind`). -/
def inferKind (disk : Disk) (target : String) (hasPaths : Bool) : ScanKind :=
  if disk.isFile target then .file
  else if hasPaths || disk.isFile (Path.join target "artisan") then .codebase
  else .directory

/-- The settings for the arguments. -/
def effectiveSettings (a : ScanArguments) (settings : Settings) : Settings :=
  { settings with scan := { settings.scan with
      parallel := settings.scan.parallel && !a.noParallel
      defaultPaths := if a.paths.isEmpty then settings.scan.defaultPaths else a.paths } }

/-- The request for the arguments. -/
def requestOf (disk : Disk) (a : ScanArguments) (settings : Settings) : ScanRequest :=
  let options := ScanOptions.ofSettings settings.scan
  { kind := a.kind.getD (inferKind disk a.target !a.paths.isEmpty)
    target := a.target
    categories := if a.categories.isEmpty then Category.all.map Category.name else a.categories
    options :=
      if a.includeVendor then
        { options with ignoreVendor := false, ignoreNodeModules := false, ignoreStorage := false }
      else options }

/-- Scans (`handle_scan`). The settings are those of the target if it is a directory, and otherwise
    those of the current directory. -/
def runScan (disk : Disk) (grammar : Grammar) (style : Report.Style) (a : ScanArguments) :
    Outcome :=
  let root := if disk.isDir a.target then a.target else disk.cwdPath
  match Settings.load disk root with
  | .error e => .failed disk ((Failure.ofScan e).withNote "Failed to load configuration")
  | .ok settings =>
    let settings := effectiveSettings a settings
    let session := Session.onDisk disk settings grammar
    match (session.runJob MemoryStore.store {} "cli" (requestOf disk a settings)).result with
    | .error failure => .failed disk failure
    | .ok result =>
      let threshold := a.failOn <|> settings.rules.failOn
      { result := .ok (result.exit threshold)
        output := fun elapsed =>
          let result := result.lasting elapsed.milliseconds
          if a.json then result.toJson.pretty ++ "\n"
          else Report.full style elapsed.shown result
        disk }

/-! ## Rules -/

/-- A rule as JSON. -/
def ruleJson (rule : Rule) : Json :=
  .obj [("id", .str rule.id), ("category", .str rule.category.name),
    ("severity", .str rule.severity.name), ("summary", .str rule.entry.summary)]

/-- The line of a rule. -/
def ruleLine (style : Report.Style) (rule : Rule) : String :=
  "  " ++ padRight 44 rule.id ++ " " ++
    ({ color := some .yellow } : Ink).paint style.colored (padRight 8 rule.severity.name) ++ " " ++
    ({ dim := true } : Ink).paint style.colored rule.entry.summary

/-- The lines of rules, with the category in front of its rules. -/
def ruleLines (style : Report.Style) (before : Option Category) : List Rule → List String
  | [] => []
  | rule :: rest =>
    let heading :=
      if before == some rule.category then []
      else [({ bold := true, underline := true } : Ink).paint style.colored rule.category.name]
    heading ++ ruleLine style rule :: ruleLines style (some rule.category) rest

/-- Lists the rules, of one category or all (`handle_rules`). -/
def runRules (disk : Disk) (style : Report.Style) (category : Option String) (json : Bool) :
    Outcome :=
  let rules : Except ScanError (List Rule) :=
    match category with
    | none => .ok Rule.all
    | some name => (Category.resolve [name]).map Rule.within
  match rules with
  | .error e => .failed disk (.ofScan e)
  | .ok rules =>
    { result := .ok .success
      output := fun _ =>
        if json then (Json.arr (rules.map ruleJson)).pretty ++ "\n"
        else Report.unlines (ruleLines style none rules)
      disk }

/-! ## Settings -/

/-- Writes the default settings (`handle_init`). -/
def runInit (disk : Disk) (style : Report.Style) : Outcome :=
  match ({} : Settings).save disk disk.cwdPath with
  | .error e => .failed disk ((Failure.ofScan e).withNote ("Failed to write " ++ Settings.fileName))
  | .ok after =>
    { result := .ok .success
      output := fun _ =>
        ({ bold := true, color := some .green } : Ink).paint style.colored "[OK]" ++ " Wrote " ++
          Settings.pathIn disk.cwdPath ++ "\n"
      disk := after }

/-- Runs a command (`execute`). -/
def run (disk : Disk) (grammar : Grammar) (style : Report.Style) : Action → Outcome
  | .scan a => runScan disk grammar style a
  | .rules category json => runRules disk style category json
  | .init => runInit disk style

end CodeAudit.Command
