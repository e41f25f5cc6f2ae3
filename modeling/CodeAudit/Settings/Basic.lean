import CodeAudit.Json.Basic
import CodeAudit.Severity

/-!
# Settings

What a project can set: which files are looked at, how much context issues show, which rules are
switched off, and from which severity on a scan counts as failed.
-/

namespace CodeAudit

/-- The extensions that are looked at unless something else is asked for (`default_extensions`). -/
def defaultExtensions : List String := ["php", "blade.php"]

/-- The size in bytes of the largest files that are looked at unless something else is asked for
    (`default_max_file_size`). -/
def defaultMaxFileSize : Nat := 1024 * 1024

/-- Settings of the walk and of the analysis (`ScanConfig`). -/
structure ScanSettings where
  fileExtensions : List String := defaultExtensions
  /-- Parts of paths that are left out. -/
  excludedPaths : List String := ["/.git/", "/bootstrap/cache/"]
  maxFileSize : Nat := defaultMaxFileSize
  /-- Where the scan of a code base starts, below its base. -/
  defaultPaths : List String := ["app"]
  /-- How many lines of context issues show on either side. -/
  contextRadius : Nat := 3
  /-- May files be analysed side by side? -/
  parallel : Bool := true
  deriving DecidableEq, Repr

/-- Settings of the rules. -/
structure RuleSettings where
  /-- Identifiers of rules whose issues are dropped. -/
  disabled : List String := []
  /-- The least severity that makes a scan fail. -/
  failOn : Option Severity := none
  deriving DecidableEq, Repr

/-- All settings of a project (`Config`). -/
structure Settings where
  scan : ScanSettings := {}
  rules : RuleSettings := {}
  deriving DecidableEq, Repr

namespace ScanSettings

/-- The settings as JSON. -/
def toJson (s : ScanSettings) : Json :=
  .obj [("file_extensions", .strs s.fileExtensions), ("excluded_paths", .strs s.excludedPaths),
    ("max_file_size", .nat s.maxFileSize), ("default_paths", .strs s.defaultPaths),
    ("context_radius", .nat s.contextRadius), ("parallel", .bool s.parallel)]

end ScanSettings

namespace RuleSettings

/-- Is the rule switched off (`is_disabled`)? -/
def isDisabled (s : RuleSettings) (ruleId : String) : Bool :=
  s.disabled.contains ruleId

/-- The settings as JSON. -/
def toJson (s : RuleSettings) : Json :=
  .obj [("disabled", .strs s.disabled),
    ("fail_on", .ofOption (fun severity => .str severity.name) s.failOn)]

end RuleSettings

end CodeAudit
