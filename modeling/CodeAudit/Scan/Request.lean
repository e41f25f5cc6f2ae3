import CodeAudit.Json.Decode
import CodeAudit.Settings.Basic
import CodeAudit.Text.Find

/-!
# Scan requests

A request says what is scanned, as a file, a directory or a code base, for which categories, and
with which options of the walk.
-/

namespace CodeAudit

open Text

/-! ## Kinds -/

/-- What the target of a scan is taken for. -/
inductive ScanKind where
  | file
  | directory
  | codebase
  deriving DecidableEq, Repr

namespace ScanKind

/-- The written name. -/
def name : ScanKind → String
  | file => "file"
  | directory => "directory"
  | codebase => "codebase"

/-- The kind that a request names. White space around it and ASCII case do not count. -/
def parse? (request : String) : Option ScanKind :=
  match String.ofList (lowerAscii (trim request.toList)) with
  | "file" => some file
  | "directory" => some directory
  | "dir" => some directory
  | "codebase" => some codebase
  | _ => none

/-- What is said about a name that no kind has. -/
def unknownText (request : String) : String :=
  "unknown scan type '" ++ String.ofList (lowerAscii (trim request.toList)) ++ "'"

/-- The kind that stored data names, to the letter. -/
def ofName? : String → Option ScanKind
  | "file" => some file
  | "directory" => some directory
  | "codebase" => some codebase
  | _ => none

end ScanKind

/-! ## Options -/

/-- Options of the walk. -/
structure ScanOptions where
  ignoreVendor : Bool := true
  ignoreNodeModules : Bool := true
  ignoreStorage : Bool := true
  maxFileSize : Nat := defaultMaxFileSize
  fileExtensions : List String := defaultExtensions
  deriving DecidableEq, Repr

namespace ScanOptions

/-- The options that settings imply (`ScanOptions::from_config`). -/
def ofSettings (s : ScanSettings) : ScanOptions where
  maxFileSize := s.maxFileSize
  fileExtensions := s.fileExtensions

/-- The options as JSON. -/
def toJson (o : ScanOptions) : Json :=
  .obj [("ignore_vendor", .bool o.ignoreVendor),
    ("ignore_node_modules", .bool o.ignoreNodeModules),
    ("ignore_storage", .bool o.ignoreStorage), ("max_file_size", .nat o.maxFileSize),
    ("file_extensions", .strs o.fileExtensions)]

/-- Reads options from JSON. Those that are not given have their defaults. -/
def ofJson? (value : Json) : Option ScanOptions := do
  let fields ← value.record?
    ["ignore_vendor", "ignore_node_modules", "ignore_storage", "max_file_size", "file_extensions"]
  match fields with
  | [vendor, modules, storage, size, extensions] =>
    return {
      ignoreVendor := ← Json.optional? Json.bool? true vendor
      ignoreNodeModules := ← Json.optional? Json.bool? true modules
      ignoreStorage := ← Json.optional? Json.bool? true storage
      maxFileSize := ← Json.optional? Json.nat64? defaultMaxFileSize size
      fileExtensions := ← Json.optional? Json.strs? defaultExtensions extensions }
  | _ => none

end ScanOptions

/-! ## Requests -/

/-- A request for a scan (`ScanJob`). Categories are named as the request names them. -/
structure ScanRequest where
  kind : ScanKind
  target : String
  categories : List String
  options : ScanOptions := {}
  deriving DecidableEq, Repr

namespace ScanRequest

/-- The request as JSON. -/
def toJson (r : ScanRequest) : Json :=
  .obj [("type", .str r.kind.name), ("target", .str r.target), ("categories", .strs r.categories),
    ("options", r.options.toJson)]

/-- Reads a request from JSON. -/
def ofJson? (value : Json) : Option ScanRequest := do
  let fields ← value.record? ["type", "target", "categories", "options"]
  match fields with
  | [kind, target, categories, options] =>
    return {
      kind := ← Json.required? (Json.name? ScanKind.ofName?) kind
      target := ← Json.required? Json.str? target
      categories := ← Json.required? Json.strs? categories
      options := ← Json.optional? ScanOptions.ofJson? {} options }
  | _ => none

end ScanRequest

end CodeAudit
