import CodeAudit.Settings.Basic
import CodeAudit.Toml.Parser

/-!
# Reading settings

Settings are read from a settings file. What the file does not set keeps its default, and keys that
nothing knows do not count. A record may also be written as the array of its values in order.
-/

namespace CodeAudit

namespace Toml

/-- The values of the fields of a record, as far as they are given. A date holds none of them. -/
def record? (names : List String) : Toml → Option (List (Option Toml))
  | table _ entries => some (names.map fun name => entries.lookup name)
  | array items => some ((List.range names.length).map fun i => items[i]?)
  | tables elements =>
    some ((List.range names.length).map fun i => elements[i]?.map (table .header))
  | datetime _ => some (names.map fun _ => none)
  | _ => none

/-- A natural number. -/
def nat? : Toml → Option Nat
  | integer n => if 0 ≤ n then some n.toNat else none
  | _ => none

/-- A truth value. -/
def bool? : Toml → Option Bool
  | boolean b => some b
  | _ => none

/-- A text. -/
def str? : Toml → Option String
  | string s => some s
  | _ => none

/-- A list of texts. -/
def strs? : Toml → Option (List String)
  | array items => items.mapM str?
  | _ => none

/-- Is there nothing in an array or a table? -/
def holdsNothing : Toml → Bool
  | array items => items.isEmpty
  | table _ entries => entries.isEmpty
  | tables elements => elements.isEmpty
  | _ => false

/-- One of several names: as a text, or as the only key of a table, with nothing under it. -/
def name? {α : Type} (ofName : String → Option α) : Toml → Option α
  | string s => ofName s
  | table _ [(s, value)] => if value.holdsNothing then ofName s else none
  | _ => none

/-- A field with a default value. -/
def optional? {α : Type} (read : Toml → Option α) (default : α) : Option Toml → Option α
  | none => some default
  | some value => read value

end Toml

namespace Settings

open Toml

/-- Reads the settings of the walk and of the analysis. -/
def scanOf? (value : Toml) : Option ScanSettings := do
  let fields ← value.record?
    ["file_extensions", "excluded_paths", "max_file_size", "default_paths", "context_radius",
      "parallel"]
  match fields with
  | [extensions, excluded, size, paths, radius, parallel] =>
    let base : ScanSettings := {}
    return {
      fileExtensions := ← optional? strs? base.fileExtensions extensions
      excludedPaths := ← optional? strs? base.excludedPaths excluded
      maxFileSize := ← optional? nat? base.maxFileSize size
      defaultPaths := ← optional? strs? base.defaultPaths paths
      contextRadius := ← optional? nat? base.contextRadius radius
      parallel := ← optional? Toml.bool? base.parallel parallel }
  | _ => none

/-- Reads the settings of the rules. -/
def rulesOf? (value : Toml) : Option RuleSettings := do
  let fields ← value.record? ["disabled", "fail_on"]
  match fields with
  | [disabled, failOn] =>
    return {
      disabled := ← optional? strs? [] disabled
      failOn := ← optional? (fun value => (name? Severity.ofName? value).map some) none failOn }
  | _ => none

/-- Reads settings from the text of a settings file (`parse_toml`). -/
def parse? (text : List Char) : Option Settings := do
  let entries ← Toml.parse? text
  return {
    scan := ← optional? scanOf? {} (entries.lookup "scan")
    rules := ← optional? rulesOf? {} (entries.lookup "rules") }

end Settings

end CodeAudit
