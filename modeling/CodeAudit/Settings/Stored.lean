import CodeAudit.Disk.Node
import CodeAudit.Error
import CodeAudit.Settings.Reader
import CodeAudit.Settings.Writer

/-!
# Stored settings

The settings of a project stand in a file of the project's directory. A project without the file has
the default settings, and a file that is there is not overwritten.
-/

namespace CodeAudit.Settings

open Text

/-- The name of the file (`CONFIG_FILE`). -/
def fileName : String := "larascan.toml"

/-- The path of the file in a directory. -/
def pathIn (dir : String) : String :=
  Path.join dir fileName

/-- The settings of the project in a directory (`Config::load`). -/
def load (disk : Disk) (dir : String) : Except ScanError Settings := do
  let path := pathIn dir
  if !disk.isFile path then return {}
  match disk.read path with
  | .error e => throw (.io e.message path)
  | .ok bytes =>
    match decode? bytes with
    | none => throw (.io "stream did not contain valid UTF-8" path)
    | some content =>
      match parse? content with
      | none => throw (.config path "invalid settings")
      | some settings => return settings

/-- Stores settings for the project in a directory (`Config::save`). -/
def save (settings : Settings) (disk : Disk) (dir : String) : Except ScanError Disk := do
  let path := pathIn dir
  if disk.exists? path then throw (.config path "file already exists")
  match disk.write path (encode settings.render) with
  | .error e => throw (.io e.message path)
  | .ok disk => return disk

end CodeAudit.Settings
