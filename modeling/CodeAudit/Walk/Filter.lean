import CodeAudit.Disk.Path
import CodeAudit.Scan.Request

/-!
# Candidate files

What the path and the size of a file must satisfy for the file to be looked at.
-/

namespace CodeAudit

open Text

/-- What a file must satisfy to be looked at (`WalkConstraints`). -/
structure FileFilter where
  extensions : List String
  /-- Parts of paths that are left out. -/
  excluded : List String
  maxFileSize : Nat
  deriving DecidableEq, Repr

namespace FileFilter

/-- The values of a list that are not among others, or earlier in the list, behind those. -/
def appendNew (known : List String) : List String → List String
  | [] => known
  | item :: rest =>
    if known.contains item then appendNew known rest else appendNew (known ++ [item]) rest

/-- The filter that options and settings ask for (`from_options`). -/
def ofOptions (options : ScanOptions) (settings : ScanSettings) : FileFilter where
  extensions := options.fileExtensions
  excluded :=
    appendNew
      ((if options.ignoreVendor then ["/vendor/"] else []) ++
        (if options.ignoreNodeModules then ["/node_modules/"] else []) ++
        (if options.ignoreStorage then ["/storage/"] else []))
      settings.excludedPaths
  maxFileSize := options.maxFileSize

/-- Does the file name have the extension, whatever the case, and something in front of it? Dots in
    front of the extension do not count. -/
def hasExtension (name : List Char) (extension : String) : Bool :=
  let ending := '.' :: lowerAscii (extension.toList.dropWhile (· == '.'))
  ending.length < name.length && ending.isSuffixOf (lowerAscii name)

/-- Does the path have one of the extensions (`has_allowed_extension`)? -/
def allowsExtension (f : FileFilter) (path : String) : Bool :=
  let name := (Path.fileName? path).getD []
  f.extensions.any (hasExtension name)

/-- The path with slashes only, and with exactly one at either end. -/
def enclosed (path : String) : List Char :=
  let chars := (Path.normalize path).toList
  let inner := ((chars.dropWhile (· == '/')).reverse.dropWhile (· == '/')).reverse
  '/' :: inner ++ ['/']

/-- Does a part that is left out occur in the path (`is_excluded`)? -/
def excludes (f : FileFilter) (path : String) : Bool :=
  f.excluded.any fun part => mentions part (enclosed path)

/-- Is a file of this path and size looked at? -/
def accepts (f : FileFilter) (path : String) (size : Nat) : Bool :=
  f.allowsExtension path && !f.excludes path && size ≤ f.maxFileSize

end FileFilter

end CodeAudit
