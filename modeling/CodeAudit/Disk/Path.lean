import CodeAudit.Text.Find

/-!
# Paths

A path is a text with slashes. Its components leave out empty segments and the segment `.`, except
for a leading `.`, so two spellings of a path may have the same components. The functions below
look only at the text: what exists on a disk is not their concern.
-/

namespace CodeAudit.Path

open Text

/-- Segments between slashes. -/
def segments (path : String) : List (List Char) :=
  splitAt '/' path.toList

/-- Is the path given from the root? -/
def isAbsolute (path : String) : Bool :=
  beginsWith "/" path.toList

/-- Segments that name something: neither empty nor `.`. -/
def names (path : String) : List (List Char) :=
  (segments path).filter fun s => !s.isEmpty && s ≠ ['.']

/-- Components of a path: the root if it is absolute, a leading `.` if it is not, and its names. -/
def components (path : String) : List (List Char) :=
  if isAbsolute path then ['/'] :: names path
  else if (segments path).head? = some ['.'] then ['.'] :: names path
  else names path

/-- The last component, if it names an entry of a directory. -/
def fileName? (path : String) : Option (List Char) :=
  match (names path).getLast? with
  | none => none
  | some name => if name = ['.', '.'] then none else some name

/-- The path below a directory. An absolute path stays as it is. -/
def join (base path : String) : String :=
  if isAbsolute path || base.isEmpty then path
  else if endsWith "/" base.toList then base ++ path
  else base ++ "/" ++ path

/-- The path with slashes in place of backslashes (`normalize_path`). -/
def normalize (path : String) : String :=
  String.ofList (path.toList.map fun c => if c = '\\' then '/' else c)

end CodeAudit.Path
