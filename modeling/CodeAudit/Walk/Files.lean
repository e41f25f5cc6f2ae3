import CodeAudit.Check.Subject
import CodeAudit.Disk.Node
import CodeAudit.Error
import CodeAudit.Walk.Filter

/-!
# Walks

A walk visits all files below a root. The entries of a directory come in the order of their names,
and a directory is entered at its place. Links are followed; a link that leads back to a directory
that is being walked, or nowhere, is passed over, and so is a directory that cannot be listed. Every
file is given once, by the first path that leads to it. Only a root that cannot be listed is an
error.
-/

namespace CodeAudit

/-- A file that a walk met. -/
structure WalkedFile where
  path : String
  location : Location
  size : Nat
  deriving DecidableEq, Repr

namespace Disk

/-- Entries in the order of their names. -/
def sortByName {α : Type} (entries : List (String × α)) : List (String × α) :=
  entries.mergeSort fun a b => !decide (b.1 < a.1)

mutual

/-- The files of a tree at a path and a place. `enters` tells which directories are entered (those
    that `keep_entry` keeps), `lists` which can be listed, `stack` holds the directories being
    walked, and `jump` walks what a link leads to. -/
def visit (enters : String → Bool) (lists : Location → Bool)
    (jump : List Location → String → List WalkedFile) (stack : List Location) (path : String)
    (location : Location) : DiskNode → List WalkedFile
  | .file bytes => [⟨path, location, bytes.length⟩]
  | .link _ => jump stack path
  | .dir children =>
    if enters path && lists location then
      (sortByName (visitAll enters lists jump (location :: stack) path location children)).flatMap
        (·.2)
    else []

/-- The files below every entry of a directory, under the name of the entry. -/
def visitAll (enters : String → Bool) (lists : Location → Bool)
    (jump : List Location → String → List WalkedFile) (stack : List Location) (path : String)
    (location : Location) : List (String × DiskNode) → List (String × List WalkedFile)
  | [] => []
  | (name, node) :: rest =>
    (name, visit enters lists jump stack (Path.join path name) (location ++ [name]) node) ::
      visitAll enters lists jump stack path location rest

end

/-- The files that a path leads to, with at most `jumps` links to directories on the way. -/
def walkPath (disk : Disk) (enters : String → Bool) :
    Nat → List Location → String → List WalkedFile
  | 0, _, _ => []
  | jumps + 1, stack, path =>
    match disk.find? path with
    | none => []
    | some (location, node) =>
      if stack.contains location then []
      else visit enters disk.lists (walkPath disk enters jumps) stack path location node

/-- All files below a root, entering only the directories that pass a test. No directory is walked
    inside of itself, so the links on the way to a file are no more than the directories; with more
    jumps the walk would meet the same files (`walkPath_eq_walk`). -/
def walk (disk : Disk) (enters : String → Bool) (root : String) : List WalkedFile :=
  walkPath disk enters (disk.root.dirCount + 1) [] root

/-- The files below a root that a filter accepts, each under its first path: what `FileWalker::walk`
    yields and `FileWalker::count` counts. Directories that the filter leaves out are not
    entered. -/
def candidates (disk : Disk) (filter : FileFilter) (root : String) : List String :=
  let met := disk.walk (fun path => !filter.excludes path) root
  let accepted := met.filter fun file => filter.accepts file.path file.size
  firstPerKey [] (accepted.map fun file => (file.location, file.path))

/-- The files below a root that must be there, as `FileWalker::new` asks. -/
def candidates? (disk : Disk) (filter : FileFilter) (root : String) :
    Except ScanError (List String) :=
  if disk.exists? root then .ok (disk.candidates filter root) else .error (.pathNotFound root)

/-- The error of a walk at its root, which `handle_walk_error` lets through: the root is a directory
    that cannot be listed. Nobody asks for the entries of a root that the filter leaves out, but a
    link is opened to look for loops before the filter sees it, and that error names no path. -/
def walkError? (disk : Disk) (filter : FileFilter) (root : String) : Option ScanError :=
  match disk.find? root with
  | some (location, .dir _) =>
    if disk.lists location then none
    else if disk.isLink root then some (.walk DiskError.denied.message)
    else if filter.excludes root then none
    else some (.walk ("IO error for operation on " ++ root ++ ": " ++ DiskError.denied.message))
  | _ => none

/-- The files below a root that must be there and, if it is a directory that is entered, must be
    listable: `FileWalker::collect`. -/
def collect? (disk : Disk) (filter : FileFilter) (root : String) :
    Except ScanError (List String) := do
  let files ← disk.candidates? filter root
  match disk.walkError? filter root with
  | some error => throw error
  | none => return files

/-- Is the file at a path looked at (`accepts_file`)? -/
def acceptsFile (disk : Disk) (filter : FileFilter) (path : String) : Bool :=
  match disk.size? path with
  | none => false
  | some size => filter.accepts path size

end Disk

end CodeAudit
