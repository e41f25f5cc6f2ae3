import CodeAudit.Disk.Path
import CodeAudit.Text.Bytes
import CodeAudit.Text.Utf8

/-!
# Files, directories and links

A disk is a tree of files, directories and symbolic links, with a current directory. Paths are
texts; a path is resolved name by name, and links on the way are followed. At most forty links are
followed for one path. The entries of a directory may be kept from whoever asks for them: then
paths still lead through it, but it cannot be listed.
-/

namespace CodeAudit

open Text

/-- A file, a directory or a symbolic link. -/
inductive DiskNode where
  | file (bytes : List UInt8)
  | dir (children : List (String × DiskNode))
  | link (target : String)
  deriving Inhabited

/-- Names from the root down to a place. -/
abbrev Location := List String

/-- Why a path leads nowhere. -/
inductive DiskError where
  | notFound
  | notDirectory
  | isDirectory
  | tooManyLinks
  | denied
  deriving DecidableEq, Repr

/-- The text of an error. -/
def DiskError.message : DiskError → String
  | notFound => "No such file or directory (os error 2)"
  | notDirectory => "Not a directory (os error 20)"
  | isDirectory => "Is a directory (os error 21)"
  | tooManyLinks => "Too many levels of symbolic links (os error 40)"
  | denied => "Permission denied (os error 13)"

namespace DiskNode

/-- What stands at a place below a node. Links are not followed. -/
def at? (node : DiskNode) : Location → Option DiskNode
  | [] => some node
  | name :: rest =>
    match node with
    | dir children => (children.lookup name).bind fun child => child.at? rest
    | _ => none

/-- Puts a node at a place below a node. Directories that are missing on the way are made. -/
def insert (new node : DiskNode) : Location → DiskNode
  | [] => new
  | name :: rest =>
    let children :=
      match node with
      | dir children => children
      | _ => []
    match children.lookup name with
    | none => dir (children ++ [(name, new.insert (dir []) rest)])
    | some child =>
      dir (children.map fun entry =>
        if entry.1 = name then (name, new.insert child rest) else entry)

mutual

/-- The number of directories in a tree. -/
def dirCount : DiskNode → Nat
  | dir children => dirCountAll children + 1
  | _ => 0

/-- The number of directories in the trees of a directory. -/
def dirCountAll : List (String × DiskNode) → Nat
  | [] => 0
  | (_, node) :: rest => dirCount node + dirCountAll rest

end

end DiskNode

/-- A tree of files with a current directory. -/
structure Disk where
  root : DiskNode
  cwd : Location
  /-- The directories whose entries cannot be listed. -/
  unlistable : List Location := []

namespace Disk

/-- How many links are followed for one path. -/
def maxLinks : Nat := 40

/-- The place that names lead to from a place, with at most `links` links on the way. With `creates`
    the last name need not be there. -/
def follow (root : DiskNode) (creates : Bool) (links : Nat) (here : Location)
    (names : List String) : Except DiskError Location :=
  match names with
  | [] => .ok here
  | name :: rest =>
    match root.at? here with
    | some (.dir children) =>
      if name = "" || name = "." then follow root creates links here rest
      else if name = ".." then follow root creates links here.dropLast rest
      else
        match children.lookup name with
        | none => if creates && rest.isEmpty then .ok (here ++ [name]) else .error .notFound
        | some (.link target) =>
          match links with
          | 0 => .error .tooManyLinks
          | links + 1 =>
            follow root creates links (if Path.isAbsolute target then [] else here)
              ((Path.segments target).map String.ofList ++ rest)
        | some _ => follow root creates links (here ++ [name]) rest
    | _ => .error .notDirectory
termination_by (links, names.length)

/-- The place that a path leads to. -/
def locate (disk : Disk) (path : String) (creates : Bool) : Except DiskError Location :=
  if path = "" then .error .notFound
  else
    follow disk.root creates maxLinks (if Path.isAbsolute path then [] else disk.cwd)
      ((Path.segments path).map String.ofList)

/-- The place that a path leads to and what stands there. -/
def find? (disk : Disk) (path : String) : Option (Location × DiskNode) :=
  match disk.locate path false with
  | .error _ => none
  | .ok location => (disk.root.at? location).map fun node => (location, node)

/-- Does the path lead somewhere? -/
def exists? (disk : Disk) (path : String) : Bool :=
  (disk.find? path).isSome

/-- Does the path lead to a file? -/
def isFile (disk : Disk) (path : String) : Bool :=
  match disk.find? path with
  | some (_, .file _) => true
  | _ => false

/-- Does the path lead to a directory? -/
def isDir (disk : Disk) (path : String) : Bool :=
  match disk.find? path with
  | some (_, .dir _) => true
  | _ => false

/-- Can the entries of the directory at a place be listed? -/
def lists (disk : Disk) (location : Location) : Bool :=
  !disk.unlistable.contains location

/-- Is it a link that the last name of a path stands for? -/
def isLink (disk : Disk) (path : String) : Bool :=
  let names := (Path.segments path).map String.ofList
  let start := if Path.isAbsolute path then [] else disk.cwd
  match follow disk.root false maxLinks start names.dropLast, names.getLast? with
  | .ok here, some name =>
    match disk.root.at? (here ++ [name]) with
    | some (.link _) => true
    | _ => false
  | _, _ => false

/-- The size that is given for a directory. -/
def dirSize : Nat := 4096

/-- The size of what a path leads to. -/
def size? (disk : Disk) (path : String) : Option Nat :=
  (disk.find? path).map fun (_, node) =>
    match node with
    | .file bytes => bytes.length
    | .dir _ => dirSize
    | .link target => byteLength target.toList

/-- The bytes of the file that a path leads to. -/
def read (disk : Disk) (path : String) : Except DiskError (List UInt8) := do
  match disk.root.at? (← disk.locate path false) with
  | some (.file bytes) => return bytes
  | some (.dir _) => throw .isDirectory
  | _ => throw .notFound

/-- The text of the file that a path leads to (`FsLoader::load`). What is not UTF-8 is replaced. -/
def load (disk : Disk) (path : String) : Except String (List Char) :=
  match disk.read path with
  | .ok bytes => .ok (decodeLossy bytes)
  | .error e => .error e.message

/-- Writes a file, which need not be there. -/
def write (disk : Disk) (path : String) (bytes : List UInt8) : Except DiskError Disk := do
  let location ← disk.locate path true
  match disk.root.at? location with
  | some (.dir _) => throw .isDirectory
  | _ => return { disk with root := (DiskNode.file bytes).insert disk.root location }

/-- The path of the current directory. -/
def cwdPath (disk : Disk) : String :=
  if disk.cwd.isEmpty then "/" else String.join (disk.cwd.map ("/" ++ ·))

end Disk

end CodeAudit
