import CodeAudit.Command.Run

/-!
# The command line program

Reads what a command needs from the system, runs the command, and prints what it gives. No grammar
is linked in: checks that look at syntax trees see an empty program.
-/

namespace CodeAudit.Program

/-- How deep trees are read. -/
def maxDepth : Nat := 256

/-- How often links to places that have not been read are followed. -/
def maxRounds : Nat := 8

/-- The text that explains the commands. -/
def usage : String :=
  "Static analysis for Laravel code bases\n\n" ++
  "Usage: larascan [OPTIONS] [COMMAND]\n\n" ++
  "Commands:\n" ++
  "  scan   Scan a file, a directory or a whole project\n" ++
  "  rules  List every rule with its default severity\n" ++
  "  init   Write a default larascan.toml into the current directory\n"

/-- The path without links of a place that is there. -/
def realPath? (path : String) : IO (Option String) := do
  try
    return some (← IO.FS.realPath path).toString
  catch _ => return none

/-- The names on the way to an absolute path. -/
def locationOf (path : String) : Location :=
  (Path.names path).map String.ofList

/-- The names of the entries of a directory that can be listed. -/
def entryNames? (path : String) : IO (Option (List String)) := do
  try
    let place ← IO.FS.realPath path
    return some ((← place.readDir).toList.map (·.fileName))
  catch _ => return none

/-- Reads the tree at a path down to a depth, and notes the directories that cannot be listed. What
    cannot be read is left out. -/
def readTree : Nat → String → StateT (List Location) IO (Option DiskNode)
  | 0, _ => return none
  | depth + 1, path => do
    try
      let place ← IO.FS.realPath path
      if ← place.isDir then
        match ← entryNames? path with
        | none =>
          modify (locationOf place.toString :: ·)
          return some (.dir [])
        | some names =>
          let mut children := []
          for name in names do
            let inner := place.toString ++ "/" ++ name
            let real ← realPath? inner
            if real == some inner then
              match ← readTree depth inner with
              | none => pure ()
              | some node => children := (name, node) :: children
            else
              children := real.toList.map (fun target => (name, .link target)) ++ children
          return some (.dir children)
      else
        return some (.file (← IO.FS.readBinFile place).toList)
    catch _ => return none

mutual

/-- Where the links of a tree lead. -/
def linkTargets : DiskNode → List String
  | .file _ => []
  | .link target => [target]
  | .dir children => linkTargetsAll children

/-- Where the links of the trees of a directory lead. -/
def linkTargetsAll : List (String × DiskNode) → List String
  | [] => []
  | (_, node) :: rest => linkTargets node ++ linkTargetsAll rest

end

/-- Reads paths into a tree, and then the places that their links lead to. -/
def readPaths : Nat → DiskNode → List String → StateT (List Location) IO DiskNode
  | 0, root, _ => return root
  | rounds + 1, root, paths => do
    let mut root := root
    let mut found := []
    for path in paths do
      match ← realPath? path with
      | none => pure ()
      | some real =>
        if (root.at? (locationOf real)).isNone then
          match ← readTree maxDepth real with
          | none => pure ()
          | some node =>
            root := node.insert root (locationOf real)
            found := linkTargets node ++ found
    if found.isEmpty then return root else readPaths rounds root found

/-- The paths that a command looks at. -/
def pathsOf : Command.Action → List String
  | .scan a => Settings.fileName :: a.target :: a.paths.map (Path.join a.target)
  | _ => [Settings.fileName]

/-- The part of the system's disk that a command looks at. -/
def diskFor (command : Command.Action) : IO Disk := do
  let cwd := locationOf (← IO.FS.realPath (← IO.currentDir)).toString
  let empty := (DiskNode.dir []).insert (.dir []) cwd
  let (root, unlistable) ← (readPaths maxRounds empty (pathsOf command)).run []
  return { root, cwd, unlistable }

/-- Every text is an empty program. -/
def emptyGrammar : Grammar := fun _ =>
  (SyntaxTree.Node.ofEntries? [⟨0, {
    kind := "program"
    isNamed := true
    isError := false
    isMissing := false
    hasError := false
    start := ⟨0, 0, 0⟩
    stop := ⟨0, 0, 0⟩
    field := none }⟩]).elim (.error .noTree) .ok

/-- Runs a command and prints what it gives. -/
def perform (verbose : Bool) (command : Command.Action) : IO UInt32 := do
  let began ← IO.monoMsNow
  let disk ← diskFor command
  let stdout ← IO.getStdout
  let style : Report.Style := { colored := ← stdout.isTty, verbose }
  let outcome := Command.run disk emptyGrammar style command
  match outcome.result with
  | .error failure =>
    IO.eprintln ("Error: " ++ failure.fullMessage)
    return (Exit.ofFailure failure).code.toUInt32
  | .ok exit =>
    if command == .init then
      match outcome.disk.read Settings.fileName with
      | .ok bytes => IO.FS.writeBinFile Settings.fileName (ByteArray.mk bytes.toArray)
      | .error _ => pure ()
    let ended ← IO.monoMsNow
    stdout.putStr (outcome.output (.ofMilliseconds (ended - began)))
    return exit.code.toUInt32

end CodeAudit.Program

/-- The command line program. -/
def main (words : List String) : IO UInt32 := do
  match CodeAudit.Command.parse words with
  | .error e =>
    if e.exitCode == 0 then IO.print CodeAudit.Program.usage
    else IO.eprint CodeAudit.Program.usage
    return e.exitCode.toUInt32
  | .ok { verbose, command } =>
    match command with
    | none =>
      IO.print CodeAudit.Program.usage
      return 0
    | some command => CodeAudit.Program.perform verbose command
