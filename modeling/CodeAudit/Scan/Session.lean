import CodeAudit.Check.Suite
import CodeAudit.Result.Basic
import CodeAudit.Scan.Progress
import CodeAudit.Settings.Basic
import CodeAudit.Walk.Files

/-!
# Sessions

What a scan works with, and what it leaves behind besides its result. A scan can be cancelled at any
moment; it looks at that when it checks, and once cancelled it stays so.
-/

namespace CodeAudit

/-- A step of the workers that share the files of a directory, which are numbered from zero: a
    worker checks whether the scan is cancelled before it takes a file, analyses the file, and
    counts and reports it when it is done. -/
inductive WorkStep where
  | check (file : Nat)
  | analyze (file : Nat)
  | finish (file : Nat)
  deriving DecidableEq, Repr

/-- The steps of a single worker. -/
def WorkStep.sequential (files : Nat) : List WorkStep :=
  (List.range files).flatMap fun i => [.check i, .analyze i, .finish i]

/-- What a scan works with (`ScanSettings`). -/
structure Session where
  disk : Disk
  settings : Settings
  grammar : Grammar
  /-- The text of a file, or why it cannot be read. -/
  load : String → Except String (List Char)
  /-- Why the suite of a category breaks off on a file before a window does not fit, if it does. -/
  breaksOff : Category → Subject → Option String := fun _ _ => none
  /-- Is the scan cancelled after these numbers of reported events and of checks? -/
  cancels : Nat → Nat → Bool := fun _ _ => false
  /-- The steps of workers side by side, after a number of reported events, for a number of
      files. -/
  workers : Nat → Nat → List WorkStep := fun _ => WorkStep.sequential

/-- The session on a disk, which is never cancelled. -/
def Session.onDisk (disk : Disk) (settings : Settings) (grammar : Grammar) : Session where
  disk
  settings
  grammar
  load := disk.load

/-- What a scan has done so far. -/
structure ScanLog where
  /-- The reported events, the newest first. -/
  reported : List ProgressEvent := []
  checks : Nat := 0
  cancelled : Bool := false

/-- The reported events in order. -/
def ScanLog.events (log : ScanLog) : List ProgressEvent := log.reported.reverse

/-- A step of a scan, which may fail and which keeps a log. -/
abbrev Scan := ExceptT ScanError (StateM ScanLog)

namespace Scan

/-- Reports an event (`ProgressSink::report`). -/
def report (e : ProgressEvent) : Scan Unit :=
  modify fun log => { log with reported := e :: log.reported }

/-- Is the scan cancelled by now (`is_cancelled`)? -/
def isCancelled (s : Session) : Scan Bool := do
  let log ← get
  let cancelled := log.cancelled || s.cancels log.reported.length log.checks
  set { log with checks := log.checks + 1, cancelled }
  return cancelled

/-- Goes on unless the scan is cancelled (`CancellationToken::check`). -/
def check (s : Session) : Scan Unit := do
  if ← isCancelled s then throw .cancelled

/-- Runs a scan on a log. -/
def runFrom {α : Type} (scan : Scan α) (log : ScanLog) : Except ScanError α × ScanLog :=
  (ExceptT.run scan : StateM ScanLog _) log

/-- Runs a scan from the start. -/
def run {α : Type} (scan : Scan α) : Except ScanError α × ScanLog :=
  scan.runFrom {}

end Scan

end CodeAudit
