import CodeAudit.Scan.Analysis

/-!
# Scans of all files of a directory

The files below a directory are found first and analysed then. The workers that share them may take
their steps in any order; the outcome is in the order of the walk and covers all files, or the scan
is cancelled.
-/

namespace CodeAudit

/-! ## Merged outcomes -/

/-- The outcome of several files, before it is summed up. -/
structure RawScan where
  issues : List Issue := []
  filesScanned : Nat := 0
  throughput : Throughput := {}

namespace RawScan

/-- Two outcomes together (`RawScan::merge`). -/
def merge (a b : RawScan) : RawScan where
  issues := a.issues ++ b.issues
  filesScanned := a.filesScanned + b.filesScanned
  throughput := a.throughput.merge b.throughput

/-- The outcome of files. -/
def ofOutcomes (outcomes : List FileOutcome) : RawScan where
  issues := outcomes.flatMap FileOutcome.issues
  filesScanned := outcomes.length
  throughput := outcomes.foldl (fun sum o => sum.merge o.throughput) {}

/-- The outcome as a result. -/
def toResult (r : RawScan) : ScanResult :=
  ScanResult.ofIssues r.issues r.filesScanned r.throughput

end RawScan

/-! ## Workers -/

/-- What the workers have done. -/
structure WorkState where
  /-- The files that a worker has taken. -/
  taken : List Nat := []
  /-- Was a file refused because the scan is cancelled? -/
  refused : Bool := false
  /-- The files that are analysed. -/
  analyzed : List (Nat × FileOutcome) := []
  /-- The files that are counted and reported, the last first. -/
  finished : List (Nat × FileOutcome) := []

namespace WorkState

/-- The number of issues so far. -/
def issueCount (w : WorkState) : Nat :=
  w.finished.foldr (fun entry count => entry.2.issues.length + count) 0

/-- The outcomes of all files in their order, if all are done. -/
def outcomes? (w : WorkState) (files : Nat) : Option (List FileOutcome) :=
  if w.refused then none else (List.range files).mapM fun i => w.finished.lookup i

end WorkState

namespace Session

/-- Where the search for files ends (`DISCOVERY_END`). -/
def discoveryEnd : Nat := 15

/-- Where the analysis of files ends (`ANALYSIS_END`). -/
def analysisEnd : Nat := 85

/-- The event for a file that is done. -/
def analyzedEvent (path : String) (processed total issues : Nat) : ProgressEvent :=
  (ProgressEvent.make .analyzing (band discoveryEnd analysisEnd processed total)
    ("Analyzed " ++ path)).withFile path |>.withCounts processed total issues

/-- One step of a worker. A file is analysed by a worker that has taken it, and counted once. -/
def workStep (s : Session) (categories : List Category) (files : List String)
    (place : ProgressEvent → ProgressEvent) (w : WorkState) : WorkStep → Scan WorkState
  | .check i => do
    if ← Scan.isCancelled s then return { w with refused := true }
    else return { w with taken := i :: w.taken }
  | .analyze i =>
    match files[i]? with
    | none => return w
    | some path =>
      if w.taken.contains i then
        return { w with analyzed := (i, s.analyzeFile categories path) :: w.analyzed }
      else return w
  | .finish i =>
    match files[i]?, w.analyzed.lookup i with
    | some path, some outcome =>
      if (w.finished.lookup i).isNone then do
        let w := { w with finished := (i, outcome) :: w.finished }
        Scan.report (place (analyzedEvent path w.finished.length files.length w.issueCount))
        return w
      else return w
    | _, _ => return w

/-- The steps of the workers: those of a single one unless files may be analysed side by side. -/
def schedule (s : Session) (reported files : Nat) : List WorkStep :=
  if s.settings.scan.parallel then s.workers reported files else WorkStep.sequential files

/-- Analyses files. The scan is cancelled unless all files are done. -/
def analyzeAll (s : Session) (categories : List Category) (files : List String)
    (place : ProgressEvent → ProgressEvent) : Scan (List FileOutcome) := do
  let log ← get
  let steps := s.schedule log.reported.length files.length
  let w ← steps.foldlM (s.workStep categories files place) {}
  match w.outcomes? files.length with
  | none => throw .cancelled
  | some outcomes => return outcomes

/-- Finds and analyses the files of a directory (`scan_raw`). Events are reported as `place` puts
    them. -/
def scanTree (s : Session) (categories : List Category) (filter : FileFilter) (dir : String)
    (place : ProgressEvent → ProgressEvent) : Scan RawScan := do
  Scan.check s
  Scan.report (place (.make .discovering 0 "Discovering files"))
  let files ← (s.disk.collect? filter dir : Except ScanError (List String))
  let total := files.length
  Scan.report <| place <|
    (ProgressEvent.make .discovering discoveryEnd
      ("Found " ++ toString total ++ " files")).withCounts 0 total 0
  return .ofOutcomes (← s.analyzeAll categories files place)

/-- Goes on with a path that is there and passes a test. -/
def requireTarget (s : Session) (path : String) (isRight : Bool) (reason : String) :
    Scan Unit := do
  if !s.disk.exists? path then throw (.pathNotFound path)
  if !isRight then throw (.invalidTarget path reason)

/-- Scans a directory (`DirectoryScanner::scan`). -/
def scanDirectory (s : Session) (dir : String) (requested : List String)
    (options : ScanOptions) : Scan ScanResult := do
  Scan.report (.make .initializing 0 "Starting directory scan")
  s.requireTarget dir (s.disk.isDir dir) "expected a directory"
  let categories ← (Category.resolve requested : Except ScanError (List Category))
  let raw ← s.scanTree categories (.ofOptions options s.settings.scan) dir id
  let files := raw.filesScanned
  let found := raw.issues.length
  Scan.report ((ProgressEvent.make .aggregating analysisEnd "Summarizing results").withCounts
    files files found)
  Scan.report ((ProgressEvent.make .completed 100 "Directory scan complete").withCounts
    files files found)
  return raw.toResult

end Session

end CodeAudit
