import CodeAudit.Scan.Codebase

/-!
# Runs

A request is run as its kind asks for. A run that fails reports the failure as its last event.
-/

namespace CodeAudit.Session

/-- Scans a single file (`FileScanner::scan`). -/
def scanFile (s : Session) (path : String) (requested : List String) (options : ScanOptions) :
    Scan ScanResult := do
  Scan.report (.make .initializing 0 "Starting file scan")
  s.requireTarget path (s.disk.isFile path) "expected a file"
  s.requireTarget path (s.disk.acceptsFile (.ofOptions options s.settings.scan) path)
    "file is excluded, too large or has an unsupported extension"
  let categories ← (Category.resolve requested : Except ScanError (List Category))
  Scan.report ((ProgressEvent.make .discovering 10 "File validated").withFile path)
  Scan.check s
  Scan.report <|
    (ProgressEvent.make .analyzing 30 "Analyzing file").withFile path |>.withCounts 0 1 0
  let raw := RawScan.ofOutcomes [s.analyzeFile categories path]
  let found := raw.issues.length
  Scan.report ((ProgressEvent.make .aggregating 80 "Summarizing results").withCounts 1 1 found)
  Scan.report ((ProgressEvent.make .completed 100 "File scan complete").withCounts 1 1 found)
  return raw.toResult

/-- The scan that a request asks for. -/
def scanRequest (s : Session) (r : ScanRequest) : Scan ScanResult :=
  match r.kind with
  | .file => s.scanFile r.target r.categories r.options
  | .directory => s.scanDirectory r.target r.categories r.options
  | .codebase => s.scanCodebase r.target s.settings.scan.defaultPaths r.categories r.options

/-- Runs a request (`run_job`). -/
def run (s : Session) (r : ScanRequest) : Except ScanError ScanResult × ScanLog :=
  Scan.run <| tryCatch (s.scanRequest r) fun e => do
    Scan.report (.make .failed 100 e.message)
    throw e

end CodeAudit.Session
