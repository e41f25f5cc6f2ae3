import CodeAudit.Scan.Directory

/-!
# Scans of code bases

A code base is scanned from several roots below its base, one after the other. Each root has a slice
of the progress as large as its share of the files.
-/

namespace CodeAudit.Session

/-- Where the start ends (`INIT_END`). -/
def initEnd : Nat := 10

/-- Where counting ends (`COUNT_END`). -/
def countEnd : Nat := 35

/-- Where scanning ends (`SCAN_END`). -/
def scanEnd : Nat := 75

/-- The roots below a base: those of the given paths that are directories, or the base if no path is
    given (`resolve_roots`). -/
def roots (s : Session) (base : String) (paths : List String) : List String :=
  if paths.isEmpty then [base]
  else (paths.map (Path.join base)).filter s.disk.isDir

/-- The sum of the numbers of files. -/
def totalCount (counts : List Nat) : Nat :=
  counts.foldr (· + ·) 0

/-- Counts the files below the roots (`count_candidates`). -/
def countFiles (s : Session) (filter : FileFilter) (roots : List String) : Scan (List Nat) :=
  roots.foldlM
    (fun counts root => do
      let files ← (s.disk.candidates? filter root : Except ScanError (List String))
      let counts := counts ++ [files.length]
      Scan.report <|
        (ProgressEvent.make .discovering (band initEnd countEnd counts.length roots.length)
          ("Counted " ++ toString files.length ++ " files in " ++ root)).withCounts
          0 (totalCount counts) 0
      return counts)
    []

/-- The ends of the slice of a root: by the files that come before it and its own, or by its place
    if there are no files at all. -/
def sliceOf (place roots done count total : Nat) : Nat × Nat :=
  if total = 0 then (band countEnd scanEnd place roots, band countEnd scanEnd (place + 1) roots)
  else (band countEnd scanEnd done total, band countEnd scanEnd (done + count) total)

/-- What the roots scanned so far have given. -/
structure Merged where
  raw : RawScan := {}
  /-- The number of roots. -/
  roots : Nat := 0
  /-- The number of files that were counted below them. -/
  counted : Nat := 0

/-- Scans one root. -/
def scanRoot (s : Session) (categories : List Category) (filter : FileFilter) (roots total : Nat)
    (merged : Merged) (root : String × Nat) : Scan Merged := do
  Scan.check s
  let (start, stop) := sliceOf merged.roots roots merged.counted root.2 total
  let raw ← s.scanTree categories filter root.1 (ProgressSlice.between start stop).place
  let raw := merged.raw.merge raw
  Scan.report <|
    (ProgressEvent.make .analyzing stop ("Finished " ++ root.1)).withCounts
      raw.filesScanned total raw.issues.length
  return { raw, roots := merged.roots + 1, counted := merged.counted + root.2 }

/-- Scans a code base from paths below its base (`CodebaseScanner::scan`). -/
def scanCodebase (s : Session) (base : String) (paths : List String) (requested : List String)
    (options : ScanOptions) : Scan ScanResult := do
  Scan.report (.make .initializing 0 "Starting codebase scan")
  s.requireTarget base (s.disk.isDir base) "expected a project directory"
  let categories ← (Category.resolve requested : Except ScanError (List Category))
  let filter := FileFilter.ofOptions options s.settings.scan
  let roots := s.roots base paths
  Scan.report <|
    .make .initializing initEnd ("Scanning " ++ toString roots.length ++ " path(s)")
  let counts ← s.countFiles filter roots
  let total := totalCount counts
  let merged ← (roots.zip counts).foldlM (s.scanRoot categories filter roots.length total) {}
  let files := merged.raw.filesScanned
  let found := merged.raw.issues.length
  Scan.report ((ProgressEvent.make .aggregating scanEnd "Merging results").withCounts
    files total found)
  Scan.report ((ProgressEvent.make .completed 100 "Codebase scan complete").withCounts
    files files found)
  return merged.raw.toResult

end CodeAudit.Session
