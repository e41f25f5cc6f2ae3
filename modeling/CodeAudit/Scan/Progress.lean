import CodeAudit.Json.Basic
import CodeAudit.Word

/-!
# Progress

A scan reports events with a percentage. Parts of a scan have slices of the way from 0 to 100:
`band` places a count inside a slice, and a `ProgressSlice` maps the whole way of a nested scan into
the slice of its parent.
-/

namespace CodeAudit

/-- Where a scan is. -/
inductive ScanPhase where
  | initializing
  | discovering
  | analyzing
  | aggregating
  | completed
  | failed
  deriving DecidableEq, Repr

namespace ScanPhase

/-- The written name. -/
def name : ScanPhase → String
  | initializing => "initializing"
  | discovering => "discovering"
  | analyzing => "analyzing"
  | aggregating => "aggregating"
  | completed => "completed"
  | failed => "failed"

/-- The phase of a name. -/
def ofName? : String → Option ScanPhase
  | "initializing" => some initializing
  | "discovering" => some discovering
  | "analyzing" => some analyzing
  | "aggregating" => some aggregating
  | "completed" => some completed
  | "failed" => some failed
  | _ => none

/-- Place in the order of phases. Both ends of a scan come last. -/
def rank : ScanPhase → Nat
  | initializing => 0
  | discovering => 1
  | analyzing => 2
  | aggregating => 3
  | completed => 4
  | failed => 4

/-- Is the scan over? -/
def isTerminal : ScanPhase → Bool
  | completed => true
  | failed => true
  | _ => false

end ScanPhase

/-- How far a scan is. -/
structure ProgressEvent where
  percentage : Nat
  message : String
  phase : ScanPhase
  file : Option String := none
  filesProcessed : Nat := 0
  totalFiles : Nat := 0
  issuesFound : Nat := 0
  deriving DecidableEq, Repr

namespace ProgressEvent

/-- An event without a file and without counts. Percentages stop at 100. -/
def make (phase : ScanPhase) (percentage : Nat) (message : String) : ProgressEvent where
  percentage := min percentage 100
  message
  phase

/-- The event with the file that it is about (`with_file`). -/
def withFile (e : ProgressEvent) (path : String) : ProgressEvent :=
  { e with file := some path }

/-- The event with counts (`with_counts`). -/
def withCounts (e : ProgressEvent) (processed total issues : Nat) : ProgressEvent :=
  { e with filesProcessed := processed, totalFiles := total, issuesFound := issues }

/-- The event as JSON. A missing file is left out. -/
def toJson (e : ProgressEvent) : Json :=
  .obj <|
    [("percentage", .nat e.percentage), ("message", .str e.message),
      ("phase", .str e.phase.name)] ++
    (match e.file with
      | none => []
      | some path => [("current_file", .str path)]) ++
    [("files_processed", .nat e.filesProcessed), ("total_files", .nat e.totalFiles),
      ("issues_found", .nat e.issuesFound)]

end ProgressEvent

/-! ## Slices -/

/-- The percentage of `done` out of `total` inside a slice. -/
def band (start stop done total : Nat) : Nat :=
  if total = 0 then stop else start + (stop - start) * min done total / total

/-- The percentage of `done` out of `total` inside a slice, in words: none if the product does not
    fit in 64 bits, or the sum not in 8. An offset that does not fit in 8 bits is the whole
    slice. -/
def band? (start stop done total : Nat) : Option Nat :=
  if total = 0 then some stop
  else do
    let product ← Word.fit? Word.bound64 ((stop - start) * min done total)
    let offset := (Word.fit? Word.bound8 (product / total)).getD (stop - start)
    Word.fit? Word.bound8 (start + offset)

/-- A slice of the way from 0 to 100 (`ScaledProgress`). -/
structure ProgressSlice where
  start : Nat
  stop : Nat
  start_le_stop : start ≤ stop
  stop_le : stop ≤ 100

namespace ProgressSlice

/-- The slice between two percentages (`ScaledProgress::new`). Ends beyond 100 are cut, and the
    second is at least the first. -/
def between (start stop : Nat) : ProgressSlice where
  start := min start 100
  stop := max (min start 100) (min stop 100)
  start_le_stop := by omega
  stop_le := by omega

/-- The place of a percentage of the nested scan (`ScaledProgress::scale`). -/
def scale (s : ProgressSlice) (percentage : Nat) : Nat :=
  s.start + (s.stop - s.start) * min percentage 100 / 100

/-- An event of a nested scan, as the parent reports it: the parent is still analysing. -/
def place (s : ProgressSlice) (e : ProgressEvent) : ProgressEvent :=
  { e with percentage := s.scale e.percentage, phase := .analyzing }

end ProgressSlice

end CodeAudit
