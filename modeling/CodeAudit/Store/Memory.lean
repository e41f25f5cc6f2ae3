import CodeAudit.Store.Basic

/-!
# Stores in memory

A store that keeps all scans in memory. A scan must be started before anything else is kept of it,
and starting it again forgets what was kept.
-/

namespace CodeAudit

/-- How far a stored scan is. -/
inductive ScanStatus where
  | running
  | completed
  | failed
  deriving DecidableEq, Repr

/-- What is kept of a scan. -/
structure StoredScan where
  status : ScanStatus := .running
  issues : List Issue := []
  statistics : Option ScanStatistics := none
  error : Option String := none

/-- What becomes of a started scan by a call. -/
def StoredScan.apply (scan : StoredScan) : StoreCall → StoredScan
  | .start _ => {}
  | .record _ issue => { scan with issues := scan.issues ++ [issue] }
  | .complete _ statistics => { scan with status := .completed, statistics := some statistics }
  | .fail _ message => { scan with status := .failed, error := some message }

/-- All scans, by identifier. -/
structure MemoryStore where
  scans : List (String × StoredScan) := []

namespace MemoryStore

/-- The scan of an identifier (`MemoryStore::get`). -/
def get? (m : MemoryStore) (id : String) : Option StoredScan :=
  m.scans.lookup id

/-- Puts a scan under an identifier. -/
def put (m : MemoryStore) (id : String) (scan : StoredScan) : MemoryStore where
  scans := insertSorted (fun a b => decide (a < b)) id scan m.scans

/-- Answers a call. A scan that was not started is unknown. -/
def perform (m : MemoryStore) (call : StoreCall) : Except String Unit × MemoryStore :=
  match call with
  | .start id => (.ok (), m.put id {})
  | _ =>
    match m.get? call.id with
    | none => (.error ("Unknown scan " ++ call.id), m)
    | some scan => (.ok (), m.put call.id (scan.apply call))

/-- The store. -/
def store : Store MemoryStore where
  answer := perform

end MemoryStore

end CodeAudit
