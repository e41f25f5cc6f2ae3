import CodeAudit.Scan.Run
import CodeAudit.Store.Basic

/-!
# Jobs

A job runs a request and tells a store about it: the start, then every issue in order and the
completion, or the failure. The first call that the store refuses ends the job.
-/

namespace CodeAudit

/-- What a job has done so far. -/
structure JobState (σ : Type) where
  store : σ
  /-- The calls of the store, the newest first. -/
  made : List StoreCall := []

/-- The calls of the store in order. -/
def JobState.calls {σ : Type} (state : JobState σ) : List StoreCall := state.made.reverse

/-- A step of a job. -/
abbrev Job (σ : Type) := ExceptT Failure (StateM (JobState σ))

namespace Job

variable {σ : Type}

/-- Calls the store. A refusal fails, with a note about what was tried. -/
def call (store : Store σ) (c : StoreCall) (note : String) : Job σ Unit := do
  let state ← get
  let (answer, after) := store.answer state.store c
  set { store := after, made := c :: state.made : JobState σ }
  match answer with
  | .ok () => return
  | .error message => throw ((Failure.ofText message).withNote note)

/-- Tells the store about a result. -/
def persist (store : Store σ) (id : String) (result : ScanResult) : Job σ Unit := do
  result.issues.forM fun issue =>
    call store (.record id issue)
      ("Failed to record issue " ++ issue.ruleId ++ " for scan " ++ id)
  call store (.complete id result.statistics) ("Failed to mark scan " ++ id ++ " as completed")

/-- Tells the store of a failure and does not mind a refusal. -/
def tryFail (store : Store σ) (id message : String) : Job σ Unit :=
  tryCatch (call store (.fail id message) "") fun _ => return

/-- Tells the store how a scan ended. -/
def conclude (store : Store σ) (id : String) :
    Except ScanError ScanResult → Job σ ScanResult
  | .error e => do
    call store (.fail id e.message) ("Failed to mark scan " ++ id ++ " as failed")
    throw (.ofScan e)
  | .ok result => do
    tryCatch (persist store id result) fun failure => do
      tryFail store id failure.fullMessage
      throw failure
    return result

/-- Tells the store of the start. -/
def begin (store : Store σ) (id : String) : Job σ Unit :=
  call store (.start id) ("Failed to mark scan " ++ id ++ " as started")

end Job

/-- How a job went. -/
structure JobOutcome (σ : Type) where
  result : Except Failure ScanResult
  store : σ
  calls : List StoreCall
  events : List ProgressEvent

/-- Runs a request as a job (`ScanRunner::run`). The scan runs only if the store takes the start. -/
def Session.runJob {σ : Type} (s : Session) (store : Store σ) (initial : σ) (id : String)
    (request : ScanRequest) : JobOutcome σ :=
  let (started, state) := ((Job.begin store id).run : StateM (JobState σ) _) { store := initial }
  match started with
  | .error failure =>
    { result := .error failure, store := state.store, calls := state.calls, events := [] }
  | .ok () =>
    let (scanned, log) := s.run request
    let (result, state) := ((Job.conclude store id scanned).run : StateM (JobState σ) _) state
    { result, store := state.store, calls := state.calls, events := log.events }

end CodeAudit
