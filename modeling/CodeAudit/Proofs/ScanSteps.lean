import CodeAudit.Scan.Run

/-!
# Running the steps of a scan

Equations for the steps that scans are made of: what each step returns, and what it does to the
log. Proofs about scans rewrite with them and do not open the steps. After a step that fails
nothing else is done.

Results:
* `runFrom_bind`, `runFrom_tryCatch`: sequences of steps.
* `runFrom_check`, `runFrom_requireTarget`: the steps at which a scan may end early.
* `cancelled_checkedLog`: a scan that is cancelled stays so.
* `run_eq_ok_iff`: a run that gives a result is its scan.
-/

namespace CodeAudit

/-! ## Computations that keep a state and may fail -/

section Stateful

variable {ε σ α β : Type}

theorem exceptT_run_bind_ok {x : ExceptT ε (StateM σ) α} {state state' : σ} {a : α}
    (h : (x.run : StateM σ _) state = (.ok a, state')) (f : α → ExceptT ε (StateM σ) β) :
    ((x >>= f).run : StateM σ _) state = ((f a).run : StateM σ _) state' := by
  change (ExceptT.bindCont f ((x.run : StateM σ _) state).1 : StateM σ _)
    ((x.run : StateM σ _) state).2 = _
  rw [h]
  rfl

theorem exceptT_run_bind_error {x : ExceptT ε (StateM σ) α} {state state' : σ} {e : ε}
    (h : (x.run : StateM σ _) state = (.error e, state')) (f : α → ExceptT ε (StateM σ) β) :
    ((x >>= f).run : StateM σ _) state = (.error e, state') := by
  change (ExceptT.bindCont f ((x.run : StateM σ _) state).1 : StateM σ _)
    ((x.run : StateM σ _) state).2 = _
  rw [h]
  rfl

theorem exceptT_run_tryCatch_ok {x : ExceptT ε (StateM σ) α} {state state' : σ} {a : α}
    (h : (x.run : StateM σ _) state = (.ok a, state')) (handle : ε → ExceptT ε (StateM σ) α) :
    ((tryCatch x handle).run : StateM σ _) state = (.ok a, state') := by
  rw [ExceptT.run_tryCatch]
  change StateT.bind x.run _ state = _
  rw [StateT.bind, h]
  rfl

theorem exceptT_run_tryCatch_error {x : ExceptT ε (StateM σ) α} {state state' : σ} {e : ε}
    (h : (x.run : StateM σ _) state = (.error e, state')) (handle : ε → ExceptT ε (StateM σ) α) :
    ((tryCatch x handle).run : StateM σ _) state = ((handle e).run : StateM σ _) state' := by
  rw [ExceptT.run_tryCatch]
  change StateT.bind x.run _ state = _
  rw [StateT.bind, h]
  rfl

end Stateful

/-- Is a session never cancelled? -/
def Session.Uncancelled (s : Session) : Prop :=
  ∀ events checks, s.cancels events checks = false

namespace Scan

variable {α β : Type}

/-! ## Sequences of steps -/

@[simp] theorem runFrom_pure (a : α) (log : ScanLog) :
    (pure a : Scan α).runFrom log = (.ok a, log) := rfl

@[simp] theorem runFrom_lift (x : Except ScanError α) (log : ScanLog) :
    (liftM x : Scan α).runFrom log = (x, log) := by
  cases x <;> rfl

theorem runFrom_bind (x : Scan α) (f : α → Scan β) (log : ScanLog) :
    (x >>= f).runFrom log =
      match x.runFrom log with
      | (.ok a, log') => (f a).runFrom log'
      | (.error e, log') => (.error e, log') := by
  rcases h : x.runFrom log with ⟨e | a, log'⟩
  · exact exceptT_run_bind_error h f
  · exact exceptT_run_bind_ok h f

theorem runFrom_bind_ok {x : Scan α} {log log' : ScanLog} {a : α}
    (h : x.runFrom log = (.ok a, log')) (f : α → Scan β) :
    (x >>= f).runFrom log = (f a).runFrom log' :=
  exceptT_run_bind_ok h f

theorem runFrom_bind_error {x : Scan α} {log log' : ScanLog} {e : ScanError}
    (h : x.runFrom log = (.error e, log')) (f : α → Scan β) :
    (x >>= f).runFrom log = (.error e, log') :=
  exceptT_run_bind_error h f

theorem runFrom_tryCatch (x : Scan α) (handle : ScanError → Scan α) (log : ScanLog) :
    (tryCatch x handle).runFrom log =
      match x.runFrom log with
      | (.ok a, log') => (.ok a, log')
      | (.error e, log') => (handle e).runFrom log' := by
  rcases h : x.runFrom log with ⟨e | a, log'⟩
  · exact exceptT_run_tryCatch_error h handle
  · exact exceptT_run_tryCatch_ok h handle

/-! ## Single steps -/

@[simp] theorem runFrom_get (log : ScanLog) :
    (get : Scan ScanLog).runFrom log = (.ok log, log) := rfl

@[simp] theorem runFrom_report (e : ProgressEvent) (log : ScanLog) :
    (report e).runFrom log = (.ok (), { log with reported := e :: log.reported }) := rfl

/-- Does a check find that the scan is cancelled? -/
def cancelledAt (s : Session) (log : ScanLog) : Bool :=
  log.cancelled || s.cancels log.reported.length log.checks

/-- The log after a check. -/
def checkedLog (s : Session) (log : ScanLog) : ScanLog :=
  { log with checks := log.checks + 1, cancelled := cancelledAt s log }

/-- A scan that is cancelled stays so. -/
theorem cancelled_checkedLog {s : Session} {log : ScanLog} (h : log.cancelled = true) :
    (checkedLog s log).cancelled = true := by
  rw [checkedLog, cancelledAt, h, Bool.true_or]

@[simp] theorem runFrom_isCancelled (s : Session) (log : ScanLog) :
    (isCancelled s).runFrom log = (.ok (cancelledAt s log), checkedLog s log) := rfl

theorem runFrom_check (s : Session) (log : ScanLog) :
    (check s).runFrom log =
      (if cancelledAt s log then .error .cancelled else .ok (), checkedLog s log) := by
  rw [check, runFrom_bind, runFrom_isCancelled]
  cases cancelledAt s log <;> rfl

theorem runFrom_requireTarget (s : Session) (path reason : String) (isRight : Bool)
    (log : ScanLog) :
    (s.requireTarget path isRight reason).runFrom log =
      (if s.disk.exists? path then
        if isRight then .ok () else .error (.invalidTarget path reason)
      else .error (.pathNotFound path), log) := by
  rw [Session.requireTarget]
  cases s.disk.exists? path <;> cases isRight <;> rfl

end Scan

theorem Session.Uncancelled.checkedLog {s : Session} (hs : s.Uncancelled) {log : ScanLog}
    (hc : log.cancelled = false) : (Scan.checkedLog s log).cancelled = false := by
  change (log.cancelled || s.cancels log.reported.length log.checks) = false
  rw [hc, hs, Bool.or_false]

/-! ## Runs -/

/-- A run gives a result exactly if its scan does, and then it adds nothing to the log. -/
theorem Session.run_eq_ok_iff {s : Session} {r : ScanRequest} {result : ScanResult}
    {log : ScanLog} : s.run r = (.ok result, log) ↔ (s.scanRequest r).run = (.ok result, log) := by
  rw [Session.run, Scan.run, Scan.run, Scan.runFrom_tryCatch]
  rcases (s.scanRequest r).runFrom {} with ⟨e | a, log'⟩
  · constructor
    · intro h
      cases congrArg Prod.fst h
    · intro h
      cases congrArg Prod.fst h
  · rfl

end CodeAudit
