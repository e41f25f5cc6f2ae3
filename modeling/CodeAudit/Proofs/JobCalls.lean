import CodeAudit.Proofs.ScanSteps
import CodeAudit.Store.Job

/-!
# The calls of a job

A job tells a store about a scan, and the store may refuse any call. The calls of a job and their
answers follow a fixed course: the start, then what the scan gave, one call after the other until
one is refused, and a failure if something went wrong. This holds for every store, whatever its
answers depend on.

Results:
* `runFrom_callAll`: calls that are made one after the other end at the first that is refused.
* `JobCourse`: the ways that a job can go, and `Job.runFrom_conclude`: what is told after a scan.
* `runJob_follows_course`: the calls of a job with their answers, and when it gives a result.
-/

namespace CodeAudit

variable {σ : Type}

/-! ## Calls and answers -/

/-- A call with its answer. -/
abbrev StoreEntry := StoreCall × Except String Unit

namespace Store

/-- The state after calls. -/
def after (store : Store σ) (state : σ) (calls : List StoreCall) : σ :=
  calls.foldl (fun state call => (store.answer state call).2) state

/-- The answers that calls get one after the other. -/
def transcript (store : Store σ) (state : σ) : List StoreCall → List StoreEntry
  | [] => []
  | call :: rest =>
    (call, (store.answer state call).1) :: store.transcript (store.answer state call).2 rest

/-- Calls up to and including the first that is refused, with their answers. -/
def attempt (store : Store σ) (state : σ) : List StoreCall → List StoreEntry
  | [] => []
  | call :: rest =>
    match (store.answer state call).1 with
    | .ok () => (call, .ok ()) :: store.attempt (store.answer state call).2 rest
    | .error message => [(call, .error message)]

theorem after_append (store : Store σ) (state : σ) (first second : List StoreCall) :
    store.after state (first ++ second) = store.after (store.after state first) second :=
  List.foldl_append

theorem transcript_append (store : Store σ) (state : σ) (first second : List StoreCall) :
    store.transcript state (first ++ second) =
      store.transcript state first ++ store.transcript (store.after state first) second := by
  induction first generalizing state with
  | nil => rfl
  | cons call rest ih =>
    rw [List.cons_append, transcript, transcript, ih, List.cons_append]
    rfl

/-- An attempt is a transcript of its own calls. -/
theorem transcript_attempt (store : Store σ) (state : σ) (planned : List StoreCall) :
    store.transcript state ((store.attempt state planned).map Prod.fst) =
      store.attempt state planned := by
  induction planned generalizing state with
  | nil => rfl
  | cons call rest ih =>
    rcases h : (store.answer state call).1 with message | ⟨⟩
    · simp [attempt, transcript, h]
    · simp [attempt, transcript, h, ih]

end Store

/-- Were all calls taken? -/
def AllTaken (entries : List StoreEntry) : Prop :=
  ∀ entry ∈ entries, entry.2 = .ok ()

theorem allTaken_nil : AllTaken [] := List.forall_mem_nil _

theorem allTaken_cons {entry : StoreEntry} {rest : List StoreEntry} :
    AllTaken (entry :: rest) ↔ entry.2 = .ok () ∧ AllTaken rest :=
  List.forall_mem_cons

/-- Calls are made as planned, up to and including the first that is refused. -/
inductive UpToRefusal : List StoreCall → List StoreEntry → Prop
  | done : UpToRefusal [] []
  | taken {call : StoreCall} {planned : List StoreCall} {entries : List StoreEntry}
    (rest : UpToRefusal planned entries) :
    UpToRefusal (call :: planned) ((call, .ok ()) :: entries)
  | refused {call : StoreCall} {planned : List StoreCall} {message : String} :
    UpToRefusal (call :: planned) [(call, .error message)]

namespace UpToRefusal

theorem attempt (store : Store σ) (state : σ) (planned : List StoreCall) :
    UpToRefusal planned (store.attempt state planned) := by
  induction planned generalizing state with
  | nil => exact .done
  | cons call rest ih =>
    rw [Store.attempt]
    rcases (store.answer state call).1 with message | ⟨⟩
    · exact .refused
    · exact .taken (ih _)

/-- If no call is refused, all planned calls are made. -/
theorem eq_of_allTaken {planned : List StoreCall} {entries : List StoreEntry}
    (h : UpToRefusal planned entries) (htaken : AllTaken entries) :
    entries = planned.map fun call => (call, .ok ()) := by
  induction h with
  | done => rfl
  | taken _ ih => rw [List.map_cons, ih (allTaken_cons.mp htaken).2]
  | refused => cases (allTaken_cons.mp htaken).1

/-- If the last planned call is taken, all calls are. -/
theorem allTaken_of_mem {planned : List StoreCall} {last call : StoreCall}
    {entries : List StoreEntry} (h : UpToRefusal (planned ++ [last]) entries)
    (hmem : (call, .ok ()) ∈ entries) (hnew : call ∉ planned) : AllTaken entries := by
  induction planned generalizing entries with
  | nil =>
    cases h with
    | taken rest =>
      cases rest
      exact allTaken_cons.mpr ⟨rfl, allTaken_nil⟩
    | refused => simp at hmem
  | cons first planned ih =>
    rw [List.mem_cons, not_or] at hnew
    cases h with
    | taken rest =>
      refine allTaken_cons.mpr ⟨rfl, ih rest ?_ hnew.2⟩
      simpa [hnew.1] using hmem
    | refused => simp at hmem

end UpToRefusal

/-! ## Steps of a job -/

/-- The state of a job after calls. -/
def JobState.making (store : Store σ) (state : JobState σ) (calls : List StoreCall) :
    JobState σ where
  store := store.after state.store calls
  made := calls.reverse ++ state.made

theorem JobState.making_append (store : Store σ) (state : JobState σ)
    (first second : List StoreCall) :
    state.making store (first ++ second) = (state.making store first).making store second := by
  simp only [making, Store.after_append, List.reverse_append, List.append_assoc]

namespace Job

variable {α : Type}

/-- Runs a job on a state. -/
def runFrom (job : Job σ α) (state : JobState σ) : Except Failure α × JobState σ :=
  (ExceptT.run job : StateM (JobState σ) _) state

theorem runFrom_call (store : Store σ) (call : StoreCall) (note : String) (state : JobState σ) :
    (Job.call store call note).runFrom state =
      ((store.answer state.store call).1.mapError fun message =>
        (Failure.ofText message).withNote note, state.making store [call]) := by
  have hmaking : state.making store [call] =
      { store := (store.answer state.store call).2, made := call :: state.made } := rfl
  unfold runFrom Job.call
  refine (exceptT_run_bind_ok (a := state) rfl _).trans ?_
  rw [hmaking]
  rcases store.answer state.store call with ⟨message | ⟨⟩, state'⟩ <;> rfl

/-- A call is taken, or it is refused and fails; it is made in either case. -/
theorem runFrom_call_cases (store : Store σ) (call : StoreCall) (note : String)
    (state : JobState σ) :
    ((store.answer state.store call).1 = .ok () ∧
      (Job.call store call note).runFrom state = (.ok (), state.making store [call])) ∨
    ∃ message failure, (store.answer state.store call).1 = .error message ∧
      (Job.call store call note).runFrom state = (.error failure, state.making store [call]) := by
  have hcall := runFrom_call store call note state
  rcases h : (store.answer state.store call).1 with message | ⟨⟩
  · rw [h] at hcall
    exact .inr ⟨message, _, rfl, hcall⟩
  · rw [h] at hcall
    exact .inl ⟨rfl, hcall⟩

/-- Makes calls with notes about them, one after the other. -/
def callAll (store : Store σ) (plan : List (StoreCall × String)) : Job σ Unit :=
  plan.forM fun step => Job.call store step.1 step.2

/-- The calls end at the first that is refused, and fail if there is one. -/
theorem runFrom_callAll (store : Store σ) (plan : List (StoreCall × String))
    (state : JobState σ) :
    ∃ result, (callAll store plan).runFrom state =
        (result, state.making store
          ((store.attempt state.store (plan.map Prod.fst)).map Prod.fst)) ∧
      (result = .ok () ↔ AllTaken (store.attempt state.store (plan.map Prod.fst))) := by
  induction plan generalizing state with
  | nil => exact ⟨.ok (), rfl, iff_of_true rfl allTaken_nil⟩
  | cons step rest ih =>
    obtain ⟨call, note⟩ := step
    rw [List.map_cons, Store.attempt]
    obtain ⟨htaken, hcall⟩ | ⟨message, failure, hrefused, hcall⟩ :=
      runFrom_call_cases store call note state
    · obtain ⟨result, hrest, hresult⟩ := ih (state.making store [call])
      rw [← JobState.making_append] at hrest
      rw [htaken]
      refine ⟨result, (exceptT_run_bind_ok hcall _).trans hrest, ?_⟩
      rw [allTaken_cons, hresult]
      exact (and_iff_right rfl).symm
    · rw [hrefused]
      refine ⟨.error failure, exceptT_run_bind_error hcall _, iff_of_false ?_ fun h => ?_⟩
      · exact fun h => by cases h
      · cases (allTaken_cons.mp h).1

/-- What a store is told about a result. -/
def told (id : String) (result : ScanResult) : List StoreCall :=
  result.issues.map (.record id) ++ [.complete id result.statistics]

theorem persist_eq_callAll (store : Store σ) (id : String) (result : ScanResult) :
    ∃ plan, plan.map Prod.fst = told id result ∧ persist store id result = callAll store plan := by
  refine ⟨result.issues.map (fun issue => (.record id issue,
      "Failed to record issue " ++ issue.ruleId ++ " for scan " ++ id)) ++
    [(.complete id result.statistics, "Failed to mark scan " ++ id ++ " as completed")], ?_, ?_⟩
  · simp [told]
  · simp [persist, callAll, List.forM_append]

/-- The failure of a scan is told, and nothing else. -/
theorem runFrom_conclude_error (store : Store σ) (id : String) (e : ScanError)
    (state : JobState σ) :
    ∃ failure, (conclude store id (.error e)).runFrom state =
      (.error failure, state.making store [.fail id e.message]) := by
  obtain ⟨_, hcall⟩ | ⟨_, failure, _, hcall⟩ := runFrom_call_cases store (.fail id e.message)
    ("Failed to mark scan " ++ id ++ " as failed") state
  · exact ⟨.ofScan e, exceptT_run_bind_ok hcall _⟩
  · exact ⟨failure, exceptT_run_bind_error hcall _⟩

theorem runFrom_tryFail (store : Store σ) (id message : String) (state : JobState σ) :
    (tryFail store id message).runFrom state =
      (.ok (), state.making store [.fail id message]) := by
  obtain ⟨_, hcall⟩ | ⟨_, _, _, hcall⟩ := runFrom_call_cases store (.fail id message) "" state
  · exact exceptT_run_tryCatch_ok hcall _
  · exact exceptT_run_tryCatch_error hcall _

/-- A result is given back if all that is told of it is taken. If not, the failure is told. -/
theorem runFrom_conclude_ok (store : Store σ) (id : String) (result : ScanResult)
    (state : JobState σ) :
    let entries := store.attempt state.store (told id result)
    (AllTaken entries ∧ (conclude store id (.ok result)).runFrom state =
      (.ok result, state.making store (entries.map Prod.fst))) ∨
    (¬ AllTaken entries ∧ ∃ failure, (conclude store id (.ok result)).runFrom state =
      (.error failure,
        state.making store (entries.map Prod.fst ++ [.fail id failure.fullMessage]))) := by
  intro entries
  obtain ⟨plan, hplan, hpersist⟩ := persist_eq_callAll store id result
  obtain ⟨answer, hrun, htaken⟩ := runFrom_callAll store plan state
  rw [← hpersist, hplan] at hrun
  rw [hplan] at htaken
  rcases answer with failure | ⟨⟩
  · refine .inr ⟨fun h => ?_, failure, ?_⟩
    · cases htaken.mpr h
    have htell := runFrom_tryFail store id failure.fullMessage
      (state.making store (entries.map Prod.fst))
    rw [← JobState.making_append] at htell
    refine exceptT_run_bind_error (e := failure) ?_ _
    exact (exceptT_run_tryCatch_error hrun _).trans (exceptT_run_bind_ok htell _)
  · refine .inl ⟨htaken.mp rfl, ?_⟩
    exact exceptT_run_bind_ok (exceptT_run_tryCatch_ok hrun _) _

end Job

/-! ## The course of a job -/

/-- The course of a job whose scan gives `scanned`: the calls with their answers, and what the job
    gives. -/
inductive JobCourse (id : String) :
    Except ScanError ScanResult → List StoreEntry → Except Failure ScanResult → Prop
  | notStarted {scanned : Except ScanError ScanResult} {message : String} {failure : Failure} :
    JobCourse id scanned [(.start id, .error message)] (.error failure)
  | notScanned {e : ScanError} {answer : Except String Unit} {failure : Failure} :
    JobCourse id (.error e) [(.start id, .ok ()), (.fail id e.message, answer)] (.error failure)
  | completed {result : ScanResult} :
    JobCourse id (.ok result) ((.start id :: Job.told id result).map fun call => (call, .ok ()))
      (.ok result)
  | notTold {result : ScanResult} {entries : List StoreEntry} {answer : Except String Unit}
    {failure : Failure} (told : UpToRefusal (Job.told id result) entries)
    (refused : ¬ AllTaken entries) :
    JobCourse id (.ok result)
      ((.start id, .ok ()) :: entries ++ [(.fail id failure.fullMessage, answer)])
      (.error failure)

namespace JobCourse

variable {id : String} {scanned : Except ScanError ScanResult} {entries : List StoreEntry}
  {given : Except Failure ScanResult}

/-- What a job with a result has told. -/
theorem eq_of_ok {result : ScanResult} (h : JobCourse id scanned entries (.ok result)) :
    scanned = .ok result ∧
      entries = (.start id :: Job.told id result).map fun call => (call, .ok ()) := by
  cases h
  exact ⟨rfl, rfl⟩

/-- A job gives a result if and only if its completion is taken. -/
theorem ok_iff (h : JobCourse id scanned entries given) :
    (∃ result, given = .ok result) ↔
      ∃ statistics, (StoreCall.complete id statistics, .ok ()) ∈ entries := by
  cases h with
  | notStarted => simp
  | notScanned => simp
  | @completed result =>
    refine iff_of_true ⟨result, rfl⟩ ⟨result.statistics, ?_⟩
    simp [Job.told]
  | @notTold result made answer failure told refused =>
    refine iff_of_false (by simp) fun ⟨statistics, hmem⟩ => refused ?_
    have htaken : (StoreCall.complete id statistics, .ok ()) ∈ made := by simpa using hmem
    exact told.allTaken_of_mem htaken (by simp)

end JobCourse

/-- After the start, a job follows the course of what its scan gave. -/
theorem Job.runFrom_conclude (store : Store σ) (id : String)
    (scanned : Except ScanError ScanResult) (state : JobState σ) :
    ∃ given calls, (conclude store id scanned).runFrom state = (given, state.making store calls) ∧
      JobCourse id scanned ((.start id, .ok ()) :: store.transcript state.store calls) given := by
  cases scanned with
  | error e =>
    obtain ⟨failure, hrun⟩ := runFrom_conclude_error store id e state
    exact ⟨_, _, hrun, .notScanned⟩
  | ok result =>
    obtain ⟨htaken, hrun⟩ | ⟨hrefused, failure, hrun⟩ := runFrom_conclude_ok store id result state
    · refine ⟨_, _, hrun, ?_⟩
      rw [Store.transcript_attempt, (UpToRefusal.attempt store _ _).eq_of_allTaken htaken]
      exact .completed
    · refine ⟨_, _, hrun, ?_⟩
      rw [Store.transcript_append, Store.transcript_attempt]
      exact .notTold (.attempt store _ _) hrefused

namespace Session

variable (s : Session) (store : Store σ) (initial : σ) (id : String) (request : ScanRequest)

/-- The job from its start on. -/
theorem runJob_eq :
    s.runJob store initial id request =
      match (store.answer initial (.start id)).1 with
      | .error message =>
        { result := .error
            ((Failure.ofText message).withNote ("Failed to mark scan " ++ id ++ " as started"))
          store := store.after initial [.start id], calls := [.start id], events := [] }
      | .ok () =>
        let concluded := (Job.conclude store id (s.run request).1).runFrom
          (JobState.making store { store := initial } [.start id])
        { result := concluded.1, store := concluded.2.store, calls := concluded.2.calls
          events := (s.run request).2.events } := by
  have hbegin : (Job.begin store id).runFrom { store := initial } = _ :=
    Job.runFrom_call store (.start id) ("Failed to mark scan " ++ id ++ " as started") _
  unfold Job.runFrom at hbegin
  unfold runJob
  rw [hbegin]
  rcases (store.answer initial (.start id)).1 with message | ⟨⟩ <;> rfl

/-- The store at the end is the one after the calls, and they follow the course. -/
theorem runJob_course :
    ∃ given calls events,
      s.runJob store initial id request =
        { result := given, store := store.after initial calls, calls, events } ∧
      JobCourse id (s.run request).1 (store.transcript initial calls) given := by
  rw [runJob_eq]
  rcases hstart : (store.answer initial (.start id)).1 with message | ⟨⟩
  · refine ⟨_, [.start id], [], rfl, ?_⟩
    rw [Store.transcript, hstart]
    exact .notStarted
  · obtain ⟨given, calls, hrun, hcourse⟩ := Job.runFrom_conclude store id (s.run request).1
      (JobState.making store { store := initial } [.start id])
    refine ⟨given, .start id :: calls, (s.run request).2.events, ?_, ?_⟩
    · rw [hrun, ← JobState.making_append]
      simp [JobState.making, JobState.calls]
    · rw [Store.transcript, hstart]
      exact hcourse

/-- The calls of a job and their answers, whatever the store refuses. -/
theorem runJob_follows_course (s : Session) (store : Store σ) (initial : σ) (id : String)
    (request : ScanRequest) :
    let outcome := s.runJob store initial id request
    let entries := store.transcript initial outcome.calls
    JobCourse id (s.run request).1 entries outcome.result ∧
    outcome.store = store.after initial outcome.calls ∧
    ((∃ result, outcome.result = .ok result) ↔
      ∃ statistics, (StoreCall.complete id statistics, .ok ()) ∈ entries) ∧
    ∀ result, outcome.result = .ok result → (s.run request).1 = .ok result ∧
      entries = (.start id :: Job.told id result).map fun call => (call, .ok ()) := by
  obtain ⟨given, calls, events, hrun, hcourse⟩ := s.runJob_course store initial id request
  rw [hrun]
  refine ⟨hcourse, rfl, hcourse.ok_iff, fun result hresult => ?_⟩
  have hgiven : given = .ok result := hresult
  rw [hgiven] at hcourse
  exact hcourse.eq_of_ok

end Session

end CodeAudit
