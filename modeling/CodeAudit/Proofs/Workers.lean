import CodeAudit.Proofs.ScanSteps

/-!
# Workers

The workers that share the files of a directory may take their steps in any order, and the scan may
be cancelled between any two of them. `Works` says what one step can do. Every property of a run of
the workers is an invariant of `Works`, and follows by induction on the list of steps.

Results:
* `workStep_works`, `foldlM_works`: the steps of the workers never fail, and do what `Works` says.
* `Works.sound`: every outcome at hand is that of its file; a refusal means that the scan is
  cancelled.
* `finished_of_covers`: if no file is refused, steps that cover all files finish all files.
* `analyzeAll_result`, `analyzeAll_ok`: the analysis of files gives the outcomes of all files in
  their order, or it is cancelled.
-/

namespace CodeAudit

open Scan Session

variable {s : Session} {categories : List Category} {files : List String}
  {place : ProgressEvent → ProgressEvent}

/-! ## Single steps -/

/-- What a step does to the state of the workers and to the log. -/
inductive Works (s : Session) (categories : List Category) (files : List String)
    (place : ProgressEvent → ProgressEvent) :
    WorkStep → WorkState → ScanLog → WorkState → ScanLog → Prop
  /-- The scan is cancelled when a file is to be taken. -/
  | refuse {i : Nat} {w : WorkState} {log : ScanLog} (h : cancelledAt s log = true) :
    Works s categories files place (.check i) w log { w with refused := true } (checkedLog s log)
  | take {i : Nat} {w : WorkState} {log : ScanLog} (h : cancelledAt s log = false) :
    Works s categories files place (.check i) w log { w with taken := i :: w.taken }
      (checkedLog s log)
  | analyze {i : Nat} {w : WorkState} {log : ScanLog} {path : String}
    (hfile : files[i]? = some path) (htaken : i ∈ w.taken) :
    Works s categories files place (.analyze i) w log
      { w with analyzed := (i, s.analyzeFile categories path) :: w.analyzed } log
  | finish {i : Nat} {w : WorkState} {log : ScanLog} {path : String} {outcome : FileOutcome}
    (hfile : files[i]? = some path) (hdone : w.analyzed.lookup i = some outcome)
    (hnew : w.finished.lookup i = none) :
    Works s categories files place (.finish i) w log
      { w with finished := (i, outcome) :: w.finished }
      { log with reported := place (analyzedEvent path (w.finished.length + 1) files.length
          (outcome.issues.length + w.issueCount)) :: log.reported }
  /-- There is no such file, or nobody has taken it. -/
  | passAnalyze {i : Nat} {w : WorkState} {log : ScanLog}
    (h : files[i]? = none ∨ i ∉ w.taken) : Works s categories files place (.analyze i) w log w log
  /-- There is no such file, or it is not analysed, or it is counted already. -/
  | passFinish {i : Nat} {w : WorkState} {log : ScanLog}
    (h : files[i]? = none ∨ w.analyzed.lookup i = none ∨ (w.finished.lookup i).isSome) :
    Works s categories files place (.finish i) w log w log

variable (s categories files place) in
theorem workStep_works (step : WorkStep) (w : WorkState) (log : ScanLog) :
    ∃ w' log', (s.workStep categories files place w step).runFrom log = (.ok w', log') ∧
      Works s categories files place step w log w' log' := by
  cases step with
  | check i =>
    rw [workStep, runFrom_bind, runFrom_isCancelled]
    cases h : cancelledAt s log with
    | true => exact ⟨_, _, rfl, .refuse h⟩
    | false => exact ⟨_, _, rfl, .take h⟩
  | analyze i =>
    rw [workStep]
    cases hfile : files[i]? with
    | none => exact ⟨w, log, rfl, .passAnalyze (.inl hfile)⟩
    | some path =>
      by_cases htaken : i ∈ w.taken
      · refine ⟨_, log, ?_, .analyze hfile htaken⟩
        simp [htaken]
      · refine ⟨w, log, ?_, .passAnalyze (.inr htaken)⟩
        simp [htaken]
  | finish i =>
    rw [workStep]
    cases hfile : files[i]? with
    | none => exact ⟨w, log, rfl, .passFinish (.inl hfile)⟩
    | some path =>
      cases hdone : w.analyzed.lookup i with
      | none => exact ⟨w, log, rfl, .passFinish (.inr (.inl hdone))⟩
      | some outcome =>
        cases hnew : w.finished.lookup i with
        | none => exact ⟨_, _, rfl, .finish hfile hdone hnew⟩
        | some _ => exact ⟨w, log, rfl, .passFinish (.inr (.inr (by rw [hnew]; rfl)))⟩

/-! ## Runs -/

/-- What steps do one after the other. -/
inductive WorksAll (s : Session) (categories : List Category) (files : List String)
    (place : ProgressEvent → ProgressEvent) :
    List WorkStep → WorkState → ScanLog → WorkState → ScanLog → Prop
  | nil {w : WorkState} {log : ScanLog} : WorksAll s categories files place [] w log w log
  | cons {step : WorkStep} {steps : List WorkStep} {w w₁ w' : WorkState} {log log₁ log' : ScanLog}
    (first : Works s categories files place step w log w₁ log₁)
    (rest : WorksAll s categories files place steps w₁ log₁ w' log') :
    WorksAll s categories files place (step :: steps) w log w' log'

variable (s categories files place) in
theorem foldlM_works (steps : List WorkStep) (w : WorkState) (log : ScanLog) :
    ∃ w' log', (steps.foldlM (s.workStep categories files place) w).runFrom log = (.ok w', log') ∧
      WorksAll s categories files place steps w log w' log' := by
  induction steps generalizing w log with
  | nil => exact ⟨w, log, rfl, .nil⟩
  | cons step steps ih =>
    obtain ⟨w₁, log₁, hrun, hstep⟩ := workStep_works s categories files place step w log
    obtain ⟨w', log', hrest, hsteps⟩ := ih w₁ log₁
    refine ⟨w', log', ?_, .cons hstep hsteps⟩
    rw [List.foldlM_cons, runFrom_bind_ok hrun, hrest]

/-- What every step keeps, a run keeps. -/
theorem WorksAll.keeps {I : WorkState → ScanLog → Prop}
    (hstep : ∀ {step w log w' log'}, Works s categories files place step w log w' log' →
      I w log → I w' log')
    {steps : List WorkStep} {w w' : WorkState} {log log' : ScanLog}
    (h : WorksAll s categories files place steps w log w' log') (hI : I w log) : I w' log' := by
  induction h with
  | nil => exact hI
  | cons first _ ih => exact ih (hstep first hI)

theorem WorksAll.split {first second : List WorkStep} {w w' : WorkState} {log log' : ScanLog}
    (h : WorksAll s categories files place (first ++ second) w log w' log') :
    ∃ w₁ log₁, WorksAll s categories files place first w log w₁ log₁ ∧
      WorksAll s categories files place second w₁ log₁ w' log' := by
  induction first generalizing w log with
  | nil => exact ⟨w, log, .nil, h⟩
  | cons step first ih =>
    cases h with
    | cons hstep hrest =>
      obtain ⟨w₁, log₁, h₁, h₂⟩ := ih hrest
      exact ⟨w₁, log₁, .cons hstep h₁, h₂⟩

/-! ## Safety -/

/-- Are the outcomes of a list those of their files? -/
def Truthful (s : Session) (categories : List Category) (files : List String)
    (entries : List (Nat × FileOutcome)) : Prop :=
  ∀ i outcome, entries.lookup i = some outcome →
    ∃ path, files[i]? = some path ∧ outcome = s.analyzeFile categories path

theorem Truthful.cons {entries : List (Nat × FileOutcome)} {i : Nat} {path : String}
    {outcome : FileOutcome} (h : Truthful s categories files entries)
    (hfile : files[i]? = some path) (houtcome : outcome = s.analyzeFile categories path) :
    Truthful s categories files ((i, outcome) :: entries) := by
  intro j other hj
  rw [List.lookup_cons] at hj
  cases hij : j == i with
  | true =>
    rw [hij] at hj
    rw [eq_of_beq hij]
    exact ⟨path, hfile, by rw [← houtcome]; exact (Option.some.inj hj).symm⟩
  | false =>
    rw [hij] at hj
    exact h j other hj

/-- The invariant of the workers. -/
structure WorkState.Sound (s : Session) (categories : List Category) (files : List String)
    (w : WorkState) (log : ScanLog) : Prop where
  analyzed : Truthful s categories files w.analyzed
  finished : Truthful s categories files w.finished
  refused : w.refused = true → log.cancelled = true

theorem WorkState.Sound.initial (log : ScanLog) : WorkState.Sound s categories files {} log where
  analyzed := fun _ _ h => by cases h
  finished := fun _ _ h => by cases h
  refused := fun h => by cases h

theorem Works.sound {step : WorkStep} {w w' : WorkState} {log log' : ScanLog}
    (h : Works s categories files place step w log w' log')
    (hs : WorkState.Sound s categories files w log) :
    WorkState.Sound s categories files w' log' := by
  cases h with
  | refuse hc => exact { hs with refused := fun _ => hc }
  | take _ => exact { hs with refused := fun hr => cancelled_checkedLog (hs.refused hr) }
  | analyze hfile _ => exact { hs with analyzed := hs.analyzed.cons hfile rfl }
  | finish hfile hdone _ =>
    obtain ⟨path, hpath, houtcome⟩ := hs.analyzed _ _ hdone
    exact { hs with finished := hs.finished.cons hpath houtcome }
  | passAnalyze _ => exact hs
  | passFinish _ => exact hs

/-- A scan that is cancelled stays so. -/
theorem Works.sticky {step : WorkStep} {w w' : WorkState} {log log' : ScanLog}
    (h : Works s categories files place step w log w' log') (hc : log.cancelled = true) :
    log'.cancelled = true := by
  cases h with
  | refuse _ => exact cancelled_checkedLog hc
  | take _ => exact cancelled_checkedLog hc
  | analyze _ _ => exact hc
  | finish _ _ _ => exact hc
  | passAnalyze _ => exact hc
  | passFinish _ => exact hc

/-- Workers do not cancel a scan. -/
theorem Works.quiet (hs : s.Uncancelled) {step : WorkStep} {w w' : WorkState}
    {log log' : ScanLog} (h : Works s categories files place step w log w' log')
    (hc : log.cancelled = false) : log'.cancelled = false := by
  cases h with
  | refuse _ => exact hs.checkedLog hc
  | take _ => exact hs.checkedLog hc
  | analyze _ _ => exact hc
  | finish _ _ _ => exact hc
  | passAnalyze _ => exact hc
  | passFinish _ => exact hc

/-! ## Progress -/

/-- Has a step had its effect, or was a file refused? -/
def WorkState.Past (w : WorkState) : WorkStep → Prop
  | .check i => w.refused = true ∨ i ∈ w.taken
  | .analyze i => w.refused = true ∨ (w.analyzed.lookup i).isSome
  | .finish i => w.refused = true ∨ (w.finished.lookup i).isSome

theorem isSome_lookup_cons {entries : List (Nat × FileOutcome)} {j : Nat}
    (i : Nat) (outcome : FileOutcome) (h : (entries.lookup j).isSome) :
    (List.lookup j ((i, outcome) :: entries)).isSome := by
  rw [List.lookup_cons]
  cases j == i with
  | true => rfl
  | false => exact h

/-- Nothing that was done is undone. -/
theorem Works.past {step : WorkStep} {w w' : WorkState} {log log' : ScanLog}
    (h : Works s categories files place step w log w' log') {other : WorkStep}
    (hp : w.Past other) : w'.Past other := by
  cases h with
  | refuse _ => cases other <;> exact .inl rfl
  | take _ =>
    cases other with
    | check j => exact hp.imp_right (List.mem_cons_of_mem _)
    | analyze j => exact hp
    | finish j => exact hp
  | analyze _ _ =>
    cases other with
    | check j => exact hp
    | analyze j => exact hp.imp_right (isSome_lookup_cons _ _)
    | finish j => exact hp
  | finish _ _ _ =>
    cases other with
    | check j => exact hp
    | analyze j => exact hp
    | finish j => exact hp.imp_right (isSome_lookup_cons _ _)
  | passAnalyze _ => exact hp
  | passFinish _ => exact hp

theorem WorksAll.past {steps : List WorkStep} {w w' : WorkState} {log log' : ScanLog}
    (h : WorksAll s categories files place steps w log w' log') (other : WorkStep)
    (hp : w.Past other) : w'.Past other :=
  h.keeps (I := fun w _ => w.Past other) (fun hstep hI => hstep.past hI) hp

/-- The step that must be past for a step to have an effect. -/
def WorkStep.Enabled (w : WorkState) : WorkStep → Prop
  | .check _ => True
  | .analyze i => w.Past (.check i)
  | .finish i => w.Past (.analyze i)

/-- The file of a step. -/
def WorkStep.file : WorkStep → Nat
  | .check i => i
  | .analyze i => i
  | .finish i => i

/-- A step that is enabled has its effect. -/
theorem Works.past_self {step : WorkStep} {w w' : WorkState} {log log' : ScanLog}
    (h : Works s categories files place step w log w' log') (hfile : step.file < files.length)
    (he : step.Enabled w) : w'.Past step := by
  have hpath : ∀ {i : Nat}, i < files.length → files[i]? ≠ none := by
    intro i hi hnone
    rw [List.getElem?_eq_none_iff] at hnone
    omega
  cases h with
  | refuse _ => exact .inl rfl
  | take _ => exact .inr List.mem_cons_self
  | analyze _ _ => exact .inr (by rw [List.lookup_cons_self]; rfl)
  | finish _ _ _ => exact .inr (by rw [List.lookup_cons_self]; rfl)
  | passAnalyze hpass =>
    rcases he with hr | htaken
    · exact .inl hr
    · exact absurd htaken (hpass.resolve_left (hpath hfile))
  | passFinish hpass =>
    rcases he with hr | hdone
    · exact .inl hr
    · rcases hpass with hnone | hnone | hfinished
      · exact absurd hnone (hpath hfile)
      · rw [hnone] at hdone
        cases hdone
      · exact .inr hfinished

theorem WorkStep.Enabled.keeps {steps : List WorkStep} {w w' : WorkState} {log log' : ScanLog}
    (h : WorksAll s categories files place steps w log w' log') {step : WorkStep}
    (he : step.Enabled w) : step.Enabled w' := by
  cases step with
  | check i => trivial
  | analyze i => exact h.past (.check i) he
  | finish i => exact h.past (.analyze i) he

/-- A step that is enabled at the start of a run is past when the run has taken it. -/
theorem WorksAll.past_of_mem {steps : List WorkStep} {w w' : WorkState} {log log' : ScanLog}
    (h : WorksAll s categories files place steps w log w' log') {step : WorkStep}
    (hmem : step ∈ steps) (hfile : step.file < files.length) (he : step.Enabled w) :
    w'.Past step := by
  obtain ⟨before, after, rfl⟩ := List.append_of_mem hmem
  obtain ⟨w₁, log₁, hbefore, hafter⟩ := h.split
  cases hafter with
  | cons hstep hrest => exact hrest.past step (hstep.past_self hfile (he.keeps hbefore))

/-- Do steps take, analyse and finish each of a number of files, in this order? -/
def WorkStep.Covers (steps : List WorkStep) (files : Nat) : Prop :=
  ∀ i < files, [.check i, .analyze i, .finish i].Sublist steps

/-- Steps that cover all files finish all files, if no file is refused. -/
theorem finished_of_covers {steps : List WorkStep} {w w' : WorkState} {log log' : ScanLog}
    (h : WorksAll s categories files place steps w log w' log')
    (hcovers : WorkStep.Covers steps files.length) {i : Nat} (hi : i < files.length) :
    w'.Past (.finish i) := by
  obtain ⟨steps₁, rest₁, rfl, hcheck, hsub₁⟩ := List.cons_sublist_iff.mp (hcovers i hi)
  obtain ⟨steps₂, rest₂, rfl, hanalyze, hsub₂⟩ := List.cons_sublist_iff.mp hsub₁
  obtain ⟨w₁, log₁, hrun₁, h⟩ := h.split
  obtain ⟨w₂, log₂, hrun₂, h⟩ := h.split
  have htaken : w₁.Past (.check i) := hrun₁.past_of_mem hcheck hi trivial
  have hanalyzed : w₂.Past (.analyze i) := hrun₂.past_of_mem hanalyze hi htaken
  exact h.past_of_mem (List.singleton_sublist.mp hsub₂) hi hanalyzed

/-- A single worker covers all files. -/
theorem covers_sequential (files : Nat) :
    WorkStep.Covers (WorkStep.sequential files) files := by
  intro i hi
  rw [WorkStep.sequential, List.flatMap_def]
  exact List.sublist_flatten_of_mem (List.mem_map.mpr ⟨i, List.mem_range.mpr hi, rfl⟩)

/-! ## Outcomes in the order of the files -/

theorem map_range_getD {α : Type} (f : String → α) (files : List String) :
    (List.range files.length).map (fun i => f (files.getD i "")) = files.map f := by
  refine List.ext_getElem (by simp) fun i h _ => ?_
  have hi : i < files.length := by simpa using h
  simp [List.getD_eq_getElem?_getD, List.getElem?_eq_getElem hi]

/-- A list of look-ups gives the right values, if each look-up that gives a value gives the right
    one. -/
theorem mapM_eq_none_or {α : Type} {f : Nat → Option α} {g : Nat → α} {xs : List Nat}
    (h : ∀ x ∈ xs, ∀ a, f x = some a → a = g x) :
    xs.mapM f = none ∨ xs.mapM f = some (xs.map g) := by
  induction xs with
  | nil => exact .inr rfl
  | cons x xs ih =>
    rw [List.mapM_cons]
    cases hx : f x with
    | none => exact .inl rfl
    | some a =>
      obtain rfl := h x List.mem_cons_self a hx
      rcases ih fun y hy => h y (List.mem_cons_of_mem _ hy) with hnone | hsome
      · exact .inl (by rw [hnone]; rfl)
      · exact .inr (by rw [hsome]; rfl)

theorem mapM_ne_none {α : Type} {f : Nat → Option α} {xs : List Nat}
    (h : ∀ x ∈ xs, (f x).isSome) : xs.mapM f ≠ none := by
  induction xs with
  | nil => exact Option.some_ne_none _
  | cons x xs ih =>
    rw [List.mapM_cons]
    obtain ⟨a, ha⟩ := Option.isSome_iff_exists.mp (h x List.mem_cons_self)
    obtain ⟨as, has⟩ := Option.ne_none_iff_exists'.mp
      (ih fun y hy => h y (List.mem_cons_of_mem _ hy))
    rw [ha, has]
    exact Option.some_ne_none _

theorem WorkState.Sound.outcomes? {w : WorkState} {log : ScanLog}
    (h : WorkState.Sound s categories files w log) :
    w.outcomes? files.length = none ∨
      w.outcomes? files.length = some (files.map (s.analyzeFile categories)) := by
  rw [WorkState.outcomes?]
  split
  · exact .inl rfl
  · rw [← map_range_getD]
    refine mapM_eq_none_or fun i _ outcome hi => ?_
    obtain ⟨path, hpath, rfl⟩ := h.finished i outcome hi
    rw [List.getD_eq_getElem?_getD, hpath, Option.getD_some]

theorem outcomes?_ne_none {w : WorkState} {n : Nat} (hr : w.refused = false)
    (h : ∀ i < n, w.Past (.finish i)) : w.outcomes? n ≠ none := by
  rw [WorkState.outcomes?, hr, if_neg Bool.false_ne_true]
  refine mapM_ne_none fun i hi => ?_
  rcases h i (List.mem_range.mp hi) with hrefused | hfinished
  · rw [hr] at hrefused
    cases hrefused
  · exact hfinished

variable (s categories files place) in
/-- The analysis of files is a run of the workers from the start, and then the outcomes of all files
    in their order. -/
theorem analyzeAll_works (log : ScanLog) :
    ∃ w log', WorksAll s categories files place (s.schedule log.reported.length files.length) {} log
        w log' ∧
      (s.analyzeAll categories files place).runFrom log =
        (match w.outcomes? files.length with
          | none => .error .cancelled
          | some outcomes => .ok outcomes, log') := by
  obtain ⟨w, log', hrun, hworks⟩ := foldlM_works s categories files place
    (s.schedule log.reported.length files.length) {} log
  refine ⟨w, log', hworks, ?_⟩
  rw [analyzeAll, runFrom_bind_ok (runFrom_get log), runFrom_bind_ok hrun]
  cases w.outcomes? files.length <;> rfl

/-- Do the workers of a session cover all files whenever they are called? -/
def Session.Thorough (s : Session) : Prop :=
  ∀ reported files, WorkStep.Covers (s.workers reported files) files

theorem Session.Thorough.schedule (h : s.Thorough) (reported files : Nat) :
    WorkStep.Covers (s.schedule reported files) files := by
  rw [Session.schedule]
  split
  · exact h reported files
  · exact covers_sequential files

/-- The outcomes of all files, or the scan is cancelled. -/
theorem analyzeAll_result (log : ScanLog) :
    ((s.analyzeAll categories files place).runFrom log).1 = .error .cancelled ∨
      ((s.analyzeAll categories files place).runFrom log).1 =
        .ok (files.map (s.analyzeFile categories)) := by
  obtain ⟨w, log', hworks, hrun⟩ := analyzeAll_works s categories files place log
  have hsound := hworks.keeps Works.sound (WorkState.Sound.initial log)
  rw [hrun]
  rcases hsound.outcomes? with hnone | hsome
  · exact .inl (by rw [hnone])
  · exact .inr (by rw [hsome])

theorem analyzeAll_ok (hs : s.Thorough) {log : ScanLog}
    (hc : ((s.analyzeAll categories files place).runFrom log).2.cancelled = false) :
    ((s.analyzeAll categories files place).runFrom log).1 =
      .ok (files.map (s.analyzeFile categories)) := by
  obtain ⟨w, log', hworks, hrun⟩ := analyzeAll_works s categories files place log
  have hsound := hworks.keeps Works.sound (WorkState.Sound.initial log)
  rw [hrun] at hc ⊢
  have hr : w.refused = false := by
    cases hw : w.refused with
    | true => rw [hsound.refused hw] at hc; exact hc
    | false => rfl
  have hne := outcomes?_ne_none hr fun i hi => finished_of_covers hworks (hs.schedule _ _) hi
  rw [hsound.outcomes?.resolve_left hne]

end CodeAudit
