import CodeAudit.Proofs.Composition
import Mathlib.Algebra.Order.BigOperators.Group.List
import Mathlib.Algebra.Order.Group.Nat
import Mathlib.Data.List.Perm.Subperm

/-!
# Counts of files and issues

Progress events count the files that are done and the issues in them. While the workers share the
files of a directory, both counts go up, whatever the order of their steps, and they end with the
counts of the outcome. This is about the events of scans that give a result: `Traces` tells what
these events are like, and is put together from the steps of a scan.

Results:
* `OncePerFile.sum_le`: files that are counted once each count no more than all files.
* `Works.tallied`: what a step of the workers keeps.
* `Traces.bind`, `Traces.foldlM`: the events of sequences of steps.
* `traces_scanTree`: the events of the scan of a directory count up from zero.
-/

namespace CodeAudit

open Scan Session

/-! ## What is counted -/

/-- What events count. -/
inductive Tally where
  | files
  | issues
  deriving DecidableEq, Repr

/-- The count of files or that of issues. -/
def Tally.pick (files issues : Nat) : Tally → Nat
  | .files => files
  | .issues => issues

theorem Tally.pick_zero : Tally.pick 0 0 = 0 := by
  funext tally
  cases tally <;> rfl

/-- The counts of an event. -/
def ProgressEvent.counts (e : ProgressEvent) : Tally → Nat :=
  Tally.pick e.filesProcessed e.issuesFound

/-- What a file adds to the counts. -/
def FileOutcome.counts (outcome : FileOutcome) : Tally → Nat :=
  Tally.pick 1 outcome.issues.length

/-- The counts of the files that are done. -/
def WorkState.counts (w : WorkState) : Tally → Nat :=
  Tally.pick w.finished.length w.issueCount

/-- The counts of merged outcomes. -/
def RawScan.counts (raw : RawScan) : Tally → Nat :=
  Tally.pick raw.filesScanned raw.issues.length

/-- The counts of a result. -/
def ScanResult.counts (result : ScanResult) : Tally → Nat :=
  Tally.pick result.summary.filesScanned result.issues.length

namespace ProgressEvent

@[simp] theorem counts_make (phase : ScanPhase) (percentage : Nat) (message : String) :
    (make phase percentage message).counts = 0 := by
  funext tally
  cases tally <;> rfl

@[simp] theorem counts_withFile (e : ProgressEvent) (path : String) :
    (e.withFile path).counts = e.counts := rfl

@[simp] theorem counts_withCounts (e : ProgressEvent) (processed total issues : Nat) :
    (e.withCounts processed total issues).counts = Tally.pick processed issues := rfl

theorem counts_le_of_eq_zero {e : ProgressEvent} (h : e.counts = 0) (limit : Tally → Nat) :
    e.counts ≤ limit := by
  rw [h]
  exact fun _ => Nat.zero_le _

theorem within_of_counts_eq_zero {e : ProgressEvent} (h : e.counts = 0) :
    e.filesProcessed ≤ e.totalFiles := by
  have hprocessed : e.filesProcessed = 0 := congrFun h .files
  rw [hprocessed]
  exact Nat.zero_le _

end ProgressEvent

theorem RawScan.counts_merge (a b : RawScan) : (a.merge b).counts = a.counts + b.counts := by
  funext tally
  cases tally with
  | files => rfl
  | issues => exact List.length_append

theorem RawScan.counts_ofOutcomes (outcomes : List FileOutcome) (tally : Tally) :
    (ofOutcomes outcomes).counts tally =
      (outcomes.map fun outcome => outcome.counts tally).sum := by
  induction outcomes with
  | nil => cases tally <;> rfl
  | cons outcome rest ih =>
    rw [ofOutcomes_cons, counts_merge, Pi.add_apply, ih, List.map_cons, List.sum_cons]
    congr 1
    cases tally with
    | files => rfl
    | issues => simp [counts, ofOutcomes, FileOutcome.counts, Tally.pick]

theorem WorkState.counts_eq_sum (w : WorkState) (tally : Tally) :
    w.counts tally = (w.finished.map fun entry => entry.2.counts tally).sum := by
  rw [counts, issueCount]
  induction w.finished with
  | nil => cases tally <;> rfl
  | cons entry rest ih =>
    rw [List.map_cons, List.sum_cons, ← ih]
    cases tally with
    | files => exact Nat.add_comm _ _
    | issues => rfl

/-! ## Events that count up -/

/-- Do events, in their order, count up to a limit, and never more files than there are? -/
structure CountsUp (limit : Tally → Nat) (events : List ProgressEvent) : Prop where
  rising : events.Pairwise fun earlier later => earlier.counts ≤ later.counts
  le_limit : ∀ e ∈ events, e.counts ≤ limit
  within : ∀ e ∈ events, e.filesProcessed ≤ e.totalFiles

namespace CountsUp

theorem nil {limit : Tally → Nat} : CountsUp limit [] where
  rising := .nil
  le_limit := List.forall_mem_nil _
  within := List.forall_mem_nil _

theorem mono {limit limit' : Tally → Nat} {events : List ProgressEvent} (h : CountsUp limit events)
    (hle : limit ≤ limit') : CountsUp limit' events :=
  { h with le_limit := fun e he => (h.le_limit e he).trans hle }

theorem concat {limit : Tally → Nat} {events : List ProgressEvent} {e : ProgressEvent}
    (h : CountsUp limit events) (hle : limit ≤ e.counts)
    (hwithin : e.filesProcessed ≤ e.totalFiles) : CountsUp e.counts (events ++ [e]) where
  rising := by
    refine List.pairwise_append.mpr ⟨h.rising, List.pairwise_singleton _ _, ?_⟩
    intro earlier hearlier later hlater
    rw [List.mem_singleton.mp hlater]
    exact (h.le_limit earlier hearlier).trans hle
  le_limit := by
    refine List.forall_mem_append.mpr ⟨fun earlier hearlier => ?_, ?_⟩
    · exact (h.le_limit earlier hearlier).trans hle
    · exact List.forall_mem_singleton.mpr le_rfl
  within := List.forall_mem_append.mpr ⟨h.within, List.forall_mem_singleton.mpr hwithin⟩

/-- An event that counts nothing may come first. -/
theorem cons_zero {limit : Tally → Nat} {events : List ProgressEvent} {e : ProgressEvent}
    (h : CountsUp limit events) (he : e.counts = 0) : CountsUp limit (e :: events) where
  rising := .cons (fun _ _ => ProgressEvent.counts_le_of_eq_zero he _) h.rising
  le_limit := List.forall_mem_cons.mpr ⟨ProgressEvent.counts_le_of_eq_zero he _, h.le_limit⟩
  within := List.forall_mem_cons.mpr ⟨ProgressEvent.within_of_counts_eq_zero he, h.within⟩

end CountsUp

/-- Does a count never fall from one event to a later one? -/
def Tally.Grows (tally : Tally) (events : List ProgressEvent) : Prop :=
  events.Pairwise fun earlier later => earlier.counts tally ≤ later.counts tally

theorem CountsUp.grows {limit : Tally → Nat} {events : List ProgressEvent}
    (h : CountsUp limit events) (tally : Tally) : tally.Grows events :=
  h.rising.imp fun hle => hle tally

theorem Tally.grows_append {tally : Tally} {first second : List ProgressEvent} :
    tally.Grows (first ++ second) ↔ tally.Grows first ∧ tally.Grows second ∧
      ∀ earlier ∈ first, ∀ later ∈ second, earlier.counts tally ≤ later.counts tally :=
  List.pairwise_append

theorem Tally.grows_of_const {tally : Tally} {events : List ProgressEvent} {count : Nat}
    (h : ∀ e ∈ events, e.counts tally = count) : tally.Grows events :=
  List.pairwise_of_forall_mem_list fun earlier hearlier later hlater =>
    ((h earlier hearlier).trans (h later hlater).symm).le

/-! ## Workers -/

section Workers

variable {s : Session} {categories : List Category} {files : List String}
  {place : ProgressEvent → ProgressEvent}

/-- Are the outcomes of a list those of their files, each file at most once? -/
structure OncePerFile (s : Session) (categories : List Category) (files : List String)
    (entries : List (Nat × FileOutcome)) : Prop where
  nodup : (entries.map Prod.fst).Nodup
  outcome : ∀ entry ∈ entries, ∃ path, files[entry.1]? = some path ∧
    entry.2 = s.analyzeFile categories path

namespace OncePerFile

variable {entries : List (Nat × FileOutcome)}

theorem subperm (h : OncePerFile s categories files entries) :
    (entries.map Prod.fst).Subperm (List.range files.length) := by
  refine h.nodup.subperm fun i hi => ?_
  obtain ⟨entry, hentry, rfl⟩ := List.mem_map.mp hi
  obtain ⟨path, hpath, _⟩ := h.outcome entry hentry
  exact List.mem_range.mpr (List.getElem?_eq_some_iff.mp hpath).1

theorem length_le (h : OncePerFile s categories files entries) :
    entries.length ≤ files.length := by
  simpa using h.subperm.length_le

/-- Outcomes of different files count no more than those of all files. -/
theorem sum_le (h : OncePerFile s categories files entries) (tally : Tally) :
    (entries.map fun entry => entry.2.counts tally).sum ≤
      (RawScan.ofOutcomes (files.map (s.analyzeFile categories))).counts tally := by
  let weight := fun i => (s.analyzeFile categories (files.getD i "")).counts tally
  have hweight : entries.map (fun entry => entry.2.counts tally) =
      (entries.map Prod.fst).map weight := by
    rw [List.map_map]
    refine List.map_congr_left fun entry hentry => ?_
    obtain ⟨path, hpath, houtcome⟩ := h.outcome entry hentry
    simp [weight, houtcome, hpath]
  have hall := map_range_getD (fun file => (s.analyzeFile categories file).counts tally) files
  obtain ⟨part, hperm, hsub⟩ := h.subperm
  rw [RawScan.counts_ofOutcomes, List.map_map, hweight]
  calc ((entries.map Prod.fst).map weight).sum
      = (part.map weight).sum := (hperm.map weight).sum_eq.symm
    _ ≤ ((List.range files.length).map weight).sum :=
      (hsub.map weight).sum_le_sum fun _ _ => Nat.zero_le _
    _ = _ := congrArg List.sum hall

/-- A file that is counted for the first time. -/
theorem cons {i : Nat} {outcome : FileOutcome} (h : OncePerFile s categories files entries)
    (hnew : entries.lookup i = none)
    (houtcome : ∃ path, files[i]? = some path ∧ outcome = s.analyzeFile categories path) :
    OncePerFile s categories files ((i, outcome) :: entries) where
  nodup := by
    refine List.nodup_cons.mpr ⟨fun hi => ?_, h.nodup⟩
    obtain ⟨entry, hentry, hkey⟩ := List.mem_map.mp hi
    have hne := List.lookup_eq_none_iff.mp hnew entry hentry
    rw [hkey, bne_self_eq_false] at hne
    cases hne
  outcome := List.forall_mem_cons.mpr ⟨houtcome, h.outcome⟩

end OncePerFile

/-- Does a way to place events leave their counts alone? -/
def KeepsCounts (place : ProgressEvent → ProgressEvent) : Prop :=
  ∀ e, (place e).counts = e.counts ∧ (place e).totalFiles = e.totalFiles

theorem keepsCounts_id : KeepsCounts id := fun _ => ⟨rfl, rfl⟩

theorem keepsCounts_place (slice : ProgressSlice) : KeepsCounts slice.place :=
  fun _ => ⟨rfl, rfl⟩

/-- What is known of the workers and of the events since they began. -/
structure WorkState.Tallied (s : Session) (categories : List Category) (files : List String)
    (before : List ProgressEvent) (w : WorkState) (log : ScanLog) : Prop where
  sound : WorkState.Sound s categories files w log
  finished : OncePerFile s categories files w.finished
  events : ∃ added, log.events = before ++ added ∧ CountsUp w.counts added

/-- A step of the workers keeps what is known of them. -/
theorem Works.tallied (hplace : KeepsCounts place) {before : List ProgressEvent}
    {step : WorkStep} {w w' : WorkState} {log log' : ScanLog}
    (h : Works s categories files place step w log w' log')
    (ht : WorkState.Tallied s categories files before w log) :
    WorkState.Tallied s categories files before w' log' := by
  have hsound := h.sound ht.sound
  cases h with
  | refuse _ => exact ⟨hsound, ht.finished, ht.events⟩
  | take _ => exact ⟨hsound, ht.finished, ht.events⟩
  | analyze _ _ => exact ⟨hsound, ht.finished, ht.events⟩
  | passAnalyze _ => exact ht
  | passFinish _ => exact ht
  | @finish i _ _ path outcome hfile hdone hnew =>
    have hfinished := ht.finished.cons hnew (ht.sound.analyzed i outcome hdone)
    obtain ⟨added, hadded, hup⟩ := ht.events
    let w' : WorkState := { w with finished := (i, outcome) :: w.finished }
    let e := place (analyzedEvent path (w.finished.length + 1) files.length
      (outcome.issues.length + w.issueCount))
    have hcounts : e.counts = w'.counts := (hplace _).1
    have htotal : e.totalFiles = files.length := (hplace _).2
    have hgrows : w.counts ≤ e.counts := by
      rw [hcounts]
      intro tally
      rw [WorkState.counts_eq_sum, WorkState.counts_eq_sum]
      exact Nat.le_add_left _ _
    have hprocessed : e.filesProcessed = w'.finished.length := congrFun hcounts .files
    have hwithin : e.filesProcessed ≤ e.totalFiles := by
      rw [hprocessed, htotal]
      exact hfinished.length_le
    refine ⟨hsound, hfinished, added ++ [e], ?_, ?_⟩
    · show (e :: log.reported).reverse = _
      rw [List.reverse_cons, ← List.append_assoc, ← hadded]
      rfl
    · exact (hup.concat hgrows hwithin).mono hcounts.le

end Workers

/-! ## Events of scans that give a result -/

/-- Do the events of a scan that gives a result have a property? -/
def Traces {α : Type} (scan : Scan α) (P : α → List ProgressEvent → Prop) : Prop :=
  ∀ log a log', scan.runFrom log = (.ok a, log') →
    ∃ added, log'.events = log.events ++ added ∧ P a added

namespace Traces

variable {α β : Type} {P : α → List ProgressEvent → Prop} {R : β → List ProgressEvent → Prop}

theorem pure {a : α} (h : P a []) : Traces (Pure.pure a) P := by
  intro log a' log' hrun
  cases hrun
  exact ⟨[], (List.append_nil _).symm, h⟩

theorem bind {x : Scan α} {f : α → Scan β} (hx : Traces x P)
    (hf : ∀ a first, P a first → Traces (f a) fun b second => R b (first ++ second)) :
    Traces (x >>= f) R := by
  intro log b log' hrun
  rcases hlog : x.runFrom log with ⟨e | a, middle⟩
  · rw [runFrom_bind_error hlog] at hrun
    cases hrun
  · rw [runFrom_bind_ok hlog] at hrun
    obtain ⟨first, hfirst, hP⟩ := hx log a middle hlog
    obtain ⟨second, hsecond, hR⟩ := hf a first hP middle b log' hrun
    exact ⟨first ++ second, by rw [hsecond, hfirst, List.append_assoc], hR⟩

theorem bind_report {e : ProgressEvent} {f : Unit → Scan β}
    (hf : Traces (f ()) fun b added => R b (e :: added)) : Traces (report e >>= f) R := by
  have hreport : Traces (report e) fun _ added => added = [e] := by
    intro log _ log' hrun
    cases hrun
    exact ⟨[e], List.reverse_cons, rfl⟩
  refine .bind hreport fun _ first hfirst => ?_
  rw [hfirst]
  exact hf

/-- A step that reports nothing. -/
theorem bind_silent {x : Scan α} {f : α → Scan β} (p : α → Prop)
    (hx : ∀ log a log', x.runFrom log = (.ok a, log') → log'.events = log.events ∧ p a)
    (hf : ∀ a, p a → Traces (f a) R) : Traces (x >>= f) R := by
  have hsilent : Traces x fun a added => added = [] ∧ p a := by
    intro log a log' hrun
    obtain ⟨hevents, ha⟩ := hx log a log' hrun
    exact ⟨[], by rw [hevents, List.append_nil], rfl, ha⟩
  refine .bind hsilent fun a first hfirst => ?_
  rw [hfirst.1]
  exact hf a hfirst.2

theorem bind_check {s : Session} {f : Unit → Scan β} (hf : Traces (f ()) R) :
    Traces (Scan.check s >>= f) R := by
  refine bind_silent (fun _ => True) (fun log a log' hrun => ?_) fun _ _ => hf
  rw [runFrom_check] at hrun
  cases congrArg Prod.snd hrun
  exact ⟨rfl, trivial⟩

theorem bind_lift {x : Except ScanError α} {f : α → Scan β}
    (hf : ∀ a, x = .ok a → Traces (f a) R) : Traces (liftM x >>= f) R := by
  refine bind_silent (fun a => x = .ok a) (fun log a log' hrun => ?_) hf
  rw [runFrom_lift] at hrun
  cases hrun
  exact ⟨rfl, rfl⟩

theorem bind_requireTarget {s : Session} {path reason : String} {isRight : Bool}
    {f : Unit → Scan β} (hf : Traces (f ()) R) :
    Traces (s.requireTarget path isRight reason >>= f) R := by
  refine bind_silent (fun _ => True) (fun log a log' hrun => ?_) fun _ _ => hf
  rw [runFrom_requireTarget] at hrun
  cases congrArg Prod.snd hrun
  exact ⟨rfl, trivial⟩

/-- A loop, with an invariant of what was gone through, the state and the events. -/
theorem foldlM {σ : Type} {f : σ → β → Scan σ} {xs : List β}
    (I : List β → σ → List ProgressEvent → Prop) {initial : σ} (hinitial : I [] initial [])
    (hstep : ∀ before x after, xs = before ++ x :: after → ∀ state events, I before state events →
      Traces (f state x) fun state' added => I (before ++ [x]) state' (events ++ added)) :
    Traces (xs.foldlM f initial) (I xs) := by
  -- from any place in the list on
  have hloop : ∀ rest before, xs = before ++ rest → ∀ state events, I before state events →
      Traces (rest.foldlM f state) fun state' added => I xs state' (events ++ added) := by
    intro rest
    induction rest with
    | nil =>
      intro before hxs state events hI
      rw [List.append_nil] at hxs
      rw [hxs]
      exact .pure (by rw [List.append_nil]; exact hI)
    | cons x rest ih =>
      intro before hxs state events hI
      rw [List.foldlM_cons]
      refine .bind (hstep before x rest hxs state events hI) fun state' added hI' => ?_
      have hrest := ih (before ++ [x]) (by rw [hxs, List.append_assoc]; rfl) state' _ hI'
      simpa only [List.append_assoc] using hrest
  exact hloop xs [] rfl initial [] hinitial

end Traces

/-! ## Scans of directories -/

section Directory

variable {s : Session} {categories : List Category} {filter : FileFilter}
  {place : ProgressEvent → ProgressEvent}

theorem traces_analyzeAll (hplace : KeepsCounts place) (files : List String) :
    Traces (s.analyzeAll categories files place) fun outcomes added =>
      outcomes = files.map (s.analyzeFile categories) ∧
        CountsUp (RawScan.ofOutcomes outcomes).counts added := by
  intro log outcomes log' hrun
  obtain ⟨w, log₁, hworks, hall⟩ := analyzeAll_works s categories files place log
  rw [hall] at hrun
  have hinitial : WorkState.Tallied s categories files log.events {} log :=
    ⟨.initial log, ⟨.nil, List.forall_mem_nil _⟩, [], (List.append_nil _).symm, .nil⟩
  have htallied := hworks.keeps (Works.tallied hplace) hinitial
  obtain ⟨added, hadded, hup⟩ := htallied.events
  have hlog : log₁ = log' := congrArg Prod.snd hrun
  have houtcomes : outcomes = files.map (s.analyzeFile categories) := by
    rcases htallied.sound.outcomes? with hnone | hsome
    · rw [hnone] at hrun
      cases hrun
    · rw [hsome] at hrun
      cases hrun
      rfl
  refine ⟨added, by rw [← hlog, hadded], houtcomes, hup.mono fun tally => ?_⟩
  rw [houtcomes, WorkState.counts_eq_sum]
  exact htallied.finished.sum_le tally

/-- The events of the scan of a directory count up from zero. -/
theorem traces_scanTree (hplace : KeepsCounts place) (dir : String) :
    Traces (s.scanTree categories filter dir place) fun raw added =>
      raw = treeScan s categories filter dir ∧ CountsUp raw.counts added ∧
        ∃ first rest, added = first :: rest ∧ first.counts = 0 := by
  rw [scanTree]
  refine .bind_check (.bind_report (.bind_lift fun files hfiles => .bind_report ?_))
  have hcandidates := Disk.eq_candidates_of_ok (Disk.candidates?_of_collect? hfiles)
  refine .bind (traces_analyzeAll hplace files) fun outcomes added hadded => .pure ?_
  obtain ⟨houtcomes, hup⟩ := hadded
  rw [List.append_nil]
  have hstart : (place (.make .discovering 0 "Discovering files")).counts = 0 := by
    rw [(hplace _).1, ProgressEvent.counts_make]
  refine ⟨?_, (hup.cons_zero ?_).cons_zero hstart, _, _, rfl, hstart⟩
  · rw [houtcomes, hcandidates, treeScan]
  · rw [(hplace _).1, ProgressEvent.counts_withCounts, Tally.pick_zero]

end Directory

end CodeAudit
