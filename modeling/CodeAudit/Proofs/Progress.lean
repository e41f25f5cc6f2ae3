import CodeAudit.Proofs.Workers
import Mathlib.Order.Monotone.Basic

/-!
# Progress

Every event has a stage: its percentage and the rank of its phase. The stages of the events of a run
rise, in both respects, from the first event to the last, whatever slices are nested in each other
and whatever the workers do. Only the last event says that the run is over, and it says how the run
ended.

Results:
* `le_band`, `band_le`, `band_mono`, `scale_mono`: counts and percentages keep their order when they
  are placed in slices.
* `Rises.bind`, `Rises.foldlM`: steps whose events rise make scans whose events rise.
* `rises_scanTree`, `rises_scanRoot`: the events of the scan of a directory, also inside the slice of
  a root.
* `run_progress`: what the events of a run are like.
-/

namespace CodeAudit

open Scan Session

/-! ## Slices -/

theorem le_band {start stop : Nat} (h : start ≤ stop) (done total : Nat) :
    start ≤ band start stop done total := by
  rw [band]
  split
  · exact h
  · exact Nat.le_add_right _ _

theorem band_le {start stop : Nat} (h : start ≤ stop) (done total : Nat) :
    band start stop done total ≤ stop := by
  rw [band]
  split
  · exact le_rfl
  · rename_i ht
    have hdiv : (stop - start) * min done total / total ≤ stop - start := by
      apply Nat.div_le_of_le_mul
      rw [Nat.mul_comm total]
      exact Nat.mul_le_mul_left _ (min_le_right _ _)
    omega

theorem band_mono (start stop : Nat) {done done' : Nat} (h : done ≤ done') (total : Nat) :
    band start stop done total ≤ band start stop done' total := by
  rw [band, band]
  split
  · exact le_rfl
  · have hmin : min done total ≤ min done' total := by omega
    have hdiv := Nat.div_le_div_right (c := total) (Nat.mul_le_mul_left (stop - start) hmin)
    omega

namespace ProgressSlice

/-- A percentage is placed in a slice like a count out of a hundred. -/
theorem scale_eq_band (slice : ProgressSlice) (p : Nat) :
    slice.scale p = band slice.start slice.stop p 100 := rfl

theorem scale_zero (slice : ProgressSlice) : slice.scale 0 = slice.start := by
  rw [scale, Nat.zero_min, Nat.mul_zero, Nat.zero_div, Nat.add_zero]

theorem scale_le_stop (slice : ProgressSlice) (p : Nat) : slice.scale p ≤ slice.stop := by
  rw [scale_eq_band]
  exact band_le slice.start_le_stop p 100

theorem scale_mono (slice : ProgressSlice) : Monotone slice.scale := by
  intro p p' h
  rw [scale_eq_band, scale_eq_band]
  exact band_mono slice.start slice.stop h 100

/-- A slice between percentages in their order is as it is given. -/
theorem between_start_stop {start stop : Nat} (h : start ≤ stop) (hstop : stop ≤ 100) :
    (between start stop).start = start ∧ (between start stop).stop = stop := by
  simp only [between]
  omega

end ProgressSlice

/-! ## Stages -/

/-- A percentage and the rank of a phase, in the order of both. -/
abbrev Stage := Nat × Nat

namespace Stage

/-- The last stage of a scan that is not over. -/
def limit : Stage := (100, 3)

end Stage

namespace ProgressEvent

/-- The stage of an event. -/
def stage (e : ProgressEvent) : Stage := (e.percentage, e.phase.rank)

theorem stage_make {percentage : Nat} (h : percentage ≤ 100) (phase : ScanPhase)
    (message : String) : (make phase percentage message).stage = (percentage, phase.rank) := by
  rw [stage, make, min_eq_left h]

@[simp] theorem stage_withFile (e : ProgressEvent) (path : String) :
    (e.withFile path).stage = e.stage := rfl

@[simp] theorem stage_withCounts (e : ProgressEvent) (processed total issues : Nat) :
    (e.withCounts processed total issues).stage = e.stage := rfl

@[simp] theorem stage_place (slice : ProgressSlice) (e : ProgressEvent) :
    (slice.place e).stage = (slice.scale e.stage.1, 2) := rfl

end ProgressEvent

theorem ScanPhase.isTerminal_iff (phase : ScanPhase) : phase.isTerminal = true ↔ 3 < phase.rank := by
  cases phase <;> decide

/-! ## Rising events -/

/-- Do events, the newest first, rise from one stage to another? -/
structure Climbs (low high : Stage) (events : List ProgressEvent) : Prop where
  rising : events.Pairwise fun later earlier => earlier.stage ≤ later.stage
  low_le : ∀ e ∈ events, low ≤ e.stage
  le_high : ∀ e ∈ events, e.stage ≤ high

namespace Climbs

variable {low low' middle high high' : Stage}

theorem nil : Climbs low high [] where
  rising := .nil
  low_le := fun _ h => by cases h
  le_high := fun _ h => by cases h

theorem singleton {e : ProgressEvent} (hlow : low ≤ e.stage) (hhigh : e.stage ≤ high) :
    Climbs low high [e] where
  rising := List.pairwise_singleton _ _
  low_le := fun _ h => by rw [List.mem_singleton.mp h]; exact hlow
  le_high := fun _ h => by rw [List.mem_singleton.mp h]; exact hhigh

theorem mono {events : List ProgressEvent} (h : Climbs low high events) (hlow : low' ≤ low)
    (hhigh : high ≤ high') : Climbs low' high' events where
  rising := h.rising
  low_le := fun e he => hlow.trans (h.low_le e he)
  le_high := fun e he => (h.le_high e he).trans hhigh

theorem append {newer older : List ProgressEvent} (hnewer : Climbs middle high newer)
    (holder : Climbs low middle older) (hlow : low ≤ middle) (hhigh : middle ≤ high) :
    Climbs low high (newer ++ older) where
  rising := List.pairwise_append.mpr ⟨hnewer.rising, holder.rising, fun later hl earlier he =>
    (holder.le_high earlier he).trans (hnewer.low_le later hl)⟩
  low_le := fun e he => (List.mem_append.mp he).elim
    (fun h => hlow.trans (hnewer.low_le e h)) (holder.low_le e)
  le_high := fun e he => (List.mem_append.mp he).elim
    (hnewer.le_high e) (fun h => (holder.le_high e h).trans hhigh)

end Climbs

/-- Do the events of a scan rise from a stage, and to a stage that depends on what it gives? -/
def Rises {α : Type} (scan : Scan α) (start : Stage) (stop : α → Stage) : Prop :=
  ∀ log, ∃ added, (scan.runFrom log).2.reported = added ++ log.reported ∧
    Climbs start Stage.limit added ∧
    ∀ a, (scan.runFrom log).1 = .ok a →
      start ≤ stop a ∧ stop a ≤ Stage.limit ∧ Climbs start (stop a) added

namespace Rises

variable {α β : Type} {start : Stage}

/-- A step that reports nothing. -/
theorem silent {scan : Scan α} (hlimit : start ≤ Stage.limit)
    (h : ∀ log, (scan.runFrom log).2.reported = log.reported) : Rises scan start fun _ => start :=
  fun log => ⟨[], h log, .nil, fun _ _ => ⟨le_rfl, hlimit, .nil⟩⟩

theorem pure {stop : α → Stage} (a : α) (hstop : start ≤ stop a) (hlimit : stop a ≤ Stage.limit) :
    Rises (Pure.pure a) start stop := by
  refine fun log => ⟨[], rfl, .nil, fun b hb => ?_⟩
  cases hb
  exact ⟨hstop, hlimit, .nil⟩

theorem lift (x : Except ScanError α) (hlimit : start ≤ Stage.limit) :
    Rises (liftM x : Scan α) start fun _ => start :=
  silent hlimit fun log => by rw [runFrom_lift]

theorem check (s : Session) (hlimit : start ≤ Stage.limit) :
    Rises (Scan.check s) start fun _ => start :=
  silent hlimit fun log => by rw [runFrom_check]; rfl

theorem requireTarget (s : Session) (path reason : String) (isRight : Bool)
    (hlimit : start ≤ Stage.limit) :
    Rises (s.requireTarget path isRight reason) start fun _ => start :=
  silent hlimit fun log => by rw [runFrom_requireTarget]

theorem report (stage : Stage) {e : ProgressEvent} (he : e.stage = stage) (hstart : start ≤ stage)
    (hlimit : stage ≤ Stage.limit) : Rises (Scan.report e) start fun _ => stage := by
  subst he
  exact fun log => ⟨[e], rfl, .singleton hstart hlimit, fun _ _ =>
    ⟨hstart, hlimit, .singleton hstart le_rfl⟩⟩

theorem of_le {scan : Scan α} {start' : Stage} {stop : α → Stage} (h : Rises scan start' stop)
    (hle : start ≤ start') : Rises scan start stop := by
  intro log
  obtain ⟨added, hadded, hclimbs, hok⟩ := h log
  refine ⟨added, hadded, hclimbs.mono hle le_rfl, fun a ha => ?_⟩
  obtain ⟨h₁, h₂, h₃⟩ := hok a ha
  exact ⟨hle.trans h₁, h₂, h₃.mono hle le_rfl⟩

theorem to_le {scan : Scan α} {stop stop' : α → Stage} (h : Rises scan start stop)
    (hle : ∀ a, stop a ≤ stop' a) (hlimit : ∀ a, stop' a ≤ Stage.limit) :
    Rises scan start stop' := by
  intro log
  obtain ⟨added, hadded, hclimbs, hok⟩ := h log
  refine ⟨added, hadded, hclimbs, fun a ha => ?_⟩
  obtain ⟨h₁, -, h₃⟩ := hok a ha
  exact ⟨h₁.trans (hle a), hlimit a, h₃.mono le_rfl (hle a)⟩

theorem bind {x : Scan α} {f : α → Scan β} {middle : α → Stage} {stop : β → Stage}
    (hx : Rises x start middle) (hf : ∀ a, Rises (f a) (middle a) stop) :
    Rises (x >>= f) start stop := by
  intro log
  obtain ⟨older, hlog, hclimbs, hok⟩ := hx log
  rw [runFrom_bind]
  rcases hrun : x.runFrom log with ⟨e | a, log'⟩
  · rw [hrun] at hlog
    exact ⟨older, hlog, hclimbs, fun b hb => by cases hb⟩
  · rw [hrun] at hlog hok
    obtain ⟨hmiddle, hlimit, holder⟩ := hok a rfl
    obtain ⟨newer, hlog', hclimbs', hok'⟩ := hf a log'
    refine ⟨newer ++ older, ?_, hclimbs'.append holder hmiddle hlimit, fun b hb => ?_⟩
    · rw [hlog', hlog, List.append_assoc]
    · obtain ⟨hstop, hlimit', hnewer⟩ := hok' b hb
      exact ⟨hmiddle.trans hstop, hlimit', hnewer.append holder hmiddle hstop⟩

/-- A loop whose state tells the stage. -/
theorem foldlM {σ : Type} (stage : σ → Stage) {f : σ → β → Scan σ} {xs : List β}
    (hlimit : ∀ state, stage state ≤ Stage.limit)
    (hf : ∀ state, ∀ x ∈ xs, Rises (f state x) (stage state) stage) (initial : σ) :
    Rises (xs.foldlM f initial) (stage initial) stage := by
  induction xs generalizing initial with
  | nil => exact pure initial le_rfl (hlimit initial)
  | cons x xs ih =>
    rw [List.foldlM_cons]
    exact bind (hf initial x List.mem_cons_self)
      (ih fun state y hy => hf state y (List.mem_cons_of_mem _ hy))

end Rises

/-! ## Scans of directories -/

section Directory

variable {s : Session} {categories : List Category} {files : List String} {filter : FileFilter}
  {place : ProgressEvent → ProgressEvent} {f : Stage → Stage}

/-- The stage of the workers after a number of files, where `f` places stages. -/
def workStage (f : Stage → Stage) (total finished : Nat) : Stage :=
  f (band discoveryEnd analysisEnd finished total, 2)

theorem workStage_mono (hf : Monotone f) (total : Nat) : Monotone (workStage f total) :=
  fun _ _ h => hf (Prod.mk_le_mk.mpr ⟨band_mono _ _ h _, le_rfl⟩)

theorem workStage_le (hf : Monotone f) (total finished : Nat) :
    workStage f total finished ≤ f (analysisEnd, 2) :=
  hf (Prod.mk_le_mk.mpr ⟨band_le (by decide) _ _, le_rfl⟩)

/-- A step of the workers reports nothing, or one event at the stage that it reaches. -/
theorem Works.reported (hplace : ∀ e, (place e).stage = f e.stage) {step : WorkStep}
    {w w' : WorkState} {log log' : ScanLog}
    (h : Works s categories files place step w log w' log') :
    (log'.reported = log.reported ∧ w'.finished.length = w.finished.length) ∨
    ∃ e, log'.reported = e :: log.reported ∧ w'.finished.length = w.finished.length + 1 ∧
      e.stage = workStage f files.length w'.finished.length := by
  cases h with
  | refuse _ => exact .inl ⟨rfl, rfl⟩
  | take _ => exact .inl ⟨rfl, rfl⟩
  | analyze _ _ => exact .inl ⟨rfl, rfl⟩
  | finish _ _ _ =>
    refine .inr ⟨_, rfl, rfl, ?_⟩
    have hband : band discoveryEnd analysisEnd (w.finished.length + 1) files.length ≤ 100 :=
      (band_le (by decide) _ _).trans (by decide)
    rw [hplace, analyzedEvent, ProgressEvent.stage_withCounts, ProgressEvent.stage_withFile,
      ProgressEvent.stage_make hband]
    rfl
  | passAnalyze _ => exact .inl ⟨rfl, rfl⟩
  | passFinish _ => exact .inl ⟨rfl, rfl⟩

theorem WorksAll.climbs (hplace : ∀ e, (place e).stage = f e.stage) (hf : Monotone f)
    {steps : List WorkStep} {w w' : WorkState} {log log' : ScanLog}
    (h : WorksAll s categories files place steps w log w' log') :
    ∃ added, log'.reported = added ++ log.reported ∧
      w.finished.length ≤ w'.finished.length ∧
      Climbs (workStage f files.length w.finished.length)
        (workStage f files.length w'.finished.length) added := by
  induction h with
  | nil => exact ⟨[], rfl, le_rfl, .nil⟩
  | @cons step steps w w₁ w' log log₁ log' first _ ih =>
    obtain ⟨newer, hnewer, hle, hclimbs⟩ := ih
    rcases first.reported hplace with ⟨hlog, hlength⟩ | ⟨e, hlog, hlength, hstage⟩
    · rw [hlog] at hnewer
      rw [hlength] at hle hclimbs
      exact ⟨newer, hnewer, hle, hclimbs⟩
    · have hstep : workStage f files.length w.finished.length ≤
          workStage f files.length w₁.finished.length := workStage_mono hf _ (by omega)
      refine ⟨newer ++ [e], ?_, by omega, hclimbs.append (.singleton ?_ ?_) hstep
        (workStage_mono hf _ hle)⟩
      · rw [hnewer, hlog, List.append_assoc, List.singleton_append]
      · rw [hstage]
        exact hstep
      · rw [hstage]

theorem rises_analyzeAll (hplace : ∀ e, (place e).stage = f e.stage) (hf : Monotone f)
    (hlimit : f (analysisEnd, 2) ≤ Stage.limit) :
    Rises (s.analyzeAll categories files place) (workStage f files.length 0)
      fun _ => f (analysisEnd, 2) := by
  intro log
  obtain ⟨w, log', hworks, hrun⟩ := analyzeAll_works s categories files place log
  obtain ⟨added, hadded, -, hclimbs⟩ := hworks.climbs hplace hf
  have hend : Climbs (workStage f files.length 0) (f (analysisEnd, 2)) added :=
    hclimbs.mono le_rfl (workStage_le hf _ _)
  rw [hrun]
  exact ⟨added, hadded, hend.mono le_rfl hlimit, fun _ _ => ⟨workStage_le hf _ _, hlimit, hend⟩⟩

/-- The events of the scan of a directory, where `f` places stages. -/
theorem rises_scanTree (hplace : ∀ e, (place e).stage = f e.stage) (hf : Monotone f)
    (hlimit : f (analysisEnd, 2) ≤ Stage.limit) (dir : String) :
    Rises (s.scanTree categories filter dir place) (f (0, 1)) fun _ => f (analysisEnd, 2) := by
  have hstart : f (0, 1) ≤ Stage.limit := (hf (by decide)).trans hlimit
  have hfound : f (discoveryEnd, 1) ≤ Stage.limit := (hf (by decide)).trans hlimit
  rw [scanTree]
  refine .bind (.check s hstart) fun _ => .bind (.report _ (hplace _) le_rfl hstart) fun _ =>
    .bind (.lift _ hstart) fun files =>
      .bind (.report (f (discoveryEnd, 1)) (hplace _) (hf (by decide)) hfound) fun _ => ?_
  have hwork : f (discoveryEnd, 1) ≤ workStage f files.length 0 :=
    hf (Prod.mk_le_mk.mpr ⟨le_band (by decide) _ _, by decide⟩)
  exact .bind ((rises_analyzeAll hplace hf hlimit).of_le hwork) fun outcomes =>
    .pure _ le_rfl hlimit

/-- The events of the scan of a directory inside a slice. -/
theorem rises_scanTree_place (slice : ProgressSlice) (dir : String) :
    Rises (s.scanTree categories filter dir slice.place) (slice.start, 2)
      fun _ => (slice.stop, 2) := by
  have hlimit : ∀ p ≤ slice.stop, ((p, 2) : Stage) ≤ Stage.limit := fun p hp =>
    Prod.mk_le_mk.mpr ⟨hp.trans slice.stop_le, by decide⟩
  have hplaced : Monotone fun stage : Stage => ((slice.scale stage.1, 2) : Stage) := fun _ _ h =>
    Prod.mk_le_mk.mpr ⟨slice.scale_mono (Prod.le_def.mp h).1, le_rfl⟩
  have hrises : Rises (s.scanTree categories filter dir slice.place) (slice.scale 0, 2) _ :=
    rises_scanTree (ProgressEvent.stage_place slice) hplaced (hlimit _ (slice.scale_le_stop _)) dir
  rw [slice.scale_zero] at hrises
  exact hrises.to_le (fun _ => Prod.mk_le_mk.mpr ⟨slice.scale_le_stop _, le_rfl⟩)
    fun _ => hlimit _ le_rfl

end Directory

/-! ## Scans of code bases -/

section Codebase

variable {s : Session} {categories : List Category} {filter : FileFilter}

/-- The stage after the files of some of the roots are counted. -/
def countStage (roots counted : Nat) : Stage := (band initEnd countEnd counted roots, 1)

theorem countStage_le (roots counted : Nat) : countStage roots counted ≤ (countEnd, 1) :=
  Prod.mk_le_mk.mpr ⟨band_le (by decide) _ _, le_rfl⟩

theorem rises_countFiles (roots : List String) :
    Rises (s.countFiles filter roots) (initEnd, 0) fun _ => (countEnd, 1) := by
  have hlimit : ∀ counted, countStage roots.length counted ≤ Stage.limit := fun counted =>
    (countStage_le _ _).trans (by decide)
  have hloop : Rises (s.countFiles filter roots) (countStage roots.length 0)
      fun counts => countStage roots.length counts.length := by
    refine .foldlM (fun counts : List Nat => countStage roots.length counts.length)
      (fun counts => hlimit _) (fun counts root _ => ?_) []
    refine .bind (.lift _ (hlimit _)) fun files => .bind (.report _ ?_ ?_ (hlimit _)) fun _ =>
      .pure _ le_rfl (hlimit _)
    · rw [ProgressEvent.stage_withCounts,
        ProgressEvent.stage_make ((band_le (by decide) _ _).trans (by decide))]
      rfl
    · rw [List.length_append]
      exact Prod.mk_le_mk.mpr ⟨band_mono _ _ (Nat.le_add_right _ _) _, le_rfl⟩
  refine (hloop.of_le ?_).to_le (fun _ => countStage_le _ _) fun _ => by decide
  exact Prod.mk_le_mk.mpr ⟨le_band (by decide) _ _, by decide⟩

/-- Where the slice of a root begins: the roots before it and their files are given. -/
def sliceStart (roots total place done : Nat) : Nat :=
  if total = 0 then band countEnd scanEnd place roots else band countEnd scanEnd done total

/-- The slice of a root reaches to where that of the next root begins. -/
theorem sliceOf_eq (place roots done count total : Nat) :
    sliceOf place roots done count total =
      (sliceStart roots total place done, sliceStart roots total (place + 1) (done + count)) := by
  rw [sliceOf, sliceStart, sliceStart]
  split <;> rfl

theorem countEnd_le_sliceStart (roots total place done : Nat) :
    countEnd ≤ sliceStart roots total place done := by
  rw [sliceStart]
  split <;> exact le_band (by decide) _ _

theorem sliceStart_le_scanEnd (roots total place done : Nat) :
    sliceStart roots total place done ≤ scanEnd := by
  rw [sliceStart]
  split <;> exact band_le (by decide) _ _

theorem sliceStart_mono (roots total : Nat) {place place' done done' : Nat}
    (hplace : place ≤ place') (hdone : done ≤ done') :
    sliceStart roots total place done ≤ sliceStart roots total place' done' := by
  rw [sliceStart, sliceStart]
  split
  · exact band_mono _ _ hplace _
  · exact band_mono _ _ hdone _

/-- The stage after some of the roots are scanned. -/
def rootStage (roots total : Nat) (merged : Merged) : Stage :=
  (sliceStart roots total merged.roots merged.counted, 2)

theorem rootStage_le (roots total : Nat) (merged : Merged) :
    rootStage roots total merged ≤ (scanEnd, 2) :=
  Prod.mk_le_mk.mpr ⟨sliceStart_le_scanEnd _ _ _ _, le_rfl⟩

theorem rises_scanRoot (roots total : Nat) (merged : Merged) (root : String × Nat) :
    Rises (s.scanRoot categories filter roots total merged root) (rootStage roots total merged)
      (rootStage roots total) := by
  have hlimit : ∀ merged, rootStage roots total merged ≤ Stage.limit := fun merged =>
    (rootStage_le _ _ _).trans (by decide)
  rw [scanRoot, sliceOf_eq]
  refine .bind (.check s (hlimit _)) fun _ => ?_
  dsimp only
  generalize hstart : sliceStart roots total merged.roots merged.counted = start
  generalize hstop : sliceStart roots total (merged.roots + 1) (merged.counted + root.2) = stop
  have hle : start ≤ stop := by
    rw [← hstart, ← hstop]
    exact sliceStart_mono _ _ (Nat.le_add_right _ _) (Nat.le_add_right _ _)
  have hstop_le : stop ≤ 100 := by
    rw [← hstop]
    exact (sliceStart_le_scanEnd _ _ _ _).trans (by decide)
  obtain ⟨hs, he⟩ := ProgressSlice.between_start_stop hle hstop_le
  have htree : Rises (s.scanTree categories filter root.1 (ProgressSlice.between start stop).place)
      _ _ := rises_scanTree_place _ _
  rw [hs, he] at htree
  have hlimit_stop : ((stop, 2) : Stage) ≤ Stage.limit := Prod.mk_le_mk.mpr ⟨hstop_le, by decide⟩
  rw [rootStage, hstart]
  refine .bind htree fun raw => .bind (.report _ ?_ le_rfl hlimit_stop) fun _ => .pure _ ?_ (hlimit _)
  · rw [ProgressEvent.stage_withCounts, ProgressEvent.stage_make hstop_le]
    rfl
  · rw [rootStage, hstop]

end Codebase

/-! ## Runs -/

/-- Do the events of a scan rise from a stage, and does the scan report its completion as its last
    event if and only if it gives a result? -/
def Ends {α : Type} (scan : Scan α) (start : Stage) : Prop :=
  ∀ log, ∃ added, Climbs start Stage.limit added ∧
    ((∃ a e, (scan.runFrom log).1 = .ok a ∧
        (scan.runFrom log).2.reported = e :: (added ++ log.reported) ∧
        e.percentage = 100 ∧ e.phase = .completed) ∨
      ∃ error, (scan.runFrom log).1 = .error error ∧
        (scan.runFrom log).2.reported = added ++ log.reported)

namespace Ends

variable {α β : Type} {start : Stage}

theorem bind {x : Scan α} {f : α → Scan β} {middle : α → Stage} (hx : Rises x start middle)
    (hf : ∀ a, Ends (f a) (middle a)) : Ends (x >>= f) start := by
  intro log
  obtain ⟨older, hlog, hclimbs, hok⟩ := hx log
  rw [runFrom_bind]
  rcases hrun : x.runFrom log with ⟨error | a, log'⟩
  · rw [hrun] at hlog
    exact ⟨older, hclimbs, .inr ⟨error, rfl, hlog⟩⟩
  · rw [hrun] at hlog hok
    obtain ⟨hmiddle, hlimit, holder⟩ := hok a rfl
    obtain ⟨newer, hclimbs', hend⟩ := hf a log'
    refine ⟨newer ++ older, hclimbs'.append holder hmiddle hlimit, ?_⟩
    rw [List.append_assoc, ← hlog]
    exact hend

theorem completed (message : String) (processed total issues : Nat) (a : α) :
    Ends (Scan.report ((ProgressEvent.make .completed 100 message).withCounts
      processed total issues) >>= fun _ => pure a) start :=
  fun _ => ⟨[], .nil, .inl ⟨a, _, rfl, rfl, rfl, rfl⟩⟩

end Ends

variable (s : Session)

/-- Does a scan report an event at the first stage, and then events that rise to its end? -/
def StartsAndEnds {α : Type} (scan : Scan α) : Prop :=
  ∃ e rest, scan = (report e >>= fun _ => rest) ∧ e.stage = (0, 0) ∧ Ends rest (0, 0)

theorem startsAndEnds_scanFile (path : String) (requested : List String) (options : ScanOptions) :
    StartsAndEnds (s.scanFile path requested options) := by
  refine ⟨_, _, rfl, rfl, ?_⟩
  exact .bind (.requireTarget s _ _ _ (by decide)) fun _ =>
    .bind (.requireTarget s _ _ _ (by decide)) fun _ =>
    .bind (.lift _ (by decide)) fun _ =>
    .bind (.report (10, 1) rfl (by decide) (by decide)) fun _ =>
    .bind (.check s (by decide)) fun _ =>
    .bind (.report (30, 2) rfl (by decide) (by decide)) fun _ =>
    .bind (.report (80, 3) rfl (by decide) (by decide)) fun _ =>
    .completed _ _ _ _ _

theorem startsAndEnds_scanDirectory (dir : String) (requested : List String)
    (options : ScanOptions) : StartsAndEnds (s.scanDirectory dir requested options) := by
  refine ⟨_, _, rfl, rfl, ?_⟩
  have htree : ∀ categories, Rises (s.scanTree categories (.ofOptions options s.settings.scan)
      dir id) (0, 1) fun _ => (analysisEnd, 2) := fun categories =>
    rises_scanTree (fun _ => rfl) monotone_id (by decide) dir
  exact .bind (.requireTarget s _ _ _ (by decide)) fun _ =>
    .bind (.lift _ (by decide)) fun categories =>
    .bind ((htree categories).of_le (by decide)) fun _ =>
    .bind (.report (analysisEnd, 3) rfl (by decide) (by decide)) fun _ =>
    .completed _ _ _ _ _

theorem startsAndEnds_scanCodebase (base : String) (paths requested : List String)
    (options : ScanOptions) : StartsAndEnds (s.scanCodebase base paths requested options) := by
  refine ⟨_, _, rfl, rfl, ?_⟩
  refine .bind (.requireTarget s _ _ _ (by decide)) fun _ =>
    .bind (.lift _ (by decide)) fun categories =>
    .bind (.report (initEnd, 0) rfl (by decide) (by decide)) fun _ =>
    .bind (rises_countFiles _) fun counts => ?_
  have hlimit : ∀ merged, rootStage (s.roots base paths).length (totalCount counts) merged ≤
      Stage.limit := fun merged => (rootStage_le _ _ _).trans (by decide)
  refine .bind (Rises.of_le (.foldlM (rootStage _ _) hlimit
      (fun merged root _ => rises_scanRoot _ _ merged root) {}) ?_) fun merged =>
    .bind (.report (scanEnd, 3) rfl ?_ (by decide)) fun _ =>
    .completed _ _ _ _ _
  · exact Prod.mk_le_mk.mpr ⟨countEnd_le_sliceStart _ _ _ _, by decide⟩
  · exact (rootStage_le _ _ _).trans (by decide)

theorem startsAndEnds_scanRequest (r : ScanRequest) : StartsAndEnds (s.scanRequest r) := by
  rw [scanRequest]
  cases r.kind with
  | file => exact startsAndEnds_scanFile s _ _ _
  | directory => exact startsAndEnds_scanDirectory s _ _ _
  | codebase => exact startsAndEnds_scanCodebase s _ _ _ _

/-- The events of a run: one at the first stage, then events that rise, and a last event that says
    how the run ended. -/
theorem run_reported (r : ScanRequest) :
    ∃ last added first, (s.run r).2.reported = last :: (added ++ [first]) ∧
      first.stage = (0, 0) ∧ Climbs (0, 0) Stage.limit added ∧ last.percentage = 100 ∧
      ((∃ result, (s.run r).1 = .ok result ∧ last.phase = .completed) ∨
        ∃ error, (s.run r).1 = .error error ∧ last.phase = .failed) := by
  obtain ⟨first, rest, hscan, hfirst, hends⟩ := startsAndEnds_scanRequest s r
  rw [Session.run, Scan.run, runFrom_tryCatch, hscan, runFrom_bind_ok (runFrom_report _ _)]
  obtain ⟨added, hclimbs, hend⟩ := hends { reported := [first] }
  rcases hend with ⟨result, last, hok, hreported, hlast, hphase⟩ | ⟨error, herror, hreported⟩
  · have hrun : rest.runFrom { reported := [first] } = (.ok result, _) := Prod.ext hok rfl
    rw [hrun]
    exact ⟨last, added, first, hreported, hfirst, hclimbs, hlast, .inl ⟨result, rfl, hphase⟩⟩
  · have hrun : rest.runFrom { reported := [first] } = (.error error, _) := Prod.ext herror rfl
    rw [hrun]
    refine ⟨.make .failed 100 error.message, added, first, ?_, hfirst, hclimbs, rfl,
      .inr ⟨error, rfl, rfl⟩⟩
    exact congrArg (_ :: ·) hreported

/-- The events of a run of any kind, on any disk, with workers in any order and cancelled at any
    moment: they begin at percentage 0, percentages never fall and never exceed 100, phases never go
    back, the last event tells whether the run gives a result or fails, and no other event says that
    the run is over. -/
theorem run_progress (r : ScanRequest) :
    (∃ first, (s.run r).2.events.head? = some first ∧ first.percentage = 0) ∧
    ((s.run r).2.events.Pairwise fun earlier later => earlier.percentage ≤ later.percentage) ∧
    (∀ e ∈ (s.run r).2.events, e.percentage ≤ 100) ∧
    ((s.run r).2.events.Pairwise fun earlier later => earlier.phase.rank ≤ later.phase.rank) ∧
    ((∃ result, (s.run r).1 = .ok result) ↔
      ∃ last, (s.run r).2.events.getLast? = some last ∧ last.percentage = 100 ∧
        last.phase = .completed) ∧
    ((∃ error, (s.run r).1 = .error error) ↔
      ∃ last, (s.run r).2.events.getLast? = some last ∧ last.percentage = 100 ∧
        last.phase = .failed) ∧
    ∀ e ∈ (s.run r).2.events.dropLast, e.phase.isTerminal = false := by
  obtain ⟨last, added, first, hreported, hfirst, hclimbs, hlast, hend⟩ := run_reported s r
  have hevents : (s.run r).2.events = first :: added.reverse ++ [last] := by
    rw [ScanLog.events, hreported, List.reverse_cons, List.reverse_append]
    rfl
  have hrank : last.phase.rank = 4 := by
    rcases hend with ⟨_, -, hphase⟩ | ⟨_, -, hphase⟩ <;> rw [hphase] <;> rfl
  have hstage : last.stage = (100, 4) := Prod.ext hlast hrank
  -- all events but the last, and then all events
  have hbody : Climbs (0, 0) Stage.limit (added ++ [first]) :=
    hclimbs.append (.singleton hfirst.ge hfirst.le) le_rfl (by decide)
  have hall : Climbs (0, 0) (100, 4) ([last] ++ (added ++ [first])) :=
    Climbs.append (.singleton (by rw [hstage]; decide) hstage.le) hbody (by decide) (by decide)
  have hrising : (s.run r).2.events.Pairwise fun earlier later => earlier.stage ≤ later.stage := by
    rw [ScanLog.events, hreported, List.pairwise_reverse]
    exact hall.rising
  have hgetLast : ∀ phase, (∃ e, (s.run r).2.events.getLast? = some e ∧ e.percentage = 100 ∧
      e.phase = phase) ↔ last.phase = phase := by
    intro phase
    rw [hevents, List.getLast?_concat]
    constructor
    · rintro ⟨e, he, -, hphase⟩
      rw [Option.some.inj he]
      exact hphase
    · exact fun hphase => ⟨last, rfl, hlast, hphase⟩
  refine ⟨⟨first, by rw [hevents]; rfl, congrArg Prod.fst hfirst⟩,
    hrising.imp fun h => (Prod.le_def.mp h).1, fun e he => ?_,
    hrising.imp fun h => (Prod.le_def.mp h).2, ?_, ?_, fun e he => ?_⟩
  · rw [ScanLog.events, List.mem_reverse, hreported] at he
    exact (Prod.le_def.mp (hall.le_high e he)).1
  · rw [hgetLast]
    rcases hend with ⟨result, hrun, hphase⟩ | ⟨error, hrun, hphase⟩ <;> simp [hrun, hphase]
  · rw [hgetLast]
    rcases hend with ⟨result, hrun, hphase⟩ | ⟨error, hrun, hphase⟩ <;> simp [hrun, hphase]
  · have hmem : e ∈ added ++ [first] := by
      rw [hevents, List.dropLast_concat] at he
      simpa [or_comm] using he
    have hle : e.phase.rank ≤ 3 := (Prod.le_def.mp (hbody.le_high e hmem)).2
    rw [← Bool.not_eq_true, ScanPhase.isTerminal_iff]
    omega

end CodeAudit
