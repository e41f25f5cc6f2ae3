import CodeAudit.Proofs.WalkedFiles
import CodeAudit.Proofs.Workers
import Mathlib.Algebra.Ring.Nat

/-!
# Settled scans

A scan is settled on a result if it gives that result unless it is cancelled, whatever has happened
before and in whatever order the workers take their steps. Settled steps make settled scans, so that
the outcome of a scan can be read off its steps.

Results:
* `Settles.bind`, `Settles.bind_error`, `Settles.map`, `Settles.foldlM`: sequences of settled steps
  are settled.
* `settles_scanTree`: the scan of a directory is settled on the outcomes of all its files.
* `scanTree_all_or_cancelled`: it gives what a single worker gives that is never cancelled, or it is
  cancelled.
-/

namespace CodeAudit

open Scan Session

/-- Does a scan of a session give a result unless it is cancelled? -/
structure Settles {α : Type} (s : Session) (scan : Scan α) (result : Except ScanError α) :
    Prop where
  result_or : ∀ log, (scan.runFrom log).1 = .error .cancelled ∨ (scan.runFrom log).1 = result
  /-- Workers that do all their work give the result. -/
  result_of : s.Thorough → ∀ log, (scan.runFrom log).2.cancelled = false →
    (scan.runFrom log).1 = result
  sticky : ∀ log, log.cancelled = true → (scan.runFrom log).2.cancelled = true
  quiet : s.Uncancelled → ∀ log, log.cancelled = false → (scan.runFrom log).2.cancelled = false

/-- A scan from the start gives a result unless it is cancelled, and gives it if the session is
    never cancelled and the workers do all their work. -/
def Session.Returns {α : Type} (s : Session) (scan : Scan α)
    (result : Except ScanError α) : Prop :=
  (scan.run.1 = .error .cancelled ∨ scan.run.1 = result) ∧
    (s.Uncancelled → s.Thorough → scan.run.1 = result)

namespace Settles

variable {α β : Type} {s : Session}

/-- What a settled scan gives if it is never cancelled. -/
theorem run (hs : s.Uncancelled) (ht : s.Thorough) {scan : Scan α}
    {result : Except ScanError α} (h : Settles s scan result) : scan.run.1 = result :=
  h.result_of ht {} (h.quiet hs {} rfl)

theorem returns {scan : Scan α} {result : Except ScanError α} (h : Settles s scan result) :
    s.Returns scan result :=
  ⟨h.result_or {}, fun hs ht => h.run hs ht⟩

/-! ## Steps -/

/-- A step that does not look at the cancellation and always gives the same. -/
theorem of_runFrom {scan : Scan α} {result : Except ScanError α} (change : ScanLog → ScanLog)
    (hrun : ∀ log, scan.runFrom log = (result, change log))
    (hchange : ∀ log, (change log).cancelled = log.cancelled) : Settles s scan result where
  result_or log := .inr (by rw [hrun])
  result_of _ log _ := by rw [hrun]
  sticky log hc := by rw [hrun, hchange, hc]
  quiet _ log hc := by rw [hrun, hchange, hc]

theorem pure (a : α) : Settles s (Pure.pure a : Scan α) (.ok a) :=
  of_runFrom id (fun _ => rfl) fun _ => rfl

theorem lift (x : Except ScanError α) : Settles s (liftM x : Scan α) x :=
  of_runFrom id (runFrom_lift x) fun _ => rfl

theorem report (e : ProgressEvent) : Settles s (Scan.report e) (.ok ()) :=
  of_runFrom _ (runFrom_report e) fun _ => rfl

theorem check : Settles s (Scan.check s) (.ok ()) where
  result_or log := by
    rw [runFrom_check]
    cases cancelledAt s log with
    | true => exact .inl rfl
    | false => exact .inr rfl
  result_of _ log hc := by
    rw [runFrom_check] at hc ⊢
    have hat : cancelledAt s log = false := hc
    rw [hat]
    rfl
  sticky log hc := by
    rw [runFrom_check]
    exact cancelled_checkedLog hc
  quiet hs log hc := by
    rw [runFrom_check]
    exact hs.checkedLog hc

/-! ## Sequences -/

theorem bind {x : Scan α} {f : α → Scan β} {a : α} {result : Except ScanError β}
    (hx : Settles s x (.ok a)) (hf : Settles s (f a) result) : Settles s (x >>= f) result := by
  -- a run of `x` ends in one of two ways, and only the second goes on
  have hrun : ∀ log, (∃ log', x.runFrom log = (.error .cancelled, log') ∧
        (x >>= f).runFrom log = (.error .cancelled, log')) ∨
      ∃ log', x.runFrom log = (.ok a, log') ∧ (x >>= f).runFrom log = (f a).runFrom log' := by
    intro log
    rcases hx.result_or log with h | h
    · have hlog : x.runFrom log = (.error .cancelled, (x.runFrom log).2) := Prod.ext h rfl
      exact .inl ⟨_, hlog, runFrom_bind_error hlog f⟩
    · have hlog : x.runFrom log = (.ok a, (x.runFrom log).2) := Prod.ext h rfl
      exact .inr ⟨_, hlog, runFrom_bind_ok hlog f⟩
  constructor
  case result_or =>
    intro log
    rcases hrun log with ⟨log', _, h⟩ | ⟨log', _, h⟩
    · exact .inl (by rw [h])
    · rw [h]
      exact hf.result_or log'
  case result_of =>
    intro ht log hc
    rcases hrun log with ⟨log', hlog, h⟩ | ⟨log', hlog, h⟩
    · rw [h] at hc
      have hok := hx.result_of ht log (by rw [hlog]; exact hc)
      rw [hlog] at hok
      cases hok
    · rw [h] at hc ⊢
      exact hf.result_of ht log' hc
  case sticky =>
    intro log hc
    have hx' := hx.sticky log hc
    rcases hrun log with ⟨log', hlog, h⟩ | ⟨log', hlog, h⟩
    · rw [h]
      rw [hlog] at hx'
      exact hx'
    · rw [h]
      rw [hlog] at hx'
      exact hf.sticky log' hx'
  case quiet =>
    intro hs log hc
    have hx' := hx.quiet hs log hc
    rcases hrun log with ⟨log', hlog, h⟩ | ⟨log', hlog, h⟩
    · rw [h]
      rw [hlog] at hx'
      exact hx'
    · rw [h]
      rw [hlog] at hx'
      exact hf.quiet hs log' hx'

theorem bind_error {x : Scan α} {e : ScanError} (hx : Settles s x (.error e))
    (f : α → Scan β) : Settles s (x >>= f) (.error e) := by
  -- `x` fails in either case, and nothing comes after that
  have hrun : ∀ log e', (x.runFrom log).1 = .error e' →
      (x >>= f).runFrom log = (.error e', (x.runFrom log).2) :=
    fun log e' h => runFrom_bind_error (Prod.ext h rfl) f
  have hlog : ∀ log, ((x >>= f).runFrom log).2 = (x.runFrom log).2 := by
    intro log
    rcases hx.result_or log with h | h
    · rw [hrun log _ h]
    · rw [hrun log _ h]
  constructor
  case result_or =>
    intro log
    rcases hx.result_or log with h | h
    · exact .inl (by rw [hrun log _ h])
    · exact .inr (by rw [hrun log _ h])
  case result_of =>
    intro ht log hc
    rw [hlog] at hc
    rw [hrun log _ (hx.result_of ht log hc)]
  case sticky =>
    intro log hc
    rw [hlog]
    exact hx.sticky log hc
  case quiet =>
    intro hs log hc
    rw [hlog]
    exact hx.quiet hs log hc

/-- A step that may fail, and what is made of its result if it does not. -/
theorem map {x : Scan α} {f : α → Scan β} {first : Except ScanError α} {next : α → β}
    (hx : Settles s x first) (hf : ∀ a, Settles s (f a) (.ok (next a))) :
    Settles s (x >>= f) (first.map next) := by
  cases first with
  | error e => exact bind_error hx f
  | ok a => exact bind hx (hf a)

/-- A loop whose steps are settled is settled on what the steps make of the start. -/
theorem foldlM {f : β → α → Scan β} {step : β → α → Except ScanError β} {xs : List α}
    (h : ∀ b, ∀ a ∈ xs, Settles s (f b a) (step b a)) (start : β) :
    Settles s (xs.foldlM f start) (xs.foldlM step start) := by
  induction xs generalizing start with
  | nil => exact .pure start
  | cons a rest ih =>
    have hrest := ih fun b a' ha' => h b a' (List.mem_cons_of_mem _ ha')
    have hstep := h start a List.mem_cons_self
    rw [List.foldlM_cons, List.foldlM_cons]
    cases hfirst : step start a with
    | error e => exact bind_error (hfirst ▸ hstep) _
    | ok b => exact bind (hfirst ▸ hstep) (hrest b)

end Settles

/-! ## Scans of directories -/

section Directory

variable {s : Session} {categories : List Category} {filter : FileFilter}
  {place : ProgressEvent → ProgressEvent}

theorem settles_requireTarget {path reason : String} {isRight : Bool}
    (hexists : s.disk.exists? path = true) (hright : isRight = true) :
    Settles s (s.requireTarget path isRight reason) (.ok ()) :=
  .of_runFrom id (fun log => by rw [runFrom_requireTarget, hexists, hright]; rfl) fun _ => rfl

theorem settles_analyzeAll (files : List String) :
    Settles s (s.analyzeAll categories files place)
      (.ok (files.map (s.analyzeFile categories))) where
  result_or := analyzeAll_result
  result_of ht _ hc := analyzeAll_ok ht hc
  sticky log hc := by
    obtain ⟨w, log', hworks, hrun⟩ := analyzeAll_works s categories files place log
    rw [hrun]
    exact hworks.keeps (I := fun _ log => log.cancelled = true) Works.sticky hc
  quiet hs log hc := by
    obtain ⟨w, log', hworks, hrun⟩ := analyzeAll_works s categories files place log
    rw [hrun]
    exact hworks.keeps (I := fun _ log => log.cancelled = false) (Works.quiet hs) hc

/-- The outcome of all files below a directory. -/
def treeScan (s : Session) (categories : List Category) (filter : FileFilter) (dir : String) :
    RawScan :=
  .ofOutcomes ((s.disk.candidates filter dir).map (s.analyzeFile categories))

/-- The outcome of all files below a directory that must be there and, if the walk enters it, must
    be listable. -/
def treeOutcome (s : Session) (categories : List Category) (filter : FileFilter) (dir : String) :
    Except ScanError RawScan :=
  (s.disk.collect? filter dir).map fun files => .ofOutcomes (files.map (s.analyzeFile categories))

theorem treeOutcome_of_listed {dir : String} (hexists : s.disk.exists? dir = true)
    (hwalk : s.disk.walkError? filter dir = none) :
    treeOutcome s categories filter dir = .ok (treeScan s categories filter dir) := by
  rw [treeOutcome, Disk.collect?_of_listed hexists hwalk]
  rfl

theorem settles_scanTree (dir : String) :
    Settles s (s.scanTree categories filter dir place) (treeOutcome s categories filter dir) :=
  .bind .check (.bind (.report _) (.map (.lift _) fun _ =>
    .bind (.report _) (.bind (settles_analyzeAll _) (.pure _))))

/-- The session with a single worker, which is never cancelled. -/
def Session.alone (s : Session) : Session :=
  { s with cancels := fun _ _ => false, workers := fun _ => WorkStep.sequential }

theorem uncancelled_alone (s : Session) : s.alone.Uncancelled := fun _ _ => rfl

theorem thorough_alone (s : Session) : s.alone.Thorough := fun _ => covers_sequential

theorem scanTree_alone (s : Session) (categories : List Category) (filter : FileFilter)
    (dir : String) (place : ProgressEvent → ProgressEvent) :
    (s.alone.scanTree categories filter dir place).run.1 = treeOutcome s categories filter dir :=
  (settles_scanTree dir).run (uncancelled_alone s) (thorough_alone s)

/-- The outcome of files is that of each of them, in order. -/
theorem RawScan.ofOutcomes_map (outcome : String → FileOutcome) (files : List String) :
    ofOutcomes (files.map outcome) =
      { issues := files.flatMap fun file => (outcome file).issues
        filesScanned := files.length
        throughput :=
          { lines := (files.map fun file => (outcome file).lines).sum
            bytes := (files.map fun file => (outcome file).bytes).sum
            filesFailed := files.countP fun file => (outcome file).failed } } := by
  have hthroughput : ∀ start : Throughput,
      (files.map outcome).foldl (fun sum o => sum.merge o.throughput) start =
        { lines := start.lines + (files.map fun file => (outcome file).lines).sum
          bytes := start.bytes + (files.map fun file => (outcome file).bytes).sum
          filesFailed :=
            start.filesFailed + files.countP fun file => (outcome file).failed } := by
    induction files with
    | nil => exact fun _ => rfl
    | cons file rest ih =>
      intro start
      rw [List.map_cons, List.foldl_cons, ih]
      simp [Throughput.merge, FileOutcome.throughput, List.countP_cons, Nat.add_assoc,
        Nat.add_comm]
  rw [ofOutcomes, hthroughput, List.flatMap_map, List.length_map]
  simp

/-- A scan of a directory, whatever the order of the steps of its workers and whenever it is
    cancelled, is cancelled or gives what a single worker gives that is never cancelled. If the
    workers do all their work and the scan is not cancelled, it gives that. What the single worker
    gives covers all files that the walk collects: their issues in the order of the walk, their
    number, their lines and bytes, and the number of those that failed. It fails only if the walk
    does. -/
theorem scanTree_all_or_cancelled (s : Session) (categories : List Category) (filter : FileFilter)
    (dir : String) (place : ProgressEvent → ProgressEvent) (log : ScanLog) :
    (((s.scanTree categories filter dir place).runFrom log).1 = .error .cancelled ∨
      ((s.scanTree categories filter dir place).runFrom log).1 =
        (s.alone.scanTree categories filter dir place).run.1) ∧
    (s.Thorough → ((s.scanTree categories filter dir place).runFrom log).2.cancelled = false →
      ((s.scanTree categories filter dir place).runFrom log).1 =
        (s.alone.scanTree categories filter dir place).run.1) ∧
    (s.alone.scanTree categories filter dir place).run.1 =
      (s.disk.collect? filter dir).map fun files =>
        { issues := files.flatMap fun file => (s.analyzeFile categories file).issues
          filesScanned := files.length
          throughput :=
            { lines := (files.map fun file => (s.analyzeFile categories file).lines).sum
              bytes := (files.map fun file => (s.analyzeFile categories file).bytes).sum
              filesFailed := files.countP fun file => (s.analyzeFile categories file).failed } }
    := by
  have h : Settles s (s.scanTree categories filter dir place) _ := settles_scanTree dir
  rw [scanTree_alone]
  refine ⟨h.result_or log, fun ht => h.result_of ht log, ?_⟩
  simp only [← RawScan.ofOutcomes_map]
  rfl

end Directory

/-! ## Workers that cross -/

/-- The steps of workers that take all files first and finish them from the last to the first. -/
def WorkStep.crossing (files : Nat) : List WorkStep :=
  (List.range files).map .check ++ (List.range files).map .analyze ++
    (List.range files).reverse.map .finish

theorem covers_crossing (files : Nat) : WorkStep.Covers (WorkStep.crossing files) files := by
  intro i hi
  have hmem : i ∈ List.range files := List.mem_range.mpr hi
  have hcheck : [WorkStep.check i].Sublist ((List.range files).map .check) :=
    List.singleton_sublist.mpr (List.mem_map_of_mem hmem)
  have hanalyze : [WorkStep.analyze i].Sublist ((List.range files).map .analyze) :=
    List.singleton_sublist.mpr (List.mem_map_of_mem hmem)
  have hfinish : [WorkStep.finish i].Sublist ((List.range files).reverse.map .finish) :=
    List.singleton_sublist.mpr (List.mem_map_of_mem (List.mem_reverse.mpr hmem))
  exact (hcheck.append hanalyze).append hfinish

/-- A session with workers that cross, on a disk with links to directories. -/
def crossingSession : Session where
  disk :=
    { root := .dir [("app", .dir [("b.php", .file []), ("a.php", .file []), ("up", .link "..")]),
        ("lib", .link "app")]
      cwd := [] }
  settings := {}
  grammar := fun _ => .error .noTree
  load := fun _ => .ok []
  workers := fun _ => WorkStep.crossing

theorem uncancelled_crossing : crossingSession.Uncancelled := fun _ _ => rfl

theorem thorough_crossing : crossingSession.Thorough := fun _ => covers_crossing

/-- A session with workers that cross, on two files of which the first makes no tree and the second
    cannot be read. -/
def faultySession : Session where
  disk := { root := .dir [("app", .dir [("a.php", .file []), ("b.php", .file [])])], cwd := [] }
  settings := {}
  grammar := fun _ => .error .noTree
  load := fun file => if file = "/app/a.php" then .ok "A\nB".toList else .error "denied"
  workers := fun _ => WorkStep.crossing

theorem collect?_faulty :
    faultySession.disk.collect? (.ofOptions {} {}) "/app" = .ok ["/app/a.php", "/app/b.php"] := by
  have hpath : (Path.segments "/app").map String.ofList = ["", "app"] := rfl
  have hfind : faultySession.disk.find? "/app" =
      some (["app"], .dir [("a.php", .file []), ("b.php", .file [])]) := by
    have hdisk : faultySession.disk.root =
        .dir [("app", .dir [("a.php", .file []), ("b.php", .file [])])] := rfl
    simp [Disk.find?, Disk.locate, Disk.follow, hpath, hdisk, DiskNode.at?, Path.isAbsolute,
      Text.beginsWith]
  have hexists : faultySession.disk.exists? "/app" = true := by
    rw [Disk.exists?, hfind]
    rfl
  have hfirst : Path.join "/app" "a.php" = "/app/a.php" := by decide
  have hsecond : Path.join "/app" "b.php" = "/app/b.php" := by decide
  have henters : (FileFilter.ofOptions {} {}).excludes "/app" = false := by decide +kernel
  have haccepts : (FileFilter.ofOptions {} {}).accepts "/app/a.php" 0 = true ∧
      (FileFilter.ofOptions {} {}).accepts "/app/b.php" 0 = true := by
    constructor <;> decide +kernel
  have hlists : faultySession.disk.lists ["app"] = true := rfl
  have hsorted {α : Type} (first second : α) :
      [("a.php", first), ("b.php", second)].Pairwise fun a b => (!decide (b.1 < a.1)) = true := by
    refine .cons (fun entry hentry => ?_) (List.pairwise_singleton _ _)
    rw [List.mem_singleton.mp hentry]
    show (!decide ("b.php" < "a.php")) = true
    decide
  rw [Disk.collect?_of_listed hexists (Disk.walkError?_eq_none rfl _ _), Disk.candidates, Disk.walk,
    Disk.walkPath, hfind]
  simp only [Disk.visit, Disk.visitAll, Disk.sortByName, hfirst, hsecond, henters, hlists]
  rw [List.mergeSort_of_pairwise (hsorted _ _)]
  simp [haccepts, firstPerKey]

theorem uncancelled_faulty : faultySession.Uncancelled := fun _ _ => rfl

theorem thorough_faulty : faultySession.Thorough := fun _ => covers_crossing

/-- Workers that cross give what a single worker gives: the issues of both files in the order of the
    walk, though the second file was done first, and one file that failed. -/
theorem scanTree_crossing :
    faultySession.settings.scan.parallel = true ∧ faultySession.Thorough ∧
    ((faultySession.scanTree [.inheritance] (.ofOptions {} {}) "/app" id).runFrom {}).2.cancelled =
      false ∧
    ((faultySession.scanTree [.inheritance] (.ofOptions {} {}) "/app" id).runFrom {}).1 =
      (faultySession.alone.scanTree [.inheritance] (.ofOptions {} {}) "/app" id).run.1 ∧
    ∃ raw,
      (faultySession.alone.scanTree [.inheritance] (.ofOptions {} {}) "/app" id).run.1 = .ok raw ∧
      raw.issues.map (fun issue => (issue.path, issue.ruleName)) =
        [("/app/a.php", "parse_error"), ("/app/b.php", "scan_error")] ∧
      raw.filesScanned = 2 ∧ raw.throughput = ⟨2, 3, 1⟩ := by
  have hsettles : Settles faultySession
      (faultySession.scanTree [.inheritance] (.ofOptions {} {}) "/app" id) _ :=
    settles_scanTree "/app"
  have hquiet := hsettles.quiet uncancelled_faulty {} rfl
  obtain ⟨-, hthorough, hvalue⟩ :=
    scanTree_all_or_cancelled faultySession [.inheritance] (.ofOptions {} {}) "/app" id {}
  rw [collect?_faulty] at hvalue
  exact ⟨rfl, thorough_faulty, hquiet, hthorough thorough_faulty hquiet, _, hvalue,
    by decide +kernel, rfl, by decide +kernel⟩

end CodeAudit
