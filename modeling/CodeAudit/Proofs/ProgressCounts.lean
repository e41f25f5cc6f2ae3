import CodeAudit.Proofs.EventCounts
import CodeAudit.Proofs.UnreadableFiles

/-!
# Counts along a run

No event of a run counts more files than there are, and the last event of a run that gives a result
has the counts of the result. For a file or a directory the counts never fall on the way. A code
base is scanned root by root, and the scan of a root does not know of the roots before it: its
events begin at zero again, while the event at its end has the counts of all roots so far. So the
counts of a code base never fall exactly if there is nothing to count below all roots but the last.

Results:
* `RootsScanned.concat`: what one more root does to the counts.
* `accounts_scanFile`, `accounts_scanDirectory`, `accounts_scanCodebase`: the events of scans that
  give a result.
* `run_counts`: the counts of a run.
-/

namespace CodeAudit

open Scan Session

/-! ## Scans of code bases -/

section Codebase

variable {s : Session} {categories : List Category} {filter : FileFilter}

theorem traces_countFiles (roots : List String) :
    Traces (s.countFiles filter roots) fun counts added =>
      counts = roots.map (fun root => (s.disk.candidates filter root).length) ∧
        ∀ e ∈ added, e.counts = 0 := by
  refine .foldlM (fun before counts added =>
    counts = before.map (fun root => (s.disk.candidates filter root).length) ∧
      ∀ e ∈ added, e.counts = 0) ⟨rfl, List.forall_mem_nil _⟩ ?_
  intro before root after _ counts events hknown
  obtain ⟨hcounts, hevents⟩ := hknown
  refine .bind_lift fun files hfiles => .bind_report (.pure ⟨?_, ?_⟩)
  · rw [hcounts, Disk.eq_candidates_of_ok hfiles, List.map_append]
    rfl
  · refine List.forall_mem_append.mpr ⟨hevents, List.forall_mem_singleton.mpr ?_⟩
    rw [ProgressEvent.counts_withCounts, Tally.pick_zero]

/-- What is known of the roots that are scanned, of what they gave and of the events since the first
    of them. A count never falls exactly if there is nothing to count below all roots but the
    last. -/
structure RootsScanned (s : Session) (categories : List Category) (filter : FileFilter)
    (roots : List String) (raw : RawScan) (events : List ProgressEvent) : Prop where
  counts : ∀ tally, raw.counts tally =
    (roots.map fun root => (treeScan s categories filter root).counts tally).sum
  within : ∀ e ∈ events, e.filesProcessed ≤ e.totalFiles
  le_counts : ∀ e ∈ events, e.counts ≤ raw.counts
  reached : roots ≠ [] → ∃ e ∈ events, e.counts = raw.counts
  grows_iff : ∀ tally : Tally, tally.Grows events ↔
    ∀ root ∈ roots.dropLast, (treeScan s categories filter root).counts tally = 0

namespace RootsScanned

variable {roots : List String} {raw : RawScan} {events : List ProgressEvent}

theorem nil : RootsScanned s categories filter [] {} [] where
  counts tally := by cases tally <;> rfl
  within := List.forall_mem_nil _
  le_counts := List.forall_mem_nil _
  reached h := absurd rfl h
  grows_iff _ := iff_of_true .nil (List.forall_mem_nil _)

theorem counts_eq_zero_iff (h : RootsScanned s categories filter roots raw events)
    (tally : Tally) : raw.counts tally = 0 ↔
      ∀ root ∈ roots, (treeScan s categories filter root).counts tally = 0 := by
  rw [h.counts, List.sum_eq_zero_iff, List.forall_mem_map]

/-- One more root: its events begin at zero again, and the last of them has what is merged. -/
theorem concat (h : RootsScanned s categories filter roots raw events) {root : String}
    {added : List ProgressEvent} {last : ProgressEvent}
    (hup : CountsUp (treeScan s categories filter root).counts added)
    (hfirst : ∃ first rest, added = first :: rest ∧ first.counts = 0)
    (hlast : last.counts = (raw.merge (treeScan s categories filter root)).counts)
    (hwithin : last.filesProcessed ≤ last.totalFiles) :
    RootsScanned s categories filter (roots ++ [root])
      (raw.merge (treeScan s categories filter root)) (events ++ (added ++ [last])) := by
  have hsum := RawScan.counts_merge raw (treeScan s categories filter root)
  have hraw : raw.counts ≤ (raw.merge (treeScan s categories filter root)).counts := by
    rw [hsum]
    exact fun _ => Nat.le_add_right _ _
  have htree : (treeScan s categories filter root).counts ≤
      (raw.merge (treeScan s categories filter root)).counts := by
    rw [hsum]
    exact fun _ => Nat.le_add_left _ _
  have hroot : CountsUp last.counts (added ++ [last]) :=
    hup.concat (htree.trans hlast.ge) hwithin
  constructor
  case counts =>
    intro tally
    rw [hsum, Pi.add_apply, h.counts, List.map_append, List.sum_append, List.map_singleton,
      List.sum_singleton]
  case within => exact List.forall_mem_append.mpr ⟨h.within, hroot.within⟩
  case le_counts =>
    refine List.forall_mem_append.mpr ⟨fun e he => (h.le_counts e he).trans hraw, ?_⟩
    exact fun e he => (hroot.le_limit e he).trans hlast.le
  case reached => exact fun _ => ⟨last, by simp, hlast⟩
  case grows_iff =>
    intro tally
    rw [List.dropLast_concat, ← h.counts_eq_zero_iff, Tally.grows_append]
    constructor
    · rintro ⟨-, -, hle⟩
      by_cases hroots : roots = []
      · rw [h.counts, hroots]
        rfl
      · -- the first event of this root comes after one that has all that was merged before
        obtain ⟨e, he, hcounts⟩ := h.reached hroots
        obtain ⟨first, rest, rfl, hzero⟩ := hfirst
        have := hle e he first (by simp)
        rw [hcounts, hzero] at this
        exact Nat.le_zero.mp this
    · intro hzero
      have hevents : ∀ e ∈ events, e.counts tally = 0 := fun e he =>
        Nat.le_zero.mp ((h.le_counts e he tally).trans hzero.le)
      refine ⟨Tally.grows_of_const hevents, hroot.grows tally, fun e he later _ => ?_⟩
      rw [hevents e he]
      exact Nat.zero_le _

end RootsScanned

theorem traces_scanRoots {roots : List (String × Nat)} {number total : Nat}
    (htotal : ((roots.map Prod.fst).map fun root =>
      (treeScan s categories filter root).counts .files).sum ≤ total) :
    Traces (roots.foldlM (s.scanRoot categories filter number total) {}) fun merged added =>
      RootsScanned s categories filter (roots.map Prod.fst) merged.raw added := by
  refine .foldlM (fun before (merged : Merged) added =>
    RootsScanned s categories filter (before.map Prod.fst) merged.raw added) .nil ?_
  intro before root after hroots merged events h
  rw [scanRoot]
  refine .bind_check (.bind (traces_scanTree (keepsCounts_place _) root.1)
    fun raw added hadded => .bind_report (.pure ?_))
  obtain ⟨rfl, hup, hfirst⟩ := hadded
  rw [List.map_append]
  refine h.concat hup hfirst rfl ?_
  have hmerged : (merged.raw.merge (treeScan s categories filter root.1)).counts .files =
      merged.raw.counts .files + (treeScan s categories filter root.1).counts .files :=
    congrFun (RawScan.counts_merge _ _) _
  rw [hroots, List.map_append, List.map_cons, List.map_append, List.map_cons, List.sum_append,
    List.sum_cons] at htotal
  show (merged.raw.merge (treeScan s categories filter root.1)).counts .files ≤ total
  rw [hmerged, h.counts]
  omega

end Codebase

/-! ## Runs -/

/-- Events that count nothing, then the body of a scan, then its summary and its completion with the
    counts of the result. -/
structure Framed (zeros body : List ProgressEvent) (summary last : ProgressEvent)
    (result : ScanResult) : Prop where
  zero : ∀ e ∈ zeros, e.counts = 0
  le_counts : ∀ e ∈ body, e.counts ≤ result.counts
  within : ∀ e ∈ body, e.filesProcessed ≤ e.totalFiles
  ends : ∀ e ∈ [summary, last], e.counts = result.counts ∧ e.filesProcessed ≤ e.totalFiles

namespace Framed

variable {zeros body : List ProgressEvent} {summary last : ProgressEvent} {result : ScanResult}

theorem filesProcessed_le (h : Framed zeros body summary last result) :
    ∀ e ∈ zeros ++ body ++ [summary, last], e.filesProcessed ≤ e.totalFiles := by
  refine List.forall_mem_append.mpr ⟨List.forall_mem_append.mpr ⟨fun e he => ?_, h.within⟩,
    fun e he => (h.ends e he).2⟩
  exact ProgressEvent.within_of_counts_eq_zero (h.zero e he)

/-- Whether a count ever falls is decided by the body. -/
theorem grows_iff (h : Framed zeros body summary last result) (tally : Tally) :
    tally.Grows (zeros ++ body ++ [summary, last]) ↔ tally.Grows body := by
  have hzero : ∀ e ∈ zeros, e.counts tally = 0 := fun e he => by rw [h.zero e he]; rfl
  have hends : ∀ e ∈ [summary, last], e.counts tally = result.counts tally := fun e he => by
    rw [(h.ends e he).1]
  have hle : ∀ e ∈ zeros ++ body, e.counts tally ≤ result.counts tally := by
    refine List.forall_mem_append.mpr ⟨fun e he => ?_, fun e he => h.le_counts e he tally⟩
    rw [hzero e he]
    exact Nat.zero_le _
  rw [Tally.grows_append, Tally.grows_append]
  refine ⟨fun hall => hall.1.2.1, fun hbody => ⟨⟨Tally.grows_of_const hzero, hbody, ?_⟩,
    Tally.grows_of_const hends, ?_⟩⟩
  · intro earlier hearlier later _
    rw [hzero earlier hearlier]
    exact Nat.zero_le _
  · intro earlier hearlier later hlater
    rw [hends later hlater]
    exact hle earlier hearlier

end Framed

/-- Are the events of a scan that gives a result framed, and does a count never fall exactly under a
    condition? -/
def Accounts (scan : Scan ScanResult) (steady : Tally → Prop) : Prop :=
  Traces scan fun result events => ∃ zeros body summary last,
    events = zeros ++ body ++ [summary, last] ∧ Framed zeros body summary last result ∧
      ∀ tally : Tally, tally.Grows body ↔ steady tally

/-- A request that resolves names the known categories. -/
theorem eq_known_of_resolve {requested : List String} {categories : List Category}
    (h : Category.resolve requested = .ok categories) : categories = Category.known requested := by
  unfold Category.resolve Category.resolve? at h
  cases hknown : Category.known requested with
  | nil =>
    rw [hknown] at h
    cases h
  | cons category rest =>
    rw [hknown] at h
    exact (Except.ok.inj h).symm

namespace Session

variable (s : Session)

theorem accounts_scanFile (path : String) (requested : List String) (options : ScanOptions)
    {steady : Tally → Prop} (hsteady : ∀ tally, steady tally) :
    Accounts (s.scanFile path requested options) steady := by
  unfold Accounts
  rw [scanFile]
  refine .bind_report (.bind_requireTarget (.bind_requireTarget (.bind_lift fun categories _ =>
    .bind_report (.bind_check (.bind_report (.bind_report (.bind_report (.pure ?_))))))))
  refine ⟨[_, _, _], [], _, _, rfl, ?_, fun tally => iff_of_true .nil (hsteady tally)⟩
  constructor
  case zero => simp [Tally.pick_zero]
  case le_counts => exact List.forall_mem_nil _
  case within => exact List.forall_mem_nil _
  case ends =>
    exact List.forall_mem_cons.mpr ⟨⟨rfl, le_rfl⟩, List.forall_mem_singleton.mpr ⟨rfl, le_rfl⟩⟩

theorem accounts_scanDirectory (dir : String) (requested : List String) (options : ScanOptions)
    {steady : Tally → Prop} (hsteady : ∀ tally, steady tally) :
    Accounts (s.scanDirectory dir requested options) steady := by
  unfold Accounts
  rw [scanDirectory]
  refine .bind_report (.bind_requireTarget (.bind_lift fun categories _ =>
    .bind (traces_scanTree keepsCounts_id dir) fun raw added hadded =>
      .bind_report (.bind_report (.pure ?_))))
  obtain ⟨_, hup, _⟩ := hadded
  refine ⟨[_], added, _, _, rfl, ?_, fun tally =>
    iff_of_true (hup.grows tally) (hsteady tally)⟩
  constructor
  case zero => exact List.forall_mem_singleton.mpr (ProgressEvent.counts_make _ _ _)
  case le_counts => exact hup.le_limit
  case within => exact hup.within
  case ends =>
    exact List.forall_mem_cons.mpr ⟨⟨rfl, le_rfl⟩, List.forall_mem_singleton.mpr ⟨rfl, le_rfl⟩⟩

theorem accounts_scanCodebase (base : String) (paths requested : List String)
    (options : ScanOptions) :
    Accounts (s.scanCodebase base paths requested options) fun tally =>
      ∀ root ∈ (s.roots base paths).dropLast,
        (treeScan s (Category.known requested) (.ofOptions options s.settings.scan) root).counts
          tally = 0 := by
  unfold Accounts
  rw [scanCodebase]
  refine .bind_report (.bind_requireTarget (.bind_lift fun categories hcategories =>
    .bind_report (.bind (traces_countFiles _) fun counts counted hknown => ?_)))
  obtain ⟨hcounts, hcounted⟩ := hknown
  obtain rfl := eq_known_of_resolve hcategories
  have hfst : ((s.roots base paths).zip counts).map Prod.fst = s.roots base paths :=
    List.map_fst_zip (by rw [hcounts, List.length_map])
  have htotal : ((s.roots base paths).map fun root => (treeScan s (Category.known requested)
      (.ofOptions options s.settings.scan) root).counts .files).sum = totalCount counts := by
    rw [hcounts]
    refine congrArg List.sum (List.map_congr_left fun root _ => ?_)
    exact List.length_map _
  refine .bind (traces_scanRoots (by rw [hfst]; exact htotal.le)) fun merged added hroots =>
    .bind_report (.bind_report (.pure ?_))
  rw [hfst] at hroots
  refine ⟨_ :: _ :: counted, added, _, _, (List.append_assoc (_ :: _ :: counted) added _).symm, ?_,
    hroots.grows_iff⟩
  constructor
  case zero =>
    refine List.forall_mem_cons.mpr ⟨ProgressEvent.counts_make _ _ _, ?_⟩
    exact List.forall_mem_cons.mpr ⟨ProgressEvent.counts_make _ _ _, hcounted⟩
  case le_counts => exact hroots.le_counts
  case within => exact hroots.within
  case ends =>
    refine List.forall_mem_cons.mpr ⟨⟨rfl, ?_⟩, List.forall_mem_singleton.mpr ⟨rfl, le_rfl⟩⟩
    exact ((hroots.counts .files).trans htotal).le

/-- The roots of a request after which the scan goes on with another root. -/
def earlierRoots (r : ScanRequest) : List String :=
  match r.kind with
  | .file => []
  | .directory => []
  | .codebase => (s.roots r.target s.settings.scan.defaultPaths).dropLast

/-- What a request finds below a root. -/
def rootScan (r : ScanRequest) (root : String) : RawScan :=
  treeScan s (Category.known r.categories) (.ofOptions r.options s.settings.scan) root

theorem accounts_scanRequest (r : ScanRequest) :
    Accounts (s.scanRequest r) fun tally =>
      ∀ root ∈ s.earlierRoots r, (s.rootScan r root).counts tally = 0 := by
  rw [scanRequest]
  unfold earlierRoots
  cases r.kind with
  | file => exact s.accounts_scanFile _ _ _ fun _ => List.forall_mem_nil _
  | directory => exact s.accounts_scanDirectory _ _ _ fun _ => List.forall_mem_nil _
  | codebase => exact s.accounts_scanCodebase _ _ _ _

variable {s} {r : ScanRequest} {result : ScanResult}

theorem run_framed (h : (s.run r).1 = .ok result) :
    ∃ zeros body summary last, (s.run r).2.events = zeros ++ body ++ [summary, last] ∧
      Framed zeros body summary last result ∧
      ∀ tally : Tally, tally.Grows body ↔
        ∀ root ∈ s.earlierRoots r, (s.rootScan r root).counts tally = 0 := by
  have hrun : s.run r = (.ok result, (s.run r).2) := Prod.ext h rfl
  obtain ⟨added, hadded, hframed⟩ :=
    s.accounts_scanRequest r {} result (s.run r).2 (run_eq_ok_iff.mp hrun)
  rw [show (s.run r).2.events = added from hadded]
  exact hframed

theorem run_grows_iff (h : (s.run r).1 = .ok result) (tally : Tally) :
    tally.Grows (s.run r).2.events ↔
      ∀ root ∈ s.earlierRoots r, (s.rootScan r root).counts tally = 0 := by
  obtain ⟨zeros, body, summary, last, hevents, hframed, hbody⟩ := run_framed h
  rw [hevents, hframed.grows_iff, hbody]

theorem rootScan_files_eq_zero (s : Session) (r : ScanRequest) (root : String) :
    (s.rootScan r root).counts .files = 0 ↔
      s.disk.candidates (.ofOptions r.options s.settings.scan) root = [] := by
  rw [← List.length_eq_zero_iff]
  exact Eq.congr_left (List.length_map _)

theorem rootScan_issues_eq_zero (s : Session) (r : ScanRequest) (root : String) :
    (s.rootScan r root).counts .issues = 0 ↔
      ∀ file ∈ s.disk.candidates (.ofOptions r.options s.settings.scan) root,
        (s.analyzeFile (Category.known r.categories) file).issues = [] := by
  have hissues : (s.rootScan r root).counts .issues = (s.rootScan r root).issues.length := rfl
  rw [hissues, List.length_eq_zero_iff, rootScan, treeScan, RawScan.ofOutcomes,
    List.flatMap_eq_nil_iff, List.forall_mem_map]

/-- The counts of a run that gives a result. No event counts more files than there are, and the last
    event has the counts of the result. The counts of a code base begin again with every root, so
    that they never fall exactly if there is nothing to count below all roots but the last; those of
    a file or of a directory never fall. -/
theorem run_counts (s : Session) (r : ScanRequest) (result : ScanResult)
    (h : (s.run r).1 = .ok result) :
    (∀ e ∈ (s.run r).2.events, e.filesProcessed ≤ e.totalFiles) ∧
    (∃ last, (s.run r).2.events.getLast? = some last ∧
      last.filesProcessed = result.summary.filesScanned ∧
      last.issuesFound = result.issues.length) ∧
    (((s.run r).2.events.Pairwise fun earlier later =>
        earlier.filesProcessed ≤ later.filesProcessed) ↔
      ∀ root ∈ s.earlierRoots r,
        s.disk.candidates (.ofOptions r.options s.settings.scan) root = []) ∧
    (((s.run r).2.events.Pairwise fun earlier later =>
        earlier.issuesFound ≤ later.issuesFound) ↔
      ∀ root ∈ s.earlierRoots r,
        ∀ file ∈ s.disk.candidates (.ofOptions r.options s.settings.scan) root,
          (s.analyzeFile (Category.known r.categories) file).issues = []) := by
  obtain ⟨zeros, body, summary, last, hevents, hframed, -⟩ := run_framed h
  have hlast := (hframed.ends last (by simp)).1
  refine ⟨?_, ⟨last, ?_, congrFun hlast .files, congrFun hlast .issues⟩, ?_, ?_⟩
  · rw [hevents]
    exact hframed.filesProcessed_le
  · rw [hevents, List.getLast?_append]
    rfl
  · simp only [← rootScan_files_eq_zero]
    exact run_grows_iff h .files
  · simp only [← rootScan_issues_eq_zero]
    exact run_grows_iff h .issues

end Session

/-- The request for the whole code base of the mixed session. -/
def mixedRequest : ScanRequest := { kind := .codebase, target := ".", categories := ["template"] }

theorem roots_mixed : mixedSession.roots "." ["app", "lib"] = ["./app", "./lib"] := by
  obtain ⟨_, happ, hlib⟩ := isDir_mixed
  have hpaths : ["app", "lib"].map (Path.join ".") = ["./app", "./lib"] := by decide
  rw [roots, if_neg (by decide), hpaths]
  simp [happ, hlib]

theorem earlierRoots_mixed : mixedSession.earlierRoots mixedRequest = ["./app"] := by
  show (mixedSession.roots "." ["app", "lib"]).dropLast = ["./app"]
  rw [roots_mixed]
  rfl

theorem run_mixed : ∃ result, (mixedSession.run mixedRequest).1 = .ok result := by
  have hresolve : Category.resolve ["template"] = .ok [.template] := rfl
  have hsettles : Settles mixedSession
      (mixedSession.scanCodebase "." ["app", "lib"] ["template"] {}) _ :=
    settles_scanCodebase_of_listed hresolve isDir_mixed.1
      fun root _ => Disk.walkError?_eq_none rfl _ root
  have hscan : (mixedSession.scanRequest mixedRequest).run.1 = .ok _ :=
    hsettles.run uncancelled_mixed thorough_mixed
  have hrun : (mixedSession.scanRequest mixedRequest).run = (.ok _, _) := Prod.ext hscan rfl
  exact ⟨_, congrArg Prod.fst (run_eq_ok_iff.mpr hrun)⟩

/-- The counts of a code base of two roots: they fall unless the first root is empty. -/
theorem run_counts_mixed :
    ∃ result, (mixedSession.run mixedRequest).1 = .ok result ∧
      (∀ e ∈ (mixedSession.run mixedRequest).2.events, e.filesProcessed ≤ e.totalFiles) ∧
      (∃ last, (mixedSession.run mixedRequest).2.events.getLast? = some last ∧
        last.filesProcessed = result.summary.filesScanned ∧
        last.issuesFound = result.issues.length) ∧
      (((mixedSession.run mixedRequest).2.events.Pairwise fun earlier later =>
          earlier.filesProcessed ≤ later.filesProcessed) ↔
        mixedSession.disk.candidates (.ofOptions {} mixedSession.settings.scan) "./app" = []) := by
  obtain ⟨result, hrun⟩ := run_mixed
  obtain ⟨hwithin, hlast, hfiles, -⟩ := run_counts mixedSession mixedRequest result hrun
  rw [earlierRoots_mixed, List.forall_mem_singleton] at hfiles
  exact ⟨result, hrun, hwithin, hlast, hfiles⟩

/-- With the second root of a code base both counts fall back to zero. -/
theorem counts_fall_back :
    ∃ result, (mixedSession.run mixedRequest).1 = .ok result ∧
      ¬ ((mixedSession.run mixedRequest).2.events.Pairwise fun earlier later =>
        earlier.filesProcessed ≤ later.filesProcessed) ∧
      ¬ ((mixedSession.run mixedRequest).2.events.Pairwise fun earlier later =>
        earlier.issuesFound ≤ later.issuesFound) := by
  obtain ⟨result, hrun⟩ := run_mixed
  have hroot : "./app" ∈ mixedSession.earlierRoots mixedRequest := by
    rw [earlierRoots_mixed]
    exact List.mem_singleton_self _
  have hcandidates : mixedSession.disk.candidates
      (.ofOptions mixedRequest.options mixedSession.settings.scan) "./app" =
        ["./app/a.blade.php", "./app/b.blade.php"] := candidates_mixed
  refine ⟨result, hrun, fun hgrows => ?_, fun hgrows => ?_⟩
  · have hzero := (run_grows_iff hrun .files).mp hgrows "./app" hroot
    rw [rootScan_files_eq_zero, hcandidates] at hzero
    cases hzero
  · have hzero := (run_grows_iff hrun .issues).mp hgrows "./app" hroot
    rw [rootScan_issues_eq_zero, hcandidates] at hzero
    have hnone := hzero "./app/a.blade.php" List.mem_cons_self
    have hload : mixedSession.load "./app/a.blade.php" = .error "denied" := by decide +kernel
    rw [analyzeFile_of_error hload] at hnone
    cases hnone

end CodeAudit
