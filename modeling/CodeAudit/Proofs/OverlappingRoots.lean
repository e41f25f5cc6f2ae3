import CodeAudit.Proofs.Composition
import CodeAudit.Proofs.DisabledRules
import CodeAudit.Proofs.PrunedWalk
import Mathlib.Data.Finset.Card

/-!
# Roots that overlap

A walk gives no file twice, but a code base is scanned with one walk for each of its roots, and
nothing is remembered from one walk to the next. A file is analysed as often as there are roots that
reach it, whether roots contain one another, are given twice, or lead to one directory through
links. Files are counted once, and their issues given once, exactly if no two roots reach the same
file.

Results:
* `nodup_candidatePlaces`: one walk gives no file twice.
* `settles_scanCodebase_visits`: a scan of a code base analyses the files of its roots, one after
  the other.
* `scanCodebase_visits_per_root`: how often a file is analysed, and when every file is analysed
  once.
-/

namespace CodeAudit

open Scan Session

/-! ## One walk -/

namespace Disk

/-- The places of the files below a root, in the order of the walk. -/
def candidatePlaces (disk : Disk) (filter : FileFilter) (root : String) : List (Option Location) :=
  (disk.candidates filter root).map disk.place?

/-- One walk gives no file twice. -/
theorem nodup_candidatePlaces {disk : Disk} (hproper : disk.root.isProper = true)
    (filter : FileFilter) (root : String) : (disk.candidatePlaces filter root).Nodup := by
  rw [candidatePlaces, List.Nodup, List.pairwise_map, candidates]
  refine pairwise_firstPerKey [] _ fun p hp q hq hne => ?_
  obtain ⟨a, ha, rfl⟩ := List.mem_map.mp hp
  obtain ⟨b, hb, rfl⟩ := List.mem_map.mp hq
  have hplaceA := (resolves_of_mem_walk hproper (List.mem_of_mem_filter ha)).place?
  have hplaceB := (resolves_of_mem_walk hproper (List.mem_of_mem_filter hb)).place?
  intro h
  rw [hplaceA, hplaceB] at h
  exact hne (Option.some.inj h)

end Disk

/-! ## One walk after the other -/

namespace RawScan

theorem ofOutcomes_append (first second : List FileOutcome) :
    ofOutcomes (first ++ second) = (ofOutcomes first).merge (ofOutcomes second) := by
  induction first with
  | nil => exact (empty_merge _).symm
  | cons outcome rest ih =>
    rw [List.cons_append, ofOutcomes_cons, ih, ← merge_assoc, ← ofOutcomes_cons]

/-- Outcomes of several lists of files, merged, are those of all files. -/
theorem mergeAll_map_ofOutcomes {α : Type} (outcomes : α → List FileOutcome) (groups : List α) :
    mergeAll (groups.map fun group => ofOutcomes (outcomes group)) =
      ofOutcomes (groups.flatMap outcomes) := by
  induction groups with
  | nil => rfl
  | cons group rest ih =>
    rw [List.map_cons, mergeAll_cons, ih, List.flatMap_cons, ofOutcomes_append]

end RawScan

namespace Session

/-- The files that a scan of a code base analyses, in order: those of one root after the other. -/
def visits (s : Session) (filter : FileFilter) (base : String) (paths : List String) :
    List String :=
  (s.roots base paths).flatMap (s.disk.candidates filter)

/-- Do no two of the roots of a code base reach the same file? -/
def RootsApart (s : Session) (filter : FileFilter) (base : String) (paths : List String) : Prop :=
  (s.roots base paths).Pairwise fun a b =>
    List.Disjoint (s.disk.candidatePlaces filter a) (s.disk.candidatePlaces filter b)

theorem map_place?_visits (s : Session) (filter : FileFilter) (base : String)
    (paths : List String) :
    (s.visits filter base paths).map s.disk.place? =
      (s.roots base paths).flatMap (s.disk.candidatePlaces filter) :=
  List.map_flatMap

/-- Every file is visited at most once exactly if no two roots reach the same file. -/
theorem nodup_visits_iff {s : Session} (hproper : s.disk.root.isProper = true)
    (filter : FileFilter) (base : String) (paths : List String) :
    ((s.visits filter base paths).map s.disk.place?).Nodup ↔ s.RootsApart filter base paths := by
  rw [map_place?_visits, List.nodup_flatMap]
  exact and_iff_right fun root _ => Disk.nodup_candidatePlaces hproper filter root

/-- A file is visited once for each root that reaches it. -/
theorem count_visits {s : Session} (hproper : s.disk.root.isProper = true) (filter : FileFilter)
    (base : String) (paths : List String) (place : Option Location) :
    ((s.visits filter base paths).map s.disk.place?).count place =
      (s.roots base paths).countP fun root => (s.disk.candidatePlaces filter root).contains place
    := by
  rw [map_place?_visits]
  induction s.roots base paths with
  | nil => rfl
  | cons root rest ih =>
    rw [List.flatMap_cons, List.count_append, ih, List.countP_cons,
      (Disk.nodup_candidatePlaces hproper filter root).count, Nat.add_comm]
    simp only [List.contains_iff_mem]

end Session

/-- A scan of a code base whose roots can be listed is settled on the outcomes of all its visits. -/
theorem settles_scanCodebase_visits {s : Session} {requested : List String}
    {categories : List Category} (hr : Category.resolve requested = .ok categories)
    (options : ScanOptions) {base : String} (hbase : s.disk.isDir base = true)
    {paths : List String} (hwalk : ∀ root ∈ s.roots base paths,
      s.disk.walkError? (.ofOptions options s.settings.scan) root = none) :
    Settles s (s.scanCodebase base paths requested options)
      (.ok (RawScan.ofOutcomes ((s.visits (.ofOptions options s.settings.scan) base paths).map
        (s.analyzeFile categories))).toResult) := by
  rw [visits, List.map_flatMap, ← RawScan.mergeAll_map_ofOutcomes]
  exact settles_scanCodebase_of_listed hr hbase hwalk

/-- A scan of a code base whose roots can be listed gives the issues of its visits, one after the
    other, and counts its visits; it gives nothing else unless it is cancelled. A file is visited
    once for each root that reaches it. So every file is visited at most once exactly if no two
    roots reach the same file, and exactly then the files that are counted are as many as there are
    different files. -/
theorem scanCodebase_visits_per_root (s : Session) (hproper : s.disk.root.isProper = true)
    (requested : List String) (categories : List Category)
    (hr : Category.resolve requested = .ok categories) (options : ScanOptions) (base : String)
    (hbase : s.disk.isDir base = true) (paths : List String)
    (hwalk : ∀ root ∈ s.roots base paths,
      s.disk.walkError? (.ofOptions options s.settings.scan) root = none) :
    let filter := FileFilter.ofOptions options s.settings.scan
    let places := (s.visits filter base paths).map s.disk.place?
    ∃ result : ScanResult,
      ((s.scanCodebase base paths requested options).run.1 = .error .cancelled ∨
        (s.scanCodebase base paths requested options).run.1 = .ok result) ∧
      (s.Uncancelled → s.Thorough →
        (s.scanCodebase base paths requested options).run.1 = .ok result) ∧
      result.issues = (s.visits filter base paths).flatMap
        (fun path => (s.analyzeFile categories path).issues) ∧
      result.summary.filesScanned = places.length ∧
      (∀ place, places.count place = (s.roots base paths).countP fun root =>
        (s.disk.candidatePlaces filter root).contains place) ∧
      ((∀ place, places.count place ≤ 1) ↔ s.RootsApart filter base paths) ∧
      (result.summary.filesScanned = places.toFinset.card ↔ s.RootsApart filter base paths) := by
  intro filter places
  have hsettles := settles_scanCodebase_visits hr options hbase hwalk
  have hlength : (RawScan.ofOutcomes ((s.visits filter base paths).map
      (s.analyzeFile categories))).toResult.summary.filesScanned = places.length := by
    show ((s.visits filter base paths).map (s.analyzeFile categories)).length = places.length
    rw [List.length_map, List.length_map]
  have hapart : places.Nodup ↔ s.RootsApart filter base paths :=
    nodup_visits_iff hproper filter base paths
  refine ⟨_, hsettles.result_or {}, hsettles.run, ?_, hlength, ?_, ?_, ?_⟩
  · exact List.flatMap_map _ _ _
  · intro place
    exact count_visits hproper filter base paths place
  · rw [← List.nodup_iff_count_le_one]
    exact hapart
  · rw [hlength, eq_comm]
    exact Multiset.toFinset_card_eq_card_iff_nodup.trans hapart

/-! ## Nested roots -/

/-- A session with a single file, which cannot be read, in a directory inside of another. -/
def nestedSession : Session where
  disk :=
    { root := .dir [("app", .dir [("views", .dir [("a.blade.php", .file [])])])]
      cwd := [] }
  settings := {}
  grammar := fun _ => .error .noTree
  load := fun _ => .error "denied"

theorem find?_nested :
    (nestedSession.disk.find? "." = some ([], nestedSession.disk.root)) ∧
    (nestedSession.disk.find? "./app" =
      some (["app"], .dir [("views", .dir [("a.blade.php", .file [])])])) ∧
    (nestedSession.disk.find? "./app/views" =
      some (["app", "views"], .dir [("a.blade.php", .file [])])) ∧
    nestedSession.disk.find? "./app/views/a.blade.php" =
      some (["app", "views", "a.blade.php"], .file []) := by
  have hbase : (Path.segments ".").map String.ofList = ["."] := rfl
  have happ : (Path.segments "./app").map String.ofList = [".", "app"] := rfl
  have hviews : (Path.segments "./app/views").map String.ofList = [".", "app", "views"] := rfl
  have hfile : (Path.segments "./app/views/a.blade.php").map String.ofList =
      [".", "app", "views", "a.blade.php"] := rfl
  refine ⟨?_, ?_, ?_, ?_⟩ <;>
    simp [Disk.find?, Disk.locate, Disk.follow, hbase, happ, hviews, hfile, nestedSession,
      DiskNode.at?, Path.isAbsolute, Text.beginsWith]

theorem roots_nested :
    nestedSession.roots "." ["app", "app/views"] = ["./app", "./app/views"] := by
  obtain ⟨_, happ, hviews, _⟩ := find?_nested
  have hpaths : ["app", "app/views"].map (Path.join ".") = ["./app", "./app/views"] := by decide
  rw [roots, if_neg (by decide), hpaths]
  simp [Disk.isDir, happ, hviews]

theorem visits_nested :
    nestedSession.visits (.ofOptions {} {}) "." ["app", "app/views"] =
      ["./app/views/a.blade.php", "./app/views/a.blade.php"] := by
  obtain ⟨_, happ, hviews, _⟩ := find?_nested
  have hjoinViews : Path.join "./app" "views" = "./app/views" := by decide
  have hjoinFile : Path.join "./app/views" "a.blade.php" = "./app/views/a.blade.php" := by decide
  have hentersApp : (FileFilter.ofOptions {} {}).excludes "./app" = false := by decide +kernel
  have hentersViews : (FileFilter.ofOptions {} {}).excludes "./app/views" = false := by
    decide +kernel
  have haccepts : (FileFilter.ofOptions {} {}).accepts "./app/views/a.blade.php" 0 = true := by
    decide +kernel
  have hlists : ∀ location, nestedSession.disk.lists location = true := Disk.lists_eq_true rfl
  have hcandidatesApp : nestedSession.disk.candidates (.ofOptions {} {}) "./app" =
      ["./app/views/a.blade.php"] := by
    rw [Disk.candidates, Disk.walk, Disk.walkPath, happ]
    simp [Disk.visit, Disk.visitAll, Disk.sortByName, hjoinViews, hjoinFile, hentersApp,
      hentersViews, hlists, haccepts, firstPerKey]
  have hcandidatesViews : nestedSession.disk.candidates (.ofOptions {} {}) "./app/views" =
      ["./app/views/a.blade.php"] := by
    rw [Disk.candidates, Disk.walk, Disk.walkPath, hviews]
    simp [Disk.visit, Disk.visitAll, Disk.sortByName, hjoinFile, hentersViews, hlists, haccepts,
      firstPerKey]
  rw [visits, roots_nested, List.flatMap_cons, List.flatMap_cons, List.flatMap_nil,
    hcandidatesApp, hcandidatesViews]
  rfl

theorem isDir_nested : nestedSession.disk.isDir "." = true := by
  rw [Disk.isDir, find?_nested.1]
  rfl

theorem uncancelled_nested : nestedSession.Uncancelled := fun _ _ => rfl

theorem thorough_nested : nestedSession.Thorough := fun _ => covers_sequential

/-- The scan of two roots of which one holds the other. -/
theorem scanCodebase_visits_nested :
    nestedSession.disk.root.isProper = true ∧ Category.resolve ["template"] = .ok [.template] ∧
    nestedSession.disk.isDir "." = true ∧
    (∀ root ∈ nestedSession.roots "." ["app", "app/views"],
      nestedSession.disk.walkError? (.ofOptions {} {}) root = none) ∧
    ∃ result : ScanResult,
      (nestedSession.scanCodebase "." ["app", "app/views"] ["template"] {}).run.1 = .ok result ∧
      (result.summary.filesScanned =
          ((nestedSession.visits (.ofOptions {} {}) "." ["app", "app/views"]).map
            nestedSession.disk.place?).toFinset.card ↔
        nestedSession.RootsApart (.ofOptions {} {}) "." ["app", "app/views"]) := by
  have hproper : nestedSession.disk.root.isProper = true := by decide +kernel
  have hwalk : ∀ root ∈ nestedSession.roots "." ["app", "app/views"],
      nestedSession.disk.walkError? (.ofOptions {} {}) root = none :=
    fun root _ => Disk.walkError?_eq_none rfl _ root
  obtain ⟨result, _, hrun, _, _, _, _, hcount⟩ := scanCodebase_visits_per_root nestedSession hproper
    ["template"] [.template] rfl {} "." isDir_nested ["app", "app/views"] hwalk
  exact ⟨hproper, rfl, isDir_nested, hwalk, result, hrun uncancelled_nested thorough_nested,
    hcount⟩

/-- Two roots of which one holds the other give the issue of their only file twice and count two
    files. -/
theorem nested_roots_visit_twice :
    ∃ result : ScanResult,
      (nestedSession.scanCodebase "." ["app", "app/views"] ["template"] {}).run.1 = .ok result ∧
      result.summary.filesScanned = 2 ∧
      ((nestedSession.visits (.ofOptions {} {}) "." ["app", "app/views"]).map
        nestedSession.disk.place?).toFinset.card = 1 ∧
      ∃ issue, (nestedSession.analyzeFile [.template] "./app/views/a.blade.php").issues = [issue] ∧
        result.issues = [issue, issue] := by
  have hsettles : Settles nestedSession
      (nestedSession.scanCodebase "." ["app", "app/views"] ["template"] {})
      (.ok (RawScan.ofOutcomes ((nestedSession.visits (.ofOptions {} {}) "."
        ["app", "app/views"]).map (nestedSession.analyzeFile [.template]))).toResult) :=
    settles_scanCodebase_visits rfl {} isDir_nested fun root _ => Disk.walkError?_eq_none rfl _ root
  have hrun := hsettles.run uncancelled_nested thorough_nested
  rw [visits_nested, List.map_cons, List.map_singleton, analyzeFile_of_error rfl] at hrun
  rw [visits_nested, List.map_cons, List.map_singleton, Disk.place?, find?_nested.2.2.2,
    analyzeFile_of_error rfl]
  exact ⟨_, hrun, rfl, rfl, _, rfl, rfl⟩

end CodeAudit
