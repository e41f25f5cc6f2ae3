import CodeAudit.Proofs.Settled
import CodeAudit.Proofs.WalkedFiles
import Mathlib.Algebra.Ring.Nat

/-!
# Scans are made of the scans of their parts

A scan of a directory could be done file by file, and a scan of a code base root by root: the
results of the parts, put together, are the result of the whole. Nothing is summed up twice. The
score, the summary and the groups are those of all issues, not sums of those of the parts.

Results:
* `combine_toResult`: outcomes that are merged and then summed up combine their results.
* `settles_scanFile`, `settles_scanDirectory`, `settles_scanCodebase`: what scans give unless they
  are cancelled. A directory that cannot be listed makes them fail.
* `scan_eq_combine_parts`: scans of directories and code bases combine the scans of their parts.
-/

namespace CodeAudit

open Scan Session

/-! ## Results of parts -/

/-- The result of several scans together. -/
def ScanResult.combine (parts : List ScanResult) : ScanResult :=
  .ofIssues (parts.flatMap ScanResult.issues) (parts.map fun part => part.summary.filesScanned).sum
    { lines := (parts.map fun part => part.throughput.lines).sum
      bytes := (parts.map fun part => part.throughput.bytes).sum
      filesFailed := (parts.map fun part => part.throughput.filesFailed).sum }

namespace RawScan

theorem merge_assoc (a b c : RawScan) : (a.merge b).merge c = a.merge (b.merge c) := by
  simp only [merge, Throughput.merge, List.append_assoc, Nat.add_assoc]

theorem empty_merge (a : RawScan) : RawScan.merge {} a = a := by
  simp only [merge, Throughput.merge, List.nil_append, Nat.zero_add]

theorem merge_empty (a : RawScan) : a.merge {} = a := by
  simp only [merge, Throughput.merge, List.append_nil, Nat.add_zero]

/-- Several outcomes together. -/
def mergeAll (raws : List RawScan) : RawScan :=
  raws.foldl merge {}

theorem foldl_merge (raws : List RawScan) (start : RawScan) :
    raws.foldl merge start = start.merge (mergeAll raws) := by
  induction raws generalizing start with
  | nil => exact (merge_empty start).symm
  | cons raw rest ih =>
    rw [mergeAll, List.foldl_cons, List.foldl_cons, ih, ih, empty_merge, merge_assoc]

theorem mergeAll_cons (raw : RawScan) (rest : List RawScan) :
    mergeAll (raw :: rest) = raw.merge (mergeAll rest) := by
  rw [mergeAll, List.foldl_cons, foldl_merge, empty_merge]

theorem foldl_throughput (outcomes : List FileOutcome) (start : Throughput) :
    outcomes.foldl (fun sum o => sum.merge o.throughput) start =
      start.merge (ofOutcomes outcomes).throughput := by
  rw [ofOutcomes]
  induction outcomes generalizing start with
  | nil => rfl
  | cons outcome rest ih =>
    rw [List.foldl_cons, List.foldl_cons, ih, ih (Throughput.merge {} _)]
    simp only [Throughput.merge, Nat.zero_add, Nat.add_assoc]

theorem ofOutcomes_cons (outcome : FileOutcome) (rest : List FileOutcome) :
    ofOutcomes (outcome :: rest) = (ofOutcomes [outcome]).merge (ofOutcomes rest) := by
  rw [merge, ← foldl_throughput]
  simp only [ofOutcomes, List.flatMap_cons, List.flatMap_nil, List.append_nil, List.length_cons,
    List.length_nil, Nat.zero_add, Nat.add_comm, List.foldl_cons, List.foldl_nil]

/-- The outcome of files is merged from those of the single files. -/
theorem ofOutcomes_eq_mergeAll (outcomes : List FileOutcome) :
    ofOutcomes outcomes = mergeAll (outcomes.map fun outcome => ofOutcomes [outcome]) := by
  induction outcomes with
  | nil => rfl
  | cons outcome rest ih => rw [ofOutcomes_cons, List.map_cons, mergeAll_cons, ih]

/-- Outcomes that are merged and then summed up combine their results. -/
theorem combine_toResult (raws : List RawScan) :
    ScanResult.combine (raws.map toResult) = (mergeAll raws).toResult := by
  have hmerge : mergeAll raws =
      { issues := raws.flatMap issues
        filesScanned := (raws.map filesScanned).sum
        throughput :=
          { lines := (raws.map fun raw => raw.throughput.lines).sum
            bytes := (raws.map fun raw => raw.throughput.bytes).sum
            filesFailed := (raws.map fun raw => raw.throughput.filesFailed).sum } } := by
    induction raws with
    | nil => rfl
    | cons raw rest ih =>
      rw [mergeAll_cons, ih]
      simp only [merge, Throughput.merge, List.flatMap_cons, List.map_cons, List.sum_cons]
  rw [hmerge, ScanResult.combine, toResult, List.flatMap_map, List.map_map, List.map_map,
    List.map_map, List.map_map]
  rfl

end RawScan

/-! ## Parts that may fail -/

theorem mapM_eq_ok {α β ε : Type} {f : α → Except ε β} {g : α → β} {xs : List α}
    (h : ∀ x ∈ xs, f x = .ok (g x)) : xs.mapM f = .ok (xs.map g) := by
  induction xs with
  | nil => rfl
  | cons x rest ih =>
    rw [List.mapM_cons, h x List.mem_cons_self,
      ih fun y hy => h y (List.mem_cons_of_mem _ hy)]
    rfl

theorem mapM_eq_map {α β γ ε : Type} {f : α → Except ε β} {f' : α → Except ε γ} {g : β → γ}
    {xs : List α} (h : ∀ x ∈ xs, f' x = (f x).map g) :
    xs.mapM f' = (xs.mapM f).map (List.map g) := by
  induction xs with
  | nil => rfl
  | cons x rest ih =>
    rw [List.mapM_cons, List.mapM_cons, h x List.mem_cons_self,
      ih fun y hy => h y (List.mem_cons_of_mem _ hy)]
    cases f x with
    | error e => rfl
    | ok y => cases rest.mapM f <;> rfl

/-! ## Scans that are not cancelled -/

section Scans

variable {s : Session} {requested : List String} {categories : List Category}
  {options : ScanOptions}

theorem settles_scanFile (hr : Category.resolve requested = .ok categories) {path : String}
    (hexists : s.disk.exists? path = true) (hfile : s.disk.isFile path = true)
    (haccepts : s.disk.acceptsFile (.ofOptions options s.settings.scan) path = true) :
    Settles s (s.scanFile path requested options)
      (.ok (RawScan.ofOutcomes [s.analyzeFile categories path]).toResult) := by
  rw [scanFile, hr]
  refine .bind (.report _) (.bind (settles_requireTarget hexists hfile) ?_)
  refine .bind (settles_requireTarget hexists haccepts) (.bind (.lift _) ?_)
  refine .bind (.report _) (.bind .check (.bind (.report _) ?_))
  exact .bind (.report _) (.bind (.report _) (.pure _))

theorem settles_scanDirectory (hr : Category.resolve requested = .ok categories) {dir : String}
    (hdir : s.disk.isDir dir = true) :
    Settles s (s.scanDirectory dir requested options)
      ((treeOutcome s categories (.ofOptions options s.settings.scan) dir).map
        RawScan.toResult) := by
  rw [scanDirectory, hr]
  refine .bind (.report _) (.bind (settles_requireTarget (Disk.exists?_of_isDir hdir) hdir) ?_)
  refine .bind (.lift _) (.map (settles_scanTree dir) fun raw => ?_)
  exact .bind (.report _) (.bind (.report _) (.pure _))

theorem settles_scanDirectory_of_listed (hr : Category.resolve requested = .ok categories)
    {dir : String} (hdir : s.disk.isDir dir = true)
    (hwalk : s.disk.walkError? (.ofOptions options s.settings.scan) dir = none) :
    Settles s (s.scanDirectory dir requested options)
      (.ok (treeScan s categories (.ofOptions options s.settings.scan) dir).toResult) := by
  have h : Settles s (s.scanDirectory dir requested options) _ := settles_scanDirectory hr hdir
  rwa [treeOutcome_of_listed (Disk.exists?_of_isDir hdir) hwalk] at h

theorem settles_scanDirectory_of_walkError? (hr : Category.resolve requested = .ok categories)
    {dir : String} {e : ScanError}
    (hwalk : s.disk.walkError? (.ofOptions options s.settings.scan) dir = some e) :
    Settles s (s.scanDirectory dir requested options) (.error e) := by
  have h : Settles s (s.scanDirectory dir requested options) _ :=
    settles_scanDirectory hr (Disk.isDir_of_walkError? hwalk)
  rwa [treeOutcome, Disk.collect?_of_walkError? hwalk] at h

/-- A root is counted whether it can be listed or not. -/
theorem settles_countFiles {filter : FileFilter} {roots : List String}
    (hroots : ∀ root ∈ roots, s.disk.isDir root = true) :
    Settles s (s.countFiles filter roots)
      (.ok (roots.map fun root => (s.disk.candidates filter root).length)) := by
  have hfold : roots.map (fun root => (s.disk.candidates filter root).length) =
      roots.foldl (fun counts root => counts ++ [(s.disk.candidates filter root).length]) [] := by
    rw [List.foldl_append_eq_append, List.nil_append, List.map_eq_flatMap, List.flatMap_def]
  have hsteps : roots.foldlM (fun counts root =>
        (pure (counts ++ [(s.disk.candidates filter root).length]) : Except ScanError _)) [] =
      .ok (roots.map fun root => (s.disk.candidates filter root).length) := by
    rw [List.foldlM_pure, hfold]
    rfl
  rw [← hsteps, countFiles]
  refine .foldlM (fun counts root hroot => ?_) []
  rw [Disk.candidates?, if_pos (Disk.exists?_of_isDir (hroots root hroot))]
  exact .bind (.lift _) (.bind (.report _) (.pure _))

/-- What is merged after a root with a number of counted files has given its outcome. -/
def mergedWith (merged : Merged) (count : Nat) (raw : RawScan) : Merged where
  raw := merged.raw.merge raw
  roots := merged.roots + 1
  counted := merged.counted + count

/-- What is merged after a root. -/
def rootOutcome (s : Session) (categories : List Category) (filter : FileFilter) (merged : Merged)
    (root : String × Nat) : Except ScanError Merged :=
  (treeOutcome s categories filter root.1).map (mergedWith merged root.2)

theorem settles_scanRoot {filter : FileFilter} {roots total : Nat} (merged : Merged)
    (root : String × Nat) :
    Settles s (s.scanRoot categories filter roots total merged root)
      (rootOutcome s categories filter merged root) :=
  .bind .check (.map (settles_scanTree root.1) fun _ => .bind (.report _) (.pure _))

/-- Roots are merged one after the other, up to the first that fails. The numbers of files that
    were counted do not matter. -/
theorem toResult_foldlM_rootOutcome (s : Session) (categories : List Category)
    (filter : FileFilter) (roots : List (String × Nat)) (merged : Merged) :
    (roots.foldlM (rootOutcome s categories filter) merged).map (fun merged =>
        merged.raw.toResult) =
      ((roots.map Prod.fst).mapM (treeOutcome s categories filter)).map fun raws =>
        (raws.foldl RawScan.merge merged.raw).toResult := by
  induction roots generalizing merged with
  | nil => rfl
  | cons root rest ih =>
    rw [List.foldlM_cons, List.map_cons, List.mapM_cons, rootOutcome]
    cases treeOutcome s categories filter root.1 with
    | error e => rfl
    | ok raw =>
      refine (ih (mergedWith merged root.2 raw)).trans ?_
      cases (rest.map Prod.fst).mapM (treeOutcome s categories filter) <;> rfl

theorem isDir_of_mem_roots {base root : String} {paths : List String}
    (hbase : s.disk.isDir base = true) (h : root ∈ s.roots base paths) :
    s.disk.isDir root = true := by
  rw [roots] at h
  split at h
  · rw [List.mem_singleton] at h
    rw [h, hbase]
  · exact (List.mem_filter.mp h).2

theorem settles_scanCodebase (hr : Category.resolve requested = .ok categories) {base : String}
    (hbase : s.disk.isDir base = true) (paths : List String) :
    Settles s (s.scanCodebase base paths requested options)
      (((s.roots base paths).mapM
        (treeOutcome s categories (.ofOptions options s.settings.scan))).map fun raws =>
          (RawScan.mergeAll raws).toResult) := by
  have hroots : ∀ root ∈ s.roots base paths, s.disk.isDir root = true :=
    fun root h => isDir_of_mem_roots hbase h
  have hmerged := toResult_foldlM_rootOutcome s categories (.ofOptions options s.settings.scan)
    ((s.roots base paths).zip ((s.roots base paths).map fun root =>
      (s.disk.candidates (.ofOptions options s.settings.scan) root).length)) {}
  rw [List.map_fst_zip (by rw [List.length_map])] at hmerged
  simp only [RawScan.mergeAll]
  rw [← hmerged, scanCodebase, hr]
  refine .bind (.report _) (.bind (settles_requireTarget (Disk.exists?_of_isDir hbase) hbase) ?_)
  refine .bind (.lift _) (.bind (.report _) (.bind (settles_countFiles hroots) ?_))
  refine .map (.foldlM (fun merged root _ => settles_scanRoot merged root) {}) fun merged => ?_
  exact .bind (.report _) (.bind (.report _) (.pure _))

theorem settles_scanCodebase_of_listed (hr : Category.resolve requested = .ok categories)
    {base : String} (hbase : s.disk.isDir base = true) {paths : List String}
    (hwalk : ∀ root ∈ s.roots base paths,
      s.disk.walkError? (.ofOptions options s.settings.scan) root = none) :
    Settles s (s.scanCodebase base paths requested options)
      (.ok (RawScan.mergeAll ((s.roots base paths).map
        (treeScan s categories (.ofOptions options s.settings.scan)))).toResult) := by
  have h : Settles s (s.scanCodebase base paths requested options) _ :=
    settles_scanCodebase hr hbase paths
  have hok : (s.roots base paths).mapM
        (treeOutcome s categories (.ofOptions options s.settings.scan)) =
      .ok ((s.roots base paths).map
        (treeScan s categories (.ofOptions options s.settings.scan))) :=
    mapM_eq_ok fun root hroot => treeOutcome_of_listed
      (Disk.exists?_of_isDir (isDir_of_mem_roots hbase hroot)) (hwalk root hroot)
  rwa [hok] at h

end Scans

/-! ## Scans in parts -/

/-- On a disk with proper names, with workers that do all their work and without cancellation, scans
    of directories and code bases combine the scans of their parts. For a directory that can be
    listed the parts are the files below it that the options let through, in the order of the walk,
    each scanned on its own; a directory that cannot is the error of its walk. For a code base they
    are the directories among the given paths, or the base if no path is given. All these scans
    succeed if the directories can be listed, and otherwise the scan of the code base fails as the
    first scan of a part that fails. -/
theorem scan_eq_combine_parts (s : Session) (hproper : s.disk.root.isProper = true)
    (huncancelled : s.Uncancelled) (hthorough : s.Thorough) (requested : List String)
    (categories : List Category) (hr : Category.resolve requested = .ok categories)
    (options : ScanOptions) (target : String) (hdir : s.disk.isDir target = true)
    (paths : List String) :
    let filter := FileFilter.ofOptions options s.settings.scan
    let roots := if paths = [] then [target]
      else (paths.map (Path.join target)).filter s.disk.isDir
    (s.disk.walkError? filter target = none → ∃ parts,
      ((s.disk.candidates filter target).mapM fun file =>
        (s.scanFile file requested options).run.1) = .ok parts ∧
      (s.scanDirectory target requested options).run.1 = .ok (.combine parts)) ∧
    (∀ e, s.disk.walkError? filter target = some e →
      (s.scanDirectory target requested options).run.1 = .error e) ∧
    ((∀ root ∈ roots, s.disk.walkError? filter root = none) → ∃ parts,
      (roots.mapM fun root => (s.scanDirectory root requested options).run.1) = .ok parts ∧
      (s.scanCodebase target paths requested options).run.1 = .ok (.combine parts)) ∧
    (s.scanCodebase target paths requested options).run.1 =
      (roots.mapM fun root => (s.scanDirectory root requested options).run.1).map .combine := by
  intro filter roots
  have hfiles : ∀ file ∈ s.disk.candidates filter target,
      (s.scanFile file requested options).run.1 =
        .ok (RawScan.ofOutcomes [s.analyzeFile categories file]).toResult := by
    intro file hfile
    obtain ⟨hexists, hisFile, haccepts⟩ := Disk.accepted_of_mem_candidates hproper hfile
    exact (settles_scanFile hr hexists hisFile haccepts).run huncancelled hthorough
  have hdirs : ∀ dir, s.disk.isDir dir = true →
      (s.scanDirectory dir requested options).run.1 =
        (treeOutcome s categories filter dir).map RawScan.toResult :=
    fun dir h => (settles_scanDirectory hr h).run huncancelled hthorough
  have hroots : roots = s.roots target paths := by
    cases paths with
    | nil => rfl
    | cons path rest => rfl
  have hparts : (roots.mapM fun root => (s.scanDirectory root requested options).run.1) =
      (roots.mapM (treeOutcome s categories filter)).map (List.map RawScan.toResult) :=
    mapM_eq_map fun root hroot => hdirs root (isDir_of_mem_roots hdir (hroots ▸ hroot))
  have hcodebase : (s.scanCodebase target paths requested options).run.1 =
      (roots.mapM fun root => (s.scanDirectory root requested options).run.1).map .combine := by
    rw [(settles_scanCodebase hr hdir paths).run huncancelled hthorough, hparts, ← hroots]
    cases roots.mapM (treeOutcome s categories filter) with
    | error e => rfl
    | ok raws => exact congrArg Except.ok (RawScan.combine_toResult raws).symm
  refine ⟨fun hwalk => ⟨_, mapM_eq_ok hfiles, ?_⟩, fun e he => ?_, fun hwalk => ?_, hcodebase⟩
  · rw [hdirs target hdir, treeOutcome_of_listed (Disk.exists?_of_isDir hdir) hwalk, treeScan,
      RawScan.ofOutcomes_eq_mergeAll, Except.map, ← RawScan.combine_toResult, List.map_map,
      List.map_map]
    rfl
  · exact (settles_scanDirectory_of_walkError? hr he).run huncancelled hthorough
  · have hok : (roots.mapM fun root => (s.scanDirectory root requested options).run.1) =
        .ok (roots.map fun root => (treeScan s categories filter root).toResult) := by
      refine mapM_eq_ok fun root hroot => ?_
      have hisDir : s.disk.isDir root = true := isDir_of_mem_roots hdir (hroots ▸ hroot)
      rw [hdirs root hisDir,
        treeOutcome_of_listed (Disk.exists?_of_isDir hisDir) (hwalk root hroot)]
      rfl
    exact ⟨_, hok, by rw [hcodebase, hok]; rfl⟩

/-- The scans of a directory that a link leads to, and that holds a link upwards. -/
theorem scan_crossing_eq_combine :
    crossingSession.disk.root.isProper = true ∧ crossingSession.Uncancelled ∧
    crossingSession.Thorough ∧ Category.resolve ["quality", "none"] = .ok [.quality] ∧
    crossingSession.disk.isDir "/lib" = true ∧
    (∃ parts,
      ((crossingSession.disk.candidates (.ofOptions {} {}) "/lib").mapM fun file =>
        (crossingSession.scanFile file ["quality", "none"] {}).run.1) = .ok parts ∧
      (crossingSession.scanDirectory "/lib" ["quality", "none"] {}).run.1 = .ok (.combine parts)) ∧
    ∃ parts,
      ((["/lib/up", "/lib/missing"].filter crossingSession.disk.isDir).mapM fun root =>
        (crossingSession.scanDirectory root ["quality", "none"] {}).run.1) = .ok parts ∧
      (crossingSession.scanCodebase "/lib" ["up", "missing"] ["quality", "none"] {}).run.1 =
        .ok (.combine parts) := by
  have hproper : crossingSession.disk.root.isProper = true := by decide +kernel
  have hdir : crossingSession.disk.isDir "/lib" = true := by
    have hpath : (Path.segments "/lib").map String.ofList = ["", "lib"] := rfl
    have htarget : (Path.segments "app").map String.ofList = ["app"] := rfl
    simp [Disk.isDir, Disk.find?, Disk.locate, Disk.follow, hpath, htarget, crossingSession,
      Disk.maxLinks, DiskNode.at?, List.lookup_cons, Path.isAbsolute, Text.beginsWith]
  refine ⟨hproper, uncancelled_crossing, thorough_crossing, rfl, hdir, ?_⟩
  obtain ⟨hfiles, -, hroots, -⟩ := scan_eq_combine_parts crossingSession hproper
    uncancelled_crossing thorough_crossing ["quality", "none"] [.quality] rfl {} "/lib" hdir
    ["up", "missing"]
  exact ⟨hfiles (Disk.walkError?_eq_none rfl _ _),
    hroots fun root _ => Disk.walkError?_eq_none rfl _ root⟩

end CodeAudit
