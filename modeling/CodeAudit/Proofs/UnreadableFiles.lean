import CodeAudit.Proofs.OverlappingRoots
import CodeAudit.Proofs.RequestedCategories

/-!
# Unreadable files

A file that cannot be read costs a scan what the file itself would have given, and nothing else. The
scan goes on, the file is counted as scanned and as failed, and one issue says why it could not be
read. All other files give what they give next to files that can be read. It is different with the
directory itself: if the walk cannot list it, the scan fails, whatever could be read below it.

Results:
* `path_of_mem_analyzeFile`: the issues of a file carry its path.
* `count_scanErrors`: the files that give an issue about themselves.
* `analyzeFile_loading`: the outcome of a file depends on its own content only.
* `scanDirectory_contains_unreadable`: what unreadable files do to the scan of a directory.
* `scanDirectory_fails_whole`: what makes the scan of a directory fail.
-/

namespace CodeAudit

open Session

/-! ## Outcomes of many files -/

theorem countP_flatMap_of {α β : Type} {f : α → List β} {p : β → Bool} {q : α → Bool}
    {keys : List α} (h : ∀ key ∈ keys, (f key).countP p = if q key then 1 else 0) :
    (keys.flatMap f).countP p = keys.countP q := by
  induction keys with
  | nil => rfl
  | cons key rest ih =>
    obtain ⟨hkey, hrest⟩ := List.forall_mem_cons.mp h
    rw [List.flatMap_cons, List.countP_append, hkey, ih hrest, List.countP_cons, Nat.add_comm]

/-! ## The issues of one file -/

theorem Subject.Finds.path_eq {s : Subject} {category : Category} {onRow : Nat → Prop}
    {issue : Issue} (h : s.Finds category onRow issue) : issue.path = s.path := by
  induction h with
  | report => rfl
  | withMetadata key value _ ih => exact ih
  | withColumn column _ ih => exact ih

theorem Subject.Finds.ruleName_ne {s : Subject} {category : Category} {onRow : Nat → Prop}
    {issue : Issue} (h : s.Finds category onRow issue) : issue.ruleName ≠ "scan_error" := by
  have hfinding := h.isFindingOf category
  intro hname
  simp [Issue.isFindingOf, Issue.isDiagnostic, hname] at hfinding

/-- The contents of those files that can be read, in order. -/
def contents (load : String → Except String (List Char)) (files : List String) :
    List (List Char) :=
  files.filterMap fun file => (load file).toOption

section Contents

variable {load other : String → Except String (List Char)} {file : String}

theorem contents_cons_error {e : String} (h : load file = .error e) (rest : List String) :
    contents load (file :: rest) = contents load rest :=
  List.filterMap_cons_none (by rw [h]; rfl)

theorem contents_cons_ok {content : List Char} (h : load file = .ok content)
    (rest : List String) : contents load (file :: rest) = content :: contents load rest :=
  List.filterMap_cons_some (by rw [h]; rfl)

/-- Two loaders that agree on the files that the one can read differ by what the other reads of the
    remaining files. -/
theorem sum_contents {files : List String}
    (h : ∀ file ∈ files, (load file).isOk = true → other file = load file)
    (weight : List Char → Nat) :
    ((contents other files).map weight).sum =
      ((contents load files).map weight).sum +
        ((contents other (files.filter fun file => !(load file).isOk)).map weight).sum := by
  induction files with
  | nil => rfl
  | cons file rest ih =>
    obtain ⟨hfile, hrest⟩ := List.forall_mem_cons.mp h
    have hsum := ih hrest
    cases hload : load file with
    | ok content =>
      have hother : other file = .ok content := (hfile (by rw [hload]; rfl)).trans hload
      rw [contents_cons_ok hload, contents_cons_ok hother,
        List.filter_cons_of_neg (by rw [hload]; exact Bool.false_ne_true), List.map_cons,
        List.map_cons, List.sum_cons, List.sum_cons, hsum, Nat.add_assoc]
    | error e =>
      rw [contents_cons_error hload, List.filter_cons_of_pos (by rw [hload]; rfl)]
      cases hother : other file with
      | error e' => rw [contents_cons_error hother, contents_cons_error hother, hsum]
      | ok content =>
        rw [contents_cons_ok hother, contents_cons_ok hother, List.map_cons, List.map_cons,
          List.sum_cons, List.sum_cons, hsum, Nat.add_left_comm]

end Contents

/-- Does the issue say that a file could not be analysed? -/
def Issue.isScanError (issue : Issue) : Bool := issue.ruleName == "scan_error"

namespace Session

variable (s : Session) (categories : List Category)

/-- Can the file be read? -/
def reads (file : String) : Bool := (s.load file).isOk

/-- Does a suite break off on the file? None does on a file that cannot be read. -/
def breaksOffOn (file : String) : Bool :=
  match s.load file with
  | .error _ => false
  | .ok content => categories.any fun category =>
      !(s.examine (s.subjectAt file content) category).isOk

theorem path_of_mem_analyzeFile {file : String} {issue : Issue}
    (h : issue ∈ (s.analyzeFile categories file).issues) : issue.path = file := by
  rcases mem_analyzeFile_issues h with
    ⟨content, _, category, _, issues, hfound, hissue⟩ | hdiagnosis
  · rw [← (Check.runAll?_eq_some_iff.mp hfound).1] at hissue
    exact (Check.reports_suite (Subject.rows_true _) category issue hissue).path_eq
  · exact hdiagnosis.path

theorem analyzeFile_failed (file : String) :
    (s.analyzeFile categories file).failed = (!s.reads file || s.breaksOffOn categories file) := by
  unfold reads breaksOffOn
  cases hload : s.load file with
  | error e => rw [analyzeFile_of_error hload]; rfl
  | ok content => rw [analyzeFile_of_ok hload]; rfl

/-- A measure of outcomes that is zero for unreadable files sums up over the contents that are
    read. -/
theorem sum_analyzeFile (measure : FileOutcome → Nat) (weight : List Char → Nat)
    (herror : ∀ file e, s.load file = .error e → measure (s.analyzeFile categories file) = 0)
    (hok : ∀ file content, s.load file = .ok content →
      measure (s.analyzeFile categories file) = weight content) (files : List String) :
    (files.map fun file => measure (s.analyzeFile categories file)).sum =
      ((contents s.load files).map weight).sum := by
  induction files with
  | nil => rfl
  | cons file rest ih =>
    rw [List.map_cons, List.sum_cons, ih]
    cases hload : s.load file with
    | error e => rw [herror file e hload, contents_cons_error hload, Nat.zero_add]
    | ok content =>
      rw [hok file content hload, contents_cons_ok hload, List.map_cons, List.sum_cons]

/-- Unless a suite breaks off, a readable file gives no issue about itself but that of a syntax
    error. -/
theorem not_isScanError_of_mem {file : String} {content : List Char}
    (hload : s.load file = .ok content) (hsound : s.breaksOffOn categories file = false)
    {issue : Issue} (h : issue ∈ (s.analyzeFile categories file).issues) :
    issue.isScanError = false := by
  rw [analyzeFile_of_ok hload] at h
  simp only [breaksOffOn, hload, List.any_eq_false, Bool.not_eq_true', Bool.not_eq_false] at hsound
  refine beq_eq_false_iff_ne.mpr ?_
  rcases List.mem_append.mp (List.mem_filter.mp h).1 with hdiagnosed | hsuites
  · cases hfailure : (ParsedSource.parse s.grammar file content).failure with
    | none => simp [hfailure] at hdiagnosed
    | some failure =>
      simp only [hfailure, List.mem_singleton] at hdiagnosed
      rw [hdiagnosed]
      show "parse_error" ≠ "scan_error"
      decide
  · obtain ⟨category, hcategory, hissue⟩ := List.mem_flatMap.mp hsuites
    have hsuite := hsound category hcategory
    cases hexamine : s.examine (s.subjectAt file content) category with
    | error reason => rw [hexamine] at hsuite; cases hsuite
    | ok issues =>
      rw [suiteIssues, hexamine] at hissue
      have hfound := mem_runAll_of_examine hexamine hissue
      exact (Check.reports_suite (Subject.rows_true _) category issue hfound).ruleName_ne

theorem count_scanErrors {file : String} (hsound : s.breaksOffOn categories file = false) :
    (s.analyzeFile categories file).issues.countP Issue.isScanError =
      if !s.reads file then 1 else 0 := by
  unfold reads
  cases hload : s.load file with
  | error e => rw [analyzeFile_of_error hload]; rfl
  | ok content =>
    refine List.countP_eq_zero.mpr fun issue hissue => ?_
    rw [s.not_isScanError_of_mem categories hload hsound hissue]
    exact Bool.false_ne_true

/-! ## Other loaders -/

/-- The session with another way to read files. -/
def loading (load : String → Except String (List Char)) : Session := { s with load }

theorem analyzeFile_loading {load : String → Except String (List Char)} {file : String}
    (h : load file = s.load file) :
    (s.loading load).analyzeFile categories file = s.analyzeFile categories file := by
  have hload : (s.loading load).load file = load file := rfl
  unfold analyzeFile
  rw [hload, h]
  rfl

/-- The issues of some of the files. -/
theorem filter_path_flatMap (files : List String) (p : String → Bool) :
    (files.flatMap fun file => (s.analyzeFile categories file).issues).filter
        (fun issue => p issue.path) =
      files.flatMap fun file => if p file then (s.analyzeFile categories file).issues else [] := by
  rw [List.filter_flatMap]
  congr 1
  funext file
  cases hp : p file with
  | true =>
    refine List.filter_eq_self.mpr fun issue hissue => ?_
    rw [s.path_of_mem_analyzeFile categories hissue, hp]
  | false =>
    refine List.filter_eq_nil_iff.mpr fun issue hissue => ?_
    rw [s.path_of_mem_analyzeFile categories hissue, hp]
    exact Bool.false_ne_true

end Session

/-! ## The scan of a directory -/

/-- The result of a directory in terms of its files and their contents. -/
structure ScanResult.IsOf (result : ScanResult) (s : Session) (categories : List Category)
    (files : List String) : Prop where
  issues : result.issues = files.flatMap fun file => (s.analyzeFile categories file).issues
  filesScanned : result.summary.filesScanned = files.length
  lines : result.throughput.lines =
    ((contents s.load files).map fun text => (Text.lines text).length).sum
  bytes : result.throughput.bytes = ((contents s.load files).map Text.byteLength).sum
  filesFailed : result.throughput.filesFailed =
    files.countP fun file => !s.reads file || s.breaksOffOn categories file

theorem isOf_treeScan (s : Session) (categories : List Category) (filter : FileFilter)
    (dir : String) :
    (treeScan s categories filter dir).toResult.IsOf s categories
      (s.disk.candidates filter dir) := by
  rw [treeScan, RawScan.ofOutcomes_map]
  refine ⟨rfl, rfl, ?_, ?_, ?_⟩
  · exact s.sum_analyzeFile categories FileOutcome.lines (fun text => (Text.lines text).length)
      (fun _ _ h => by rw [analyzeFile_of_error h]) (fun _ _ h => by rw [analyzeFile_of_ok h]) _
  · exact s.sum_analyzeFile categories FileOutcome.bytes Text.byteLength
      (fun _ _ h => by rw [analyzeFile_of_error h]) (fun _ _ h => by rw [analyzeFile_of_ok h]) _
  · simp only [RawScan.toResult, ScanResult.ofIssues, analyzeFile_failed]

theorem scanDirectory_isOf {s : Session} {requested : List String} {categories : List Category}
    (hr : Category.resolve requested = .ok categories) (options : ScanOptions) {dir : String}
    (hdir : s.disk.isDir dir = true)
    (hwalk : s.disk.walkError? (.ofOptions options s.settings.scan) dir = none) :
    ∃ result : ScanResult, s.Returns (s.scanDirectory dir requested options) (.ok result) ∧
      result.IsOf s categories (s.disk.candidates (.ofOptions options s.settings.scan) dir) :=
  ⟨_, (settles_scanDirectory_of_listed hr hdir hwalk).returns, isOf_treeScan ..⟩

/-- Unreadable files of a directory are counted and give one issue each. If the walk lists the
    directory, the scan gives a result unless it is cancelled, and what it gives for all other files
    does not depend on the unreadable ones: with any loader that agrees on the other files, their
    issues are the same, and the numbers of lines and bytes grow by what that loader reads of the
    unreadable files. If the walk fails at the directory, so does the scan, with any loader. -/
theorem scanDirectory_contains_unreadable (s : Session) (hproper : s.disk.root.isProper = true)
    (requested : List String) (categories : List Category)
    (hr : Category.resolve requested = .ok categories) (options : ScanOptions) (dir : String)
    (hdir : s.disk.isDir dir = true) :
    let filter := FileFilter.ofOptions options s.settings.scan
    let files := s.disk.candidates filter dir
    let lineCount := fun text : List Char => (Text.lines text).length
    (∀ e, s.disk.walkError? filter dir = some e → ∀ load,
      (s.loading load).Returns ((s.loading load).scanDirectory dir requested options)
        (.error e)) ∧
    (s.disk.walkError? filter dir = none →
      ∃ result : ScanResult, s.Returns (s.scanDirectory dir requested options) (.ok result) ∧
        result.summary.filesScanned = files.length ∧
        (∀ file ∈ files, ∀ e, s.load file = .error e →
          result.issues.filter (fun issue => issue.path = file) =
            [Issue.scanError (Category.diagnostic categories) file
              ("Could not read file: " ++ e)]) ∧
        result.throughput.lines = ((contents s.load files).map lineCount).sum ∧
        result.throughput.bytes = ((contents s.load files).map Text.byteLength).sum ∧
        result.throughput.filesFailed =
          files.countP (fun file => !s.reads file || s.breaksOffOn categories file) ∧
        ((∀ file ∈ files, s.breaksOffOn categories file = false) →
          result.throughput.filesFailed = files.countP (fun file => !s.reads file) ∧
          result.issues.countP Issue.isScanError = files.countP fun file => !s.reads file) ∧
        ∀ load : String → Except String (List Char),
          (∀ file ∈ files, s.reads file = true → load file = s.load file) →
          ∃ other : ScanResult,
            (s.loading load).Returns ((s.loading load).scanDirectory dir requested options)
              (.ok other) ∧
            other.summary.filesScanned = files.length ∧
            other.issues.filter (fun issue => s.reads issue.path) =
              result.issues.filter (fun issue => s.reads issue.path) ∧
            other.throughput.lines = result.throughput.lines +
              ((contents load (files.filter fun file => !s.reads file)).map lineCount).sum ∧
            other.throughput.bytes = result.throughput.bytes +
              ((contents load (files.filter fun file => !s.reads file)).map
                Text.byteLength).sum) := by
  intro filter files lineCount
  -- a loader takes no part in the walk
  refine ⟨fun e he load =>
    (settles_scanDirectory_of_walkError? (s := s.loading load) hr he).returns, fun hwalk => ?_⟩
  obtain ⟨result, hreturns, hresult⟩ := scanDirectory_isOf hr options hdir hwalk
  refine ⟨result, hreturns, hresult.filesScanned, fun file hfile e hload => ?_, hresult.lines,
    hresult.bytes, hresult.filesFailed, fun hsound => ⟨?_, ?_⟩, fun load hload => ?_⟩
  · have hnodup : files.Nodup := .of_map _ (Disk.nodup_candidatePlaces hproper _ _)
    have hissues := s.filter_path_flatMap categories files fun path => path = file
    simp only [decide_eq_true_eq] at hissues
    rw [hresult.issues, hissues, flatMap_ite_of_nodup hnodup hfile, analyzeFile_of_error hload]
  · rw [hresult.filesFailed]
    refine List.countP_congr fun file hfile => ?_
    rw [hsound file hfile, Bool.or_false]
  · rw [hresult.issues]
    exact countP_flatMap_of fun file hfile => s.count_scanErrors categories (hsound file hfile)
  · obtain ⟨other, hotherReturns, hother⟩ :=
      scanDirectory_isOf (s := s.loading load) hr options hdir hwalk
    refine ⟨other, hotherReturns, hother.filesScanned, ?_, ?_, ?_⟩
    · rw [hother.issues, hresult.issues, filter_path_flatMap, filter_path_flatMap]
      refine List.flatMap_congr fun file hfile => ?_
      by_cases hreads : s.reads file = true
      · rw [if_pos hreads, if_pos hreads,
          s.analyzeFile_loading categories (hload file hfile hreads)]
      · rw [if_neg hreads, if_neg hreads]
    · rw [hother.lines, hresult.lines]
      exact sum_contents hload lineCount
    · rw [hother.bytes, hresult.bytes]
      exact sum_contents hload Text.byteLength

/-- A session with three templates in two directories, of which only the second can be read. -/
def mixedSession : Session where
  disk :=
    { root := .dir [("app", .dir [("a.blade.php", .file []), ("b.blade.php", .file [])]),
        ("lib", .dir [("c.blade.php", .file [])])]
      cwd := [] }
  settings := { scan := { defaultPaths := ["app", "lib"] } }
  grammar := fun _ => .error .noTree
  load := fun file => if file = "./app/b.blade.php" then .ok "A\nB".toList else .error "denied"

theorem find?_mixed :
    (mixedSession.disk.find? "." = some ([], mixedSession.disk.root)) ∧
    (mixedSession.disk.find? "./app" =
      some (["app"], .dir [("a.blade.php", .file []), ("b.blade.php", .file [])])) ∧
    mixedSession.disk.find? "./lib" = some (["lib"], .dir [("c.blade.php", .file [])]) := by
  have hbase : (Path.segments ".").map String.ofList = ["."] := rfl
  have happ : (Path.segments "./app").map String.ofList = [".", "app"] := rfl
  have hlib : (Path.segments "./lib").map String.ofList = [".", "lib"] := rfl
  refine ⟨?_, ?_, ?_⟩ <;>
    simp [Disk.find?, Disk.locate, Disk.follow, hbase, happ, hlib, mixedSession, DiskNode.at?,
      List.lookup_cons, Path.isAbsolute, Text.beginsWith]

theorem isDir_mixed :
    mixedSession.disk.isDir "." = true ∧ mixedSession.disk.isDir "./app" = true ∧
    mixedSession.disk.isDir "./lib" = true := by
  obtain ⟨hbase, happ, hlib⟩ := find?_mixed
  rw [Disk.isDir, Disk.isDir, Disk.isDir, hbase, happ, hlib]
  exact ⟨rfl, rfl, rfl⟩

theorem candidates_mixed :
    mixedSession.disk.candidates (.ofOptions {} mixedSession.settings.scan) "./app" =
      ["./app/a.blade.php", "./app/b.blade.php"] := by
  have hfilter : FileFilter.ofOptions {} mixedSession.settings.scan = .ofOptions {} {} := rfl
  have hjoinFirst : Path.join "./app" "a.blade.php" = "./app/a.blade.php" := by decide
  have hjoinSecond : Path.join "./app" "b.blade.php" = "./app/b.blade.php" := by decide
  have henters : (FileFilter.ofOptions {} {}).excludes "./app" = false := by decide +kernel
  have haccepts : (FileFilter.ofOptions {} {}).accepts "./app/a.blade.php" 0 = true ∧
      (FileFilter.ofOptions {} {}).accepts "./app/b.blade.php" 0 = true := by
    constructor <;> decide +kernel
  have hsorted {α : Type} (first second : α) :
      [("a.blade.php", first), ("b.blade.php", second)].Pairwise
        fun a b => (!decide (b.1 < a.1)) = true := by
    refine .cons (fun entry hentry => ?_) (List.pairwise_singleton _ _)
    rw [List.mem_singleton.mp hentry]
    show (!decide ("b.blade.php" < "a.blade.php")) = true
    decide +kernel
  have hlists : mixedSession.disk.lists ["app"] = true := rfl
  rw [hfilter, Disk.candidates, Disk.walk, Disk.walkPath, find?_mixed.2.1]
  simp only [Disk.visit, Disk.visitAll, Disk.sortByName, hjoinFirst, hjoinSecond, henters, hlists]
  rw [List.mergeSort_of_pairwise (hsorted _ _)]
  simp [haccepts, firstPerKey]

theorem uncancelled_mixed : mixedSession.Uncancelled := fun _ _ => rfl

theorem thorough_mixed : mixedSession.Thorough := fun _ => covers_sequential

/-- One of two files cannot be read. The other gives its two lines, and the same issues as next to a
    first file that can be read. -/
theorem scanDirectory_contains_mixed :
    mixedSession.disk.root.isProper = true ∧ mixedSession.Uncancelled ∧ mixedSession.Thorough ∧
    Category.resolve ["template"] = .ok [.template] ∧ mixedSession.disk.isDir "./app" = true ∧
    mixedSession.disk.walkError? (.ofOptions {} {}) "./app" = none ∧
    ∃ result other : ScanResult,
      (mixedSession.scanDirectory "./app" ["template"] {}).run.1 = .ok result ∧
      result.summary.filesScanned = 2 ∧ result.throughput = ⟨2, 3, 1⟩ ∧
      result.issues.countP Issue.isScanError = 1 ∧
      ((mixedSession.loading fun file =>
          if file = "./app/a.blade.php" then .ok "C".toList
          else mixedSession.load file).scanDirectory "./app" ["template"] {}).run.1 = .ok other ∧
      other.throughput.lines = 3 ∧ other.throughput.bytes = 4 ∧
      other.issues.filter (fun issue => mixedSession.reads issue.path) =
        result.issues.filter (fun issue => mixedSession.reads issue.path) := by
  have hproper : mixedSession.disk.root.isProper = true := by decide +kernel
  have hwalk : mixedSession.disk.walkError? (.ofOptions {} {}) "./app" = none :=
    Disk.walkError?_eq_none rfl _ _
  obtain ⟨_, hdir, _⟩ := isDir_mixed
  obtain ⟨-, hlisted⟩ := scanDirectory_contains_unreadable mixedSession hproper ["template"]
    [.template] rfl {} "./app" hdir
  obtain ⟨result, hreturns, hscanned, -, hlines, hbytes, -, hsound, hother⟩ := hlisted hwalk
  rw [candidates_mixed] at hscanned hlines hbytes hsound hother
  obtain ⟨hfailed, herrors⟩ := hsound (by decide +kernel)
  obtain ⟨other, hotherReturns, -, hissues, hotherLines, hotherBytes⟩ :=
    hother (fun file => if file = "./app/a.blade.php" then .ok "C".toList
      else mixedSession.load file) (by decide +kernel)
  have hthroughput : result.throughput = ⟨2, 3, 1⟩ := by
    rw [Throughput.mk.injEq]
    exact ⟨hlines, hbytes, hfailed⟩
  rw [hthroughput] at hotherLines hotherBytes
  exact ⟨hproper, uncancelled_mixed, thorough_mixed, rfl, hdir, hwalk, result, other,
    hreturns.2 uncancelled_mixed thorough_mixed, hscanned, hthroughput, herrors,
    hotherReturns.2 uncancelled_mixed thorough_mixed, hotherLines, hotherBytes, hissues⟩

/-! ## Scans that fail as a whole -/

/-- A scan of a directory that is cancelled as soon as an event is reported gives nothing. -/
theorem run_scanDirectory_of_cancels {s : Session} {requested : List String}
    {categories : List Category} (hr : Category.resolve requested = .ok categories)
    (options : ScanOptions) {dir : String} (hdir : s.disk.isDir dir = true)
    (hcancels : ∀ events checks, 0 < events → s.cancels events checks = true) :
    (s.scanDirectory dir requested options).run.1 = .error .cancelled := by
  have htarget : ∀ log,
      (s.requireTarget dir (s.disk.isDir dir) "expected a directory").runFrom log =
        (.ok (), log) := by
    intro log
    rw [Scan.runFrom_requireTarget, Disk.exists?_of_isDir hdir, hdir]
    rfl
  have hresolve : ∀ log, (liftM (Category.resolve requested) : Scan _).runFrom log =
      (.ok categories, log) := by
    intro log
    rw [Scan.runFrom_lift, hr]
  -- the event of the start is reported before the walk looks for a cancellation
  have htree : ∀ log, 0 < log.reported.length →
      (s.scanTree categories (.ofOptions options s.settings.scan) dir id).runFrom log =
        (.error .cancelled, Scan.checkedLog s log) := by
    intro log hevents
    have hcancelled : Scan.cancelledAt s log = true := by
      rw [Scan.cancelledAt, hcancels _ _ hevents, Bool.or_true]
    exact Scan.runFrom_bind_error (by rw [Scan.runFrom_check, hcancelled]; rfl) _
  rw [Scan.run, scanDirectory, Scan.runFrom_bind_ok (Scan.runFrom_report _ _),
    Scan.runFrom_bind_ok (htarget _), Scan.runFrom_bind_ok (hresolve _)]
  refine congrArg Prod.fst (Scan.runFrom_bind_error (htree _ ?_) _)
  exact Nat.zero_lt_succ _

/-- The same files, in a directory that cannot be listed. -/
def deniedSession : Session :=
  { mixedSession with disk := { mixedSession.disk with unlistable := [["app"]] } }

theorem walkError?_denied :
    deniedSession.disk.walkError? (.ofOptions {} {}) "./app" =
      some (.walk "IO error for operation on ./app: Permission denied (os error 13)") := by
  have hlink : deniedSession.disk.isLink "./app" = false := by
    have hpath : (Path.segments "./app").map String.ofList = [".", "app"] := rfl
    simp [Disk.isLink, hpath, Disk.follow, deniedSession, mixedSession, DiskNode.at?,
      Path.isAbsolute, Text.beginsWith]
  have hexcludes : (FileFilter.ofOptions {} {}).excludes "./app" = false := by decide +kernel
  have hlists : deniedSession.disk.lists ["app"] = false := rfl
  have hdenied : deniedSession.disk.find? "./app" = mixedSession.disk.find? "./app" := rfl
  rw [Disk.walkError?, hdenied, find?_mixed.2.1]
  dsimp only
  rw [hlists, hlink, hexcludes]
  decide

/-- The same files, in a session that is cancelled as soon as an event is reported. -/
def cancelledSession : Session :=
  { mixedSession with cancels := fun events _ => decide (0 < events) }

/-- The scan of a directory with an unreadable file fails if the directory cannot be listed, though
    it is there and whatever can be read, and also if the scan is cancelled. -/
theorem scanDirectory_fails_whole :
    deniedSession.disk.isDir "./app" = true ∧ deniedSession.Uncancelled ∧
    (∀ load, ((deniedSession.loading load).scanDirectory "./app" ["template"] {}).run.1 =
      .error (.walk
        "IO error for operation on ./app: Permission denied (os error 13)")) ∧
    cancelledSession.disk.isDir "./app" = true ∧
    cancelledSession.disk.walkError? (.ofOptions {} {}) "./app" = none ∧
    (cancelledSession.scanDirectory "./app" ["template"] {}).run.1 = .error .cancelled := by
  have hdir := isDir_mixed.2.1
  refine ⟨hdir, fun _ _ => rfl, fun load => ?_, hdir, Disk.walkError?_eq_none rfl _ _, ?_⟩
  · have hfails : Settles (deniedSession.loading load)
        ((deniedSession.loading load).scanDirectory "./app" ["template"] {}) _ :=
      settles_scanDirectory_of_walkError? rfl walkError?_denied
    exact hfails.run (fun _ _ => rfl) fun _ => covers_sequential
  · exact run_scanDirectory_of_cancels rfl {} hdir fun _ _ hevents => decide_eq_true hevents

end CodeAudit
