import CodeAudit.Command.Run
import CodeAudit.Proofs.OverlappingRoots

/-!
# Relaxed filters lose no file

A filter that allows more extensions, leaves out less and has a greater limit of size lets a walk
enter more directories and accept more files. A file may then be met earlier, through another link,
and so be given under another path. It is still given: the file under its first path has the same
place, and files are told apart by their places only.

Results:
* `mem_walk_of_enters`: entering more directories meets all files that were met before.
* `mem_candidatePlaces_iff`: the files that are given, by their places.
* `candidatePlaces_subset_of_relaxes`: a relaxed filter gives every file that the filter gave.
* `relaxed_walks_keep_files`: relaxed filters, and the option to look into vendor directories.
-/

namespace CodeAudit

/-! ## Filters -/

namespace FileFilter

/-- Does a filter let through at least what another filter does? -/
structure Relaxes (g f : FileFilter) : Prop where
  extensions : ∀ path, f.allowsExtension path = true → g.allowsExtension path = true
  excluded : ∀ path, g.excludes path = true → f.excludes path = true
  maxFileSize : f.maxFileSize ≤ g.maxFileSize

variable {f g : FileFilter}

theorem any_of_subset {values others : List String} {p : String → Bool} (h : values ⊆ others)
    (hany : values.any p = true) : others.any p = true := by
  obtain ⟨value, hvalue, hp⟩ := List.any_eq_true.mp hany
  exact List.any_eq_true.mpr ⟨value, h hvalue, hp⟩

theorem relaxes_of_subset (hextensions : f.extensions ⊆ g.extensions)
    (hexcluded : g.excluded ⊆ f.excluded) (hsize : f.maxFileSize ≤ g.maxFileSize) :
    g.Relaxes f where
  extensions _ := any_of_subset hextensions
  excluded _ := any_of_subset hexcluded
  maxFileSize := hsize

theorem Relaxes.accepts (h : g.Relaxes f) {path : String} {size : Nat}
    (haccepts : f.accepts path size = true) : g.accepts path size = true := by
  simp only [FileFilter.accepts, Bool.and_eq_true, Bool.not_eq_true', decide_eq_true_eq]
    at haccepts ⊢
  obtain ⟨⟨hextension, hexcluded⟩, hsize⟩ := haccepts
  refine ⟨⟨h.extensions path hextension, ?_⟩, Nat.le_trans hsize h.maxFileSize⟩
  exact Bool.eq_false_iff.mpr fun hout => Bool.eq_false_iff.mp hexcluded (h.excluded path hout)

theorem mem_appendNew_iff {known items : List String} {item : String} :
    item ∈ appendNew known items ↔ item ∈ known ∨ item ∈ items := by
  induction items generalizing known with
  | nil => simp [appendNew]
  | cons first rest ih =>
    rw [appendNew]
    split
    · rename_i hfirst
      have hmem := List.contains_iff_mem.mp hfirst
      rw [ih, List.mem_cons]
      constructor
      · exact Or.imp_right .inr
      · rintro (h | rfl | h)
        · exact .inl h
        · exact .inl hmem
        · exact .inr h
    · rw [ih, List.mem_append, List.mem_singleton, List.mem_cons, or_assoc]

/-- Looking into all directories relaxes the filter. -/
theorem relaxes_ofOptions (options : ScanOptions) (settings : ScanSettings) :
    (ofOptions { options with
      ignoreVendor := false, ignoreNodeModules := false, ignoreStorage := false } settings).Relaxes
        (ofOptions options settings) := by
  refine relaxes_of_subset (List.Subset.refl _) ?_ (Nat.le_refl _)
  intro part hpart
  refine mem_appendNew_iff.mpr (.inr ?_)
  exact (mem_appendNew_iff.mp hpart).resolve_left List.not_mem_nil

end FileFilter

/-! ## Walks -/

namespace Disk

section Enters

variable {enters enters' : String → Bool} {lists : Location → Bool}
  {jump jump' : List Location → String → List WalkedFile} {file : WalkedFile}

mutual

theorem mem_visit_of_enters (henters : ∀ path, enters path = true → enters' path = true)
    (hjump : ∀ stack path, jump stack path ⊆ jump' stack path) (stack : List Location)
    (path : String) (location : Location) (node : DiskNode)
    (hfile : file ∈ visit enters lists jump stack path location node) :
    file ∈ visit enters' lists jump' stack path location node := by
  match node with
  | .file bytes =>
    rw [visit] at hfile ⊢
    exact hfile
  | .link target =>
    rw [visit] at hfile ⊢
    exact hjump stack path hfile
  | .dir children =>
    rw [visit] at hfile ⊢
    split at hfile
    · rename_i hpath
      obtain ⟨hentered, hlists⟩ := Bool.and_eq_true_iff.mp hpath
      rw [henters path hentered, hlists, Bool.and_self, if_pos rfl]
      obtain ⟨entry, hentry, hfile⟩ := List.mem_flatMap.mp hfile
      rw [sortByName, List.mem_mergeSort] at hentry
      obtain ⟨other, hother, hmem⟩ := exists_mem_visitAll_of_enters henters hjump
        (location :: stack) path location children hentry hfile
      refine List.mem_flatMap.mpr ⟨other, ?_, hmem⟩
      rw [sortByName, List.mem_mergeSort]
      exact hother
    · cases hfile

theorem exists_mem_visitAll_of_enters (henters : ∀ path, enters path = true → enters' path = true)
    (hjump : ∀ stack path, jump stack path ⊆ jump' stack path) (stack : List Location)
    (path : String) (location : Location) (children : List (String × DiskNode))
    {entry : String × List WalkedFile}
    (hentry : entry ∈ visitAll enters lists jump stack path location children)
    (hfile : file ∈ entry.2) :
    ∃ other ∈ visitAll enters' lists jump' stack path location children, file ∈ other.2 := by
  match children with
  | [] =>
    rw [visitAll] at hentry
    cases hentry
  | (name, node) :: rest =>
    rw [visitAll] at hentry ⊢
    rcases List.mem_cons.mp hentry with rfl | hentry
    · exact ⟨_, List.mem_cons_self,
        mem_visit_of_enters henters hjump stack _ _ node hfile⟩
    · obtain ⟨other, hother, hmem⟩ :=
        exists_mem_visitAll_of_enters henters hjump stack path location rest hentry hfile
      exact ⟨other, List.mem_cons_of_mem _ hother, hmem⟩

end

end Enters

variable {disk : Disk} {f g : FileFilter} {root : String}

theorem walkPath_subset_of_enters {enters enters' : String → Bool}
    (henters : ∀ path, enters path = true → enters' path = true) (jumps : Nat)
    (stack : List Location) (path : String) :
    disk.walkPath enters jumps stack path ⊆ disk.walkPath enters' jumps stack path := by
  induction jumps generalizing stack path with
  | zero => exact List.Subset.refl _
  | succ jumps ih =>
    intro file hfile
    rw [walkPath] at hfile ⊢
    split at hfile
    · cases hfile
    · split at hfile
      · cases hfile
      · rename_i location node hfind hstack
        rw [if_neg hstack]
        exact mem_visit_of_enters henters ih stack path location node hfile

/-- Entering more directories meets all files that were met before, under the same paths. -/
theorem mem_walk_of_enters {enters enters' : String → Bool}
    (henters : ∀ path, enters path = true → enters' path = true) {file : WalkedFile}
    (hfile : file ∈ disk.walk enters root) : file ∈ disk.walk enters' root :=
  walkPath_subset_of_enters henters _ _ root hfile

/-! ## Files below a root -/

/-- A file is given exactly if it is met under a path that is accepted, be it the first or not. -/
theorem mem_candidatePlaces_iff (hproper : disk.root.isProper = true) {place : Option Location} :
    place ∈ disk.candidatePlaces f root ↔
      ∃ file ∈ disk.walk (fun path => !f.excludes path) root,
        f.accepts file.path file.size = true ∧ some file.location = place := by
  rw [candidatePlaces, List.mem_map, candidates]
  constructor
  · rintro ⟨path, hpath, rfl⟩
    obtain ⟨location, hpair⟩ := mem_of_mem_firstPerKey hpath
    obtain ⟨file, hfile, heq⟩ := List.mem_map.mp hpair
    obtain ⟨hwalk, haccepts⟩ := List.mem_filter.mp hfile
    cases heq
    exact ⟨file, hwalk, haccepts, (resolves_of_mem_walk hproper hwalk).place?.symm⟩
  · rintro ⟨file, hwalk, haccepts, rfl⟩
    have hkept : file ∈ (disk.walk (fun path => !f.excludes path) root).filter
        fun file => f.accepts file.path file.size := List.mem_filter.mpr ⟨hwalk, haccepts⟩
    have hpair := List.mem_map_of_mem (f := fun file : WalkedFile => (file.location, file.path))
      hkept
    -- the place has a first path, which may be that of another walked file
    obtain ⟨path, hpath, hfirst⟩ := exists_mem_firstPerKey hpair List.not_mem_nil
    obtain ⟨first, hmem, heq⟩ := List.mem_map.mp hfirst
    rw [Prod.mk.injEq] at heq
    refine ⟨path, hpath, ?_⟩
    rw [← heq.1, ← heq.2]
    exact (resolves_of_mem_walk hproper (List.mem_of_mem_filter hmem)).place?

/-- A relaxed filter gives every file that the filter gave. -/
theorem candidatePlaces_subset_of_relaxes (hproper : disk.root.isProper = true) (h : g.Relaxes f)
    (root : String) : disk.candidatePlaces f root ⊆ disk.candidatePlaces g root := by
  intro place hplace
  obtain ⟨file, hwalk, haccepts, hlocation⟩ := (mem_candidatePlaces_iff hproper).mp hplace
  refine (mem_candidatePlaces_iff hproper).mpr ⟨file, ?_, h.accepts haccepts, hlocation⟩
  refine mem_walk_of_enters (fun path henters => ?_) hwalk
  rw [Bool.not_eq_true'] at henters ⊢
  exact Bool.eq_false_iff.mpr fun hout => Bool.eq_false_iff.mp henters (h.excluded path hout)

/-- A path that is given leads to a file. -/
theorem exists_place?_of_mem_candidates (hproper : disk.root.isProper = true) {path : String}
    (h : path ∈ disk.candidates f root) : ∃ location, disk.place? path = some location := by
  have hplace : disk.place? path ∈ disk.candidatePlaces f root := List.mem_map_of_mem h
  obtain ⟨file, -, -, hlocation⟩ := (mem_candidatePlaces_iff hproper).mp hplace
  exact ⟨file.location, hlocation.symm⟩

/-- Of the files that a walk gives, one is at each place of a file. -/
theorem existsUnique_of_mem_candidatePlaces (hproper : disk.root.isProper = true)
    {place : Option Location} (h : place ∈ disk.candidatePlaces f root) :
    ∃! path, path ∈ disk.candidates f root ∧ disk.place? path = place := by
  obtain ⟨path, hpath, rfl⟩ := List.mem_map.mp h
  refine ⟨path, ⟨hpath, rfl⟩, ?_⟩
  rintro other ⟨hother, hplace⟩
  exact List.inj_on_of_nodup_map (nodup_candidatePlaces hproper f root) hother hpath hplace

/-- Every file below a root that a filter gives is given once by a filter that relaxes it, under
    this path or another, and a root is missing for both filters or for none. A filter relaxes
    another if it has at least its extensions, leaves out at most its parts, and has no lesser limit
    of size. So the option to look into vendor directories loses no file. -/
theorem relaxed_walks_keep_files (disk : Disk) (hproper : disk.root.isProper = true) :
    (∀ (f g : FileFilter), g.Relaxes f → ∀ root : String,
      (∀ e, disk.candidates? f root = .error e ↔ disk.candidates? g root = .error e) ∧
      ∀ files, disk.candidates? f root = .ok files →
        ∃ others, disk.candidates? g root = .ok others ∧
          ∀ path ∈ files, ∃ location, disk.place? path = some location ∧
            ∃! other, other ∈ others ∧ disk.place? other = some location) ∧
    (∀ f g : FileFilter, f.extensions ⊆ g.extensions → g.excluded ⊆ f.excluded →
      f.maxFileSize ≤ g.maxFileSize → g.Relaxes f) ∧
    ∀ (a : Command.ScanArguments) (settings : Settings) (root : String),
      disk.candidatePlaces (.ofOptions
          (Command.requestOf disk { a with includeVendor := false } settings).options
          settings.scan) root ⊆
        disk.candidatePlaces (.ofOptions
          (Command.requestOf disk { a with includeVendor := true } settings).options
          settings.scan) root := by
  refine ⟨?_, fun f g => FileFilter.relaxes_of_subset, ?_⟩
  · intro f g h root
    unfold candidates?
    by_cases hroot : disk.exists? root = true
    · rw [if_pos hroot, if_pos hroot]
      refine ⟨fun e => ⟨nofun, nofun⟩, ?_⟩
      rintro files ⟨rfl⟩
      refine ⟨_, rfl, fun path hpath => ?_⟩
      obtain ⟨location, hlocation⟩ := exists_place?_of_mem_candidates hproper hpath
      refine ⟨location, hlocation, existsUnique_of_mem_candidatePlaces hproper ?_⟩
      rw [← hlocation]
      exact candidatePlaces_subset_of_relaxes hproper h root (List.mem_map_of_mem hpath)
    · rw [if_neg hroot, if_neg hroot]
      exact ⟨fun e => Iff.rfl, nofun⟩
  · intro a settings root
    exact candidatePlaces_subset_of_relaxes hproper (FileFilter.relaxes_ofOptions _ _) root

/-- A disk with a vendor directory and a link to it that comes later. -/
def lateLinkDisk : Disk where
  root := .dir [("a", .dir [("vendor", .dir [("x.php", .file [])]), ("z", .link "vendor")])]
  cwd := []

/-- A filter that leaves out nothing. -/
def openFilter : FileFilter := { vendorFilter with excluded := [] }

theorem find?_lateLinkDisk :
    lateLinkDisk.find? "/a" =
      some (["a"], .dir [("vendor", .dir [("x.php", .file [])]), ("z", .link "vendor")]) ∧
    lateLinkDisk.find? "/a/z" = some (["a", "vendor"], .dir [("x.php", .file [])]) := by
  have hroot : (Path.segments "/a").map String.ofList = ["", "a"] := rfl
  have hlink : (Path.segments "/a/z").map String.ofList = ["", "a", "z"] := rfl
  have htarget : (Path.segments "vendor").map String.ofList = ["vendor"] := rfl
  constructor <;>
    simp [find?, locate, follow, hroot, hlink, htarget, lateLinkDisk, DiskNode.at?,
      List.lookup_cons, Path.isAbsolute, Text.beginsWith, maxLinks]

theorem walk_lateLinkDisk (enters : String → Bool) (hroot : enters "/a" = true) :
    lateLinkDisk.walk enters "/a" =
      (if enters "/a/vendor" then [⟨"/a/vendor/x.php", ["a", "vendor", "x.php"], 0⟩] else []) ++
        if enters "/a/z" then [⟨"/a/z/x.php", ["a", "vendor", "x.php"], 0⟩] else [] := by
  have hvendor : Path.join "/a" "vendor" = "/a/vendor" := by decide
  have hlink : Path.join "/a" "z" = "/a/z" := by decide
  have hfile : Path.join "/a/vendor" "x.php" = "/a/vendor/x.php" := by decide
  have hlinked : Path.join "/a/z" "x.php" = "/a/z/x.php" := by decide
  have hsorted {α : Type} (first second : α) :
      [("vendor", first), ("z", second)].Pairwise fun a b => (!decide (b.1 < a.1)) = true := by
    refine .cons (fun entry hentry => ?_) (List.pairwise_singleton _ _)
    rw [List.mem_singleton.mp hentry]
    show (!decide ("z" < "vendor")) = true
    decide
  have hlists : ∀ location, lateLinkDisk.lists location = true := lists_eq_true rfl
  have hjump : lateLinkDisk.walkPath enters 3 [["a"]] "/a/z" =
      if enters "/a/z" then [⟨"/a/z/x.php", ["a", "vendor", "x.php"], 0⟩] else [] := by
    rw [walkPath, find?_lateLinkDisk.2]
    simp [visit, visitAll, sortByName, hlinked, hlists]
  have hjumps : lateLinkDisk.root.dirCount + 1 = 3 + 1 := rfl
  rw [walk, hjumps, walkPath, find?_lateLinkDisk.1]
  simp only [visit, visitAll, hroot, hlists, sortByName, hvendor, hlink, hjump]
  rw [List.mergeSort_of_pairwise (hsorted _ _)]
  simp [hfile]

/-- With vendor directories left out a file is given under the path of a link, and with nothing left
    out under its own. -/
theorem relaxed_walks_keep_files_lateLinkDisk :
    lateLinkDisk.root.isProper = true ∧ openFilter.Relaxes vendorFilter ∧
    lateLinkDisk.candidates? vendorFilter "/a" = .ok ["/a/z/x.php"] ∧
    lateLinkDisk.candidates? openFilter "/a" = .ok ["/a/vendor/x.php"] ∧
    ∃ location, lateLinkDisk.place? "/a/z/x.php" = some location ∧
      lateLinkDisk.place? "/a/vendor/x.php" = some location := by
  have hproper : lateLinkDisk.root.isProper = true := by decide
  obtain ⟨hkeeps, hsubset, -⟩ := relaxed_walks_keep_files lateLinkDisk hproper
  have hrelaxes : openFilter.Relaxes vendorFilter :=
    hsubset vendorFilter openFilter (List.Subset.refl _) (List.nil_subset _) (Nat.le_refl _)
  have hexists : lateLinkDisk.exists? "/a" = true := by
    rw [exists?, find?_lateLinkDisk.1]
    rfl
  have hstrict : lateLinkDisk.candidates? vendorFilter "/a" = .ok ["/a/z/x.php"] := by
    rw [candidates?, if_pos hexists, candidates, walk_lateLinkDisk _ (by decide)]
    rfl
  have hopen : lateLinkDisk.candidates? openFilter "/a" = .ok ["/a/vendor/x.php"] := by
    rw [candidates?, if_pos hexists, candidates, walk_lateLinkDisk _ (by decide)]
    rfl
  refine ⟨hproper, hrelaxes, hstrict, hopen, ?_⟩
  obtain ⟨others, hothers, hplaces⟩ := (hkeeps _ _ hrelaxes "/a").2 _ hstrict
  rw [hopen] at hothers
  cases hothers
  obtain ⟨location, hlocation, other, ⟨hother, hplace⟩, -⟩ := hplaces _ (List.mem_singleton_self _)
  rw [List.mem_singleton.mp hother] at hplace
  exact ⟨location, hlocation, hplace⟩

end Disk

end CodeAudit
