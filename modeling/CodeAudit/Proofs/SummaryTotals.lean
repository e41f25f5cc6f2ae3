import CodeAudit.Proofs.FileGroups
import CodeAudit.Proofs.ProgressCounts
import CodeAudit.Proofs.UnreadableFiles

/-!
# Summaries agree with themselves

A summary counts the same issues several times over: by severity, by category and by file. Each of
these counts adds up to the number of issues, and none depends on the order of the issues. The lists
of the most frequent categories and of the most affected files are the first of all when these are
sorted, so that nothing that is left out should have been listed.

How many files are clean is taken as a difference of natural numbers. For the result of a scan it is
one: every issue of a scan carries the path of a file that was scanned, so that there are no more
files with issues than files.

Results:
* `CategoryCount.sum_count_ofIssues`: the counts by category add up.
* `Summary.consistent_ofIssues`: the parts of a summary agree.
* `Session.run_gave`: the result of a run is that of the files which it analysed.
* `summaries_consistent`: summaries of lists of issues and of scans.
-/

namespace CodeAudit

open Session

/-! ## Categories -/

namespace CategoryCount

variable {issues others : List Issue} {c : CategoryCount}

theorem ranks_before : Ranks before count fun c => c.category.rank := by
  intro a b
  rw [before, Bool.or_eq_true, Bool.and_eq_true, decide_eq_true_eq, beq_iff_eq, decide_eq_true_eq,
    not_precedes_iff]

theorem map_category_ofIssues (issues : List Issue) :
    (ofIssues issues).map category = Category.all := by
  rw [ofIssues, List.map_map]
  exact List.map_id Category.all

theorem nodup_rank_ofIssues (issues : List Issue) :
    ((ofIssues issues).map fun c => c.category.rank).Nodup := by
  rw [← Function.comp_def Category.rank category, ← List.map_map, map_category_ofIssues]
  decide

theorem count_of_mem_ofIssues (h : c ∈ ofIssues issues) :
    c.count = issues.countP fun issue => issue.category == c.category := by
  obtain ⟨category, -, rfl⟩ := List.mem_map.mp h
  rfl

theorem sum_count_ofIssues (issues : List Issue) :
    ((ofIssues issues).map count).sum = issues.length := by
  have hall : ∀ category : Category, category ∈ Category.all := by
    intro category
    cases category <;> decide
  rw [ofIssues, List.map_map]
  exact sum_countP_key (by decide) Issue.category fun issue _ => hall issue.category

theorem ofIssues_perm (h : others.Perm issues) : ofIssues others = ofIssues issues := by
  unfold ofIssues
  simp only [h.countP_eq]

/-- The categories that have issues, sorted. -/
def ranked (issues : List Issue) : List CategoryCount :=
  ((ofIssues issues).filter fun c => 0 < c.count).mergeSort before

theorem mem_ranked_iff : c ∈ ranked issues ↔ c ∈ ofIssues issues ∧ 0 < c.count := by
  rw [ranked, List.mem_mergeSort, List.mem_filter, decide_eq_true_eq]

theorem length_ranked (issues : List Issue) :
    (ranked issues).length = (ofIssues issues).countP fun c => 0 < c.count := by
  rw [ranked, List.length_mergeSort, List.countP_eq_length_filter]

theorem pairwise_ranked (issues : List Issue) :
    (ranked issues).Pairwise (Precedes count fun c => c.category.rank) := by
  refine ranks_before.pairwise_mergeSort ?_
  exact (nodup_rank_ofIssues issues).sublist (List.filter_sublist.map _)

end CategoryCount

/-! ## Summaries -/

/-- A summary that agrees with a list of issues and with itself. -/
structure Summary.Consistent (summary : Summary) (issues : List Issue) : Prop where
  total : summary.totalIssues = issues.length
  bySeverity : ∀ severity, summary.bySeverity.get severity =
    issues.countP fun issue => issue.severity == severity
  sumBySeverity : summary.totalIssues = (Severity.ranked.map summary.bySeverity.get).sum
  /-- All categories are listed, in canonical order. -/
  categories : summary.byCategory.map CategoryCount.category = Category.all
  byCategory : ∀ c ∈ summary.byCategory,
    c.count = issues.countP fun issue => issue.category == c.category
  sumByCategory : summary.totalIssues = (summary.byCategory.map CategoryCount.count).sum
  sumByFile : summary.totalIssues =
    ((FileGroup.ofIssues issues).map FileGroup.issueCount).sum
  topOrdered : summary.topCategories.Pairwise
    (Precedes CategoryCount.count fun c => c.category.rank)
  topLength : summary.topCategories.length =
    min 5 (summary.byCategory.countP fun c => 0 < c.count)
  topListed : ∀ c ∈ summary.topCategories, c ∈ summary.byCategory ∧ 0 < c.count
  /-- No category that is left out has a greater count than one that is listed. -/
  topOmitted : ∀ c ∈ summary.byCategory, 0 < c.count → c ∉ summary.topCategories →
    ∀ listed ∈ summary.topCategories, c.count ≤ listed.count
  mostAffected : summary.mostAffectedFiles = (FileGroup.ofIssues issues).take 10

namespace Summary

/-- What comes before a cut comes before all that is behind it. -/
theorem rel_of_notMem_take {α : Type} {R : α → α → Prop} {values : List α} (h : values.Pairwise R)
    {n : Nat} {a b : α} (ha : a ∈ values.take n) (hb : b ∈ values) (hcut : b ∉ values.take n) :
    R a b := by
  rw [← List.take_append_drop n values] at h hb
  have hdrop : b ∈ values.drop n := (List.mem_append.mp hb).resolve_left hcut
  exact (List.pairwise_append.mp h).2.2 a ha b hdrop

theorem consistent_ofIssues (issues : List Issue) (files : Nat) :
    (ofIssues issues files).Consistent issues where
  total := rfl
  bySeverity := SeverityCounts.get_ofIssues issues
  sumBySeverity := by
    rw [← SeverityCounts.total_eq_sum]
    exact (SeverityCounts.total_ofIssues issues).symm
  categories := CategoryCount.map_category_ofIssues issues
  byCategory _ := CategoryCount.count_of_mem_ofIssues
  sumByCategory := (CategoryCount.sum_count_ofIssues issues).symm
  sumByFile := (FileGroup.sum_issueCount_ofIssues issues).symm
  topOrdered := (CategoryCount.pairwise_ranked issues).sublist (List.take_sublist _ _)
  topLength := by
    show ((CategoryCount.ranked issues).take 5).length = _
    rw [List.length_take, CategoryCount.length_ranked]
    rfl
  topListed c hc := CategoryCount.mem_ranked_iff.mp (List.mem_of_mem_take hc)
  topOmitted c hc hpos homitted listed hlisted := by
    have hranked : c ∈ CategoryCount.ranked issues := CategoryCount.mem_ranked_iff.mpr ⟨hc, hpos⟩
    rcases rel_of_notMem_take (CategoryCount.pairwise_ranked issues) hlisted hranked homitted with
      hmore | ⟨heq, -⟩ <;> omega
  mostAffected := rfl

theorem ofIssues_perm {issues others : List Issue} (h : others.Perm issues) (files : Nat) :
    ofIssues others files = ofIssues issues files := by
  unfold ofIssues
  rw [SeverityCounts.ofIssues_perm h, CategoryCount.ofIssues_perm h, FileGroup.ofIssues_perm h,
    h.length_eq]

end Summary

/-! ## Scans -/

namespace Session

variable {s : Session} {categories : List Category} {raw more : RawScan}

/-- An outcome that some files gave, all analysed for the same categories. -/
def Gave (s : Session) (categories : List Category) (raw : RawScan) : Prop :=
  ∃ files : List String, raw = .ofOutcomes (files.map (s.analyzeFile categories))

theorem gave_treeScan (filter : FileFilter) (dir : String) :
    s.Gave categories (treeScan s categories filter dir) :=
  ⟨s.disk.candidates filter dir, rfl⟩

theorem Gave.merge (h : s.Gave categories raw) (hmore : s.Gave categories more) :
    s.Gave categories (raw.merge more) := by
  obtain ⟨files, rfl⟩ := h
  obtain ⟨others, rfl⟩ := hmore
  refine ⟨files ++ others, ?_⟩
  rw [List.map_append, RawScan.ofOutcomes_append]

theorem traces_scanRoots_gave (filter : FileFilter) (roots : List (String × Nat))
    (number total : Nat) :
    Traces (roots.foldlM (s.scanRoot categories filter number total) {}) fun merged _ =>
      s.Gave categories merged.raw := by
  refine .foldlM (fun _ (merged : Merged) _ => s.Gave categories merged.raw) ⟨[], rfl⟩ ?_
  intro before root after _ merged _ hmerged
  rw [scanRoot]
  refine .bind_check (.bind (traces_scanTree (keepsCounts_place _) root.1) ?_)
  rintro raw added ⟨rfl, -⟩
  exact .bind_report (.pure (hmerged.merge (gave_treeScan filter root.1)))

/-- The result of a scan is that of the files which it analysed. -/
theorem traces_scanRequest_gave (s : Session) (r : ScanRequest) :
    Traces (s.scanRequest r) fun result _ =>
      ∃ categories raw, s.Gave categories raw ∧ result = raw.toResult := by
  rw [scanRequest]
  cases r.kind with
  | file =>
    dsimp only
    rw [scanFile]
    refine .bind_report (.bind_requireTarget (.bind_requireTarget ?_))
    refine .bind_lift fun categories _ => .bind_report (.bind_check (.bind_report ?_))
    exact .bind_report (.bind_report (.pure ⟨categories, _, ⟨[r.target], rfl⟩, rfl⟩))
  | directory =>
    dsimp only
    rw [scanDirectory]
    refine .bind_report (.bind_requireTarget (.bind_lift fun categories _ => ?_))
    refine .bind (traces_scanTree keepsCounts_id r.target) ?_
    rintro raw added ⟨rfl, -⟩
    exact .bind_report (.bind_report (.pure ⟨categories, _, gave_treeScan _ _, rfl⟩))
  | codebase =>
    dsimp only
    rw [scanCodebase]
    refine .bind_report (.bind_requireTarget (.bind_lift fun categories _ => .bind_report ?_))
    refine .bind (traces_countFiles _) fun counts _ _ => ?_
    refine .bind (traces_scanRoots_gave _ _ _ _) fun merged _ hmerged => ?_
    exact .bind_report (.bind_report (.pure ⟨categories, merged.raw, hmerged, rfl⟩))

theorem run_gave {r : ScanRequest} {result : ScanResult} (h : (s.run r).1 = .ok result) :
    ∃ categories raw, s.Gave categories raw ∧ result = raw.toResult := by
  have hrun : s.run r = (.ok result, (s.run r).2) := Prod.ext h rfl
  obtain ⟨_, _, hgave⟩ :=
    s.traces_scanRequest_gave r {} result (s.run r).2 (run_eq_ok_iff.mp hrun)
  exact hgave

/-- There are no more files with issues than files, as all issues are at the paths of files. -/
theorem Gave.length_groups_le (h : s.Gave categories raw) :
    (FileGroup.ofIssues raw.issues).length ≤ raw.filesScanned := by
  obtain ⟨files, rfl⟩ := h
  rw [RawScan.ofOutcomes_map]
  have hpaths := FileGroup.perm_map_path_ofIssues
    (files.flatMap fun file => (s.analyzeFile categories file).issues)
  -- two files may share a path once its slashes are normalised, so this is no equality
  have hsub : Issue.paths (files.flatMap fun file => (s.analyzeFile categories file).issues) ⊆
      files.map Path.normalize := by
    intro path hpath
    obtain ⟨issue, hissue, rfl⟩ := Issue.mem_paths_iff.mp hpath
    obtain ⟨file, hfile, hissue⟩ := List.mem_flatMap.mp hissue
    rw [Issue.pathKey, s.path_of_mem_analyzeFile categories hissue]
    exact List.mem_map_of_mem hfile
  calc (FileGroup.ofIssues _).length
      = (Issue.paths _).length := by rw [← hpaths.length_eq, List.length_map]
    _ ≤ (files.map Path.normalize).length :=
        (List.subperm_of_subset (Issue.nodup_paths _) hsub).length_le
    _ = files.length := List.length_map _

end Session

/-! ## All together -/

/-- The counts of a summary by severity, by category and by file add up to the number of issues, the
    lists of the most frequent categories and the most affected files are the first of all, and the
    order of the issues does not matter. The summary of a scan is one of its issues, and every file
    that was scanned is either affected or clean. -/
theorem summaries_consistent :
    (∀ (issues : List Issue) (files : Nat),
      (Summary.ofIssues issues files).Consistent issues ∧
      ∀ others : List Issue, others.Perm issues →
        Summary.ofIssues others files = Summary.ofIssues issues files) ∧
    ∀ (s : Session) (r : ScanRequest) (result : ScanResult), (s.run r).1 = .ok result →
      result.summary.Consistent result.issues ∧
      result.summary.affectedFiles ≤ result.summary.filesScanned ∧
      result.summary.affectedFiles + result.summary.cleanFiles =
        result.summary.filesScanned := by
  constructor
  · intro issues files
    exact ⟨Summary.consistent_ofIssues issues files, fun _ h => Summary.ofIssues_perm h files⟩
  · intro s r result hrun
    obtain ⟨categories, raw, hgave, rfl⟩ := run_gave hrun
    have hle : raw.toResult.summary.affectedFiles ≤ raw.toResult.summary.filesScanned :=
      hgave.length_groups_le
    exact ⟨Summary.consistent_ofIssues _ _, hle, Nat.add_sub_cancel' hle⟩

/-- The request for the first directory of the mixed session. -/
def directoryRequest : ScanRequest :=
  { kind := .directory, target := "./app", categories := ["template"] }

theorem run_directory : ∃ result, (mixedSession.run directoryRequest).1 = .ok result ∧
    result.summary.filesScanned = 2 := by
  have hresolve : Category.resolve directoryRequest.categories = .ok [.template] := rfl
  obtain ⟨result, hreturns, hresult⟩ := scanDirectory_isOf (s := mixedSession) hresolve {}
    isDir_mixed.2.1 (Disk.walkError?_eq_none rfl _ _)
  have hrun : (mixedSession.scanRequest directoryRequest).run = (.ok result, _) :=
    Prod.ext (hreturns.2 uncancelled_mixed thorough_mixed) rfl
  refine ⟨result, congrArg Prod.fst (run_eq_ok_iff.mpr hrun), ?_⟩
  rw [hresult.filesScanned, candidates_mixed]
  rfl

/-- Of the two files of a directory each is affected or clean. The issues of two other files may be
    summed up from either end. -/
theorem summaries_consistent_mixed :
    (∃ result, (mixedSession.run directoryRequest).1 = .ok result ∧
      result.summary.affectedFiles + result.summary.cleanFiles = 2) ∧
    FileGroup.twoFiles.reverse.Perm FileGroup.twoFiles ∧
    Summary.ofIssues FileGroup.twoFiles.reverse 3 = Summary.ofIssues FileGroup.twoFiles 3 := by
  obtain ⟨hlists, hscans⟩ := summaries_consistent
  have hperm : FileGroup.twoFiles.reverse.Perm FileGroup.twoFiles := List.reverse_perm _
  obtain ⟨result, hrun, hfiles⟩ := run_directory
  obtain ⟨-, -, hsum⟩ := hscans mixedSession directoryRequest result hrun
  rw [hfiles] at hsum
  exact ⟨⟨result, hrun, hsum⟩, hperm, (hlists FileGroup.twoFiles 3).2 _ hperm⟩

end CodeAudit
