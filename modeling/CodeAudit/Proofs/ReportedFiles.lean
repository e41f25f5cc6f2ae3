import CodeAudit.Proofs.FileGroups
import CodeAudit.Proofs.TextLines
import CodeAudit.Report.Text

/-!
# Issues by file in a report

A report shows the issues file by file. The groups can be gathered in one pass: an issue goes behind
those of its path, or starts a group at the end. At every moment of the pass the groups stand for
the paths so far, in the order of their first issues, and each holds the issues of its path in their
order. Sorting a group by line keeps the order of issues on one line. No issue is lost and none is
shown twice.

Results:
* `gather_eq`: what a pass over the issues has gathered.
* `filter_line_byLine`: sorting by line keeps the issues of one line as they are.
* `partitions_ofIssues`: the groups of a list of issues.
* `Report.plainLines_eq`: the plain list has an entry for every issue.
* `ofIssues_partition`: groups, counts by file and the plain list together.
-/

namespace CodeAudit

/-! ## Paths and issues -/

theorem Issue.paths_append_singleton (issues : List Issue) (issue : Issue) :
    paths (issues ++ [issue]) =
      paths issues ++ if issue.pathKey ∈ paths issues then [] else [issue.pathKey] := by
  have hkeys : ((issues.map fun issue => (issue.pathKey, issue.pathKey)).map Prod.fst) =
      issues.map pathKey := List.map_map
  have hmem : (([] : List String) ++ issues.map pathKey).contains issue.pathKey = true ↔
      issue.pathKey ∈ paths issues := by
    rw [List.nil_append, List.contains_iff_mem, List.mem_map, mem_paths_iff]
  rw [paths, List.map_append, List.map_singleton, firstPerKey_append_singleton, hkeys]
  simp only [hmem]
  rfl

/-- Paths come in the order of their first issues. -/
theorem Issue.pairwise_idxOf_paths (issues : List Issue) :
    (paths issues).Pairwise fun a b =>
      (issues.map pathKey).idxOf a < (issues.map pathKey).idxOf b := by
  induction issues using List.reverseRecOn with
  | nil => exact .nil
  | append_singleton issues issue ih =>
    have hmem : ∀ path ∈ paths issues, path ∈ issues.map pathKey := by
      intro path hpath
      exact List.mem_map.mpr (mem_paths_iff.mp hpath)
    -- the places of earlier paths stay where they are
    have hkeep : ∀ path ∈ paths issues,
        ((issues ++ [issue]).map pathKey).idxOf path = (issues.map pathKey).idxOf path := by
      intro path hpath
      rw [List.map_append, List.idxOf_append_of_mem (hmem path hpath)]
    rw [paths_append_singleton, List.pairwise_append]
    refine ⟨?_, ?_, ?_⟩
    · refine ih.imp_of_mem fun ha hb hlt => ?_
      rw [hkeep _ ha, hkeep _ hb]
      exact hlt
    · split
      · exact .nil
      · exact List.pairwise_singleton _ _
    · intro a ha b hb
      split at hb
      · cases hb
      · rename_i hnew
        rw [List.mem_singleton.mp hb, hkeep a ha, List.map_append, List.idxOf_append_of_notMem]
        · exact Nat.lt_add_right _ (List.idxOf_lt_length_of_mem (hmem a ha))
        · intro hold
          exact hnew (mem_paths_iff.mpr (List.mem_map.mp hold))

namespace FileIssues

/-! ## One pass over the issues -/

/-- Puts an issue behind those of its path, or in a group of its own at the end. -/
def insert : List FileIssues → Issue → List FileIssues
  | [], issue => [⟨issue.pathKey, [issue]⟩]
  | file :: rest, issue =>
    if file.path = issue.pathKey then { file with issues := file.issues ++ [issue] } :: rest
    else file :: insert rest issue

/-- The groups of the issues of a list, gathered one after the other. -/
def gather (issues : List Issue) : List FileIssues :=
  issues.foldl insert []

/-- The group with its issues in the order of their lines. -/
def byLine (file : FileIssues) : FileIssues :=
  { file with issues := file.issues.mergeSort fun a b => a.line ≤ b.line }

/-- The issues at a path, in their order. -/
def atPath (issues : List Issue) (path : String) : FileIssues :=
  ⟨path, Issue.atPath issues path⟩

theorem gather_append_singleton (issues : List Issue) (issue : Issue) :
    gather (issues ++ [issue]) = insert (gather issues) issue := by
  rw [gather, List.foldl_append]
  rfl

theorem atPath_append_of_ne {issues : List Issue} {issue : Issue} {path : String}
    (h : issue.pathKey ≠ path) : atPath (issues ++ [issue]) path = atPath issues path := by
  rw [atPath, Issue.atPath_append_singleton, if_neg h, List.append_nil]
  rfl

theorem map_atPath_append_of_notMem {issues : List Issue} {issue : Issue} {paths : List String}
    (h : issue.pathKey ∉ paths) :
    paths.map (atPath (issues ++ [issue])) = paths.map (atPath issues) := by
  refine List.map_congr_left fun path hpath => atPath_append_of_ne ?_
  rintro rfl
  exact h hpath

/-- An issue of a path that has a group goes into this group. -/
theorem insert_of_mem {issues : List Issue} {issue : Issue} {paths : List String}
    (hnodup : paths.Nodup) (h : issue.pathKey ∈ paths) :
    insert (paths.map (atPath issues)) issue = paths.map (atPath (issues ++ [issue])) := by
  induction paths with
  | nil => cases h
  | cons path rest ih =>
    obtain ⟨hpath, hrest⟩ := List.nodup_cons.mp hnodup
    rw [List.map_cons, List.map_cons, insert]
    show (if path = issue.pathKey then _ else _) = _
    by_cases heq : path = issue.pathKey
    · subst heq
      rw [if_pos rfl, map_atPath_append_of_notMem hpath, atPath, atPath,
        Issue.atPath_append_singleton, if_pos rfl]
    · have hmem : issue.pathKey ∈ rest := (List.mem_cons.mp h).resolve_left (Ne.symm heq)
      rw [if_neg heq, ih hrest hmem, atPath_append_of_ne (Ne.symm heq)]

/-- An issue of a path without a group starts one. -/
theorem insert_of_notMem {files : List FileIssues} {issue : Issue}
    (h : ∀ file ∈ files, file.path ≠ issue.pathKey) :
    insert files issue = files ++ [⟨issue.pathKey, [issue]⟩] := by
  induction files with
  | nil => rfl
  | cons file rest ih =>
    obtain ⟨hfile, hrest⟩ := List.forall_mem_cons.mp h
    rw [insert, if_neg hfile, ih hrest, List.cons_append]

/-- A pass has gathered the issues of each path, the paths in the order of their first issues. -/
theorem gather_eq (issues : List Issue) :
    gather issues = (Issue.paths issues).map (atPath issues) := by
  induction issues using List.reverseRecOn with
  | nil => rfl
  | append_singleton issues issue ih =>
    rw [gather_append_singleton, ih, Issue.paths_append_singleton]
    by_cases h : issue.pathKey ∈ Issue.paths issues
    · rw [if_pos h, List.append_nil, insert_of_mem (Issue.nodup_paths issues) h]
    · have hnew : atPath (issues ++ [issue]) issue.pathKey = ⟨issue.pathKey, [issue]⟩ := by
        rw [atPath, Issue.atPath_append_singleton, if_pos rfl, Issue.atPath_eq_nil_iff.mpr h,
          List.nil_append]
      rw [if_neg h, List.map_append, List.map_singleton, hnew, map_atPath_append_of_notMem h,
        insert_of_notMem]
      intro file hfile
      obtain ⟨path, hpath, rfl⟩ := List.mem_map.mp hfile
      rintro rfl
      exact h hpath

theorem ofIssues_eq (issues : List Issue) : ofIssues issues = (gather issues).map byLine := by
  rw [gather_eq, List.map_map]
  rfl

/-- One step of the pass loses nothing and shows nothing twice. -/
theorem perm_flatMap_insert (files : List FileIssues) (issue : Issue) :
    ((insert files issue).flatMap FileIssues.issues).Perm
      (files.flatMap FileIssues.issues ++ [issue]) := by
  induction files with
  | nil => exact .refl _
  | cons file rest ih =>
    rw [insert, List.flatMap_cons]
    split
    · rw [List.flatMap_cons, List.append_assoc, List.append_assoc]
      exact List.perm_append_comm.append_left _
    · rw [List.flatMap_cons, List.append_assoc]
      exact ih.append_left _

theorem perm_flatMap_gather (issues : List Issue) :
    ((gather issues).flatMap FileIssues.issues).Perm issues := by
  induction issues using List.reverseRecOn with
  | nil => exact .nil
  | append_singleton issues issue ih =>
    rw [gather_append_singleton]
    exact (perm_flatMap_insert _ issue).trans (ih.append_right _)

/-! ## Sorting by line -/

theorem perm_issues_byLine (file : FileIssues) : file.byLine.issues.Perm file.issues :=
  List.mergeSort_perm _ _

theorem line_le_trans (a b c : Issue) (hab : decide (a.line ≤ b.line) = true)
    (hbc : decide (b.line ≤ c.line) = true) : decide (a.line ≤ c.line) = true := by
  rw [decide_eq_true_iff] at *
  omega

theorem line_le_total (a b : Issue) :
    (decide (a.line ≤ b.line) || decide (b.line ≤ a.line)) = true := by
  rw [Bool.or_eq_true, decide_eq_true_iff, decide_eq_true_iff]
  omega

theorem pairwise_line_byLine (file : FileIssues) :
    file.byLine.issues.Pairwise fun a b => a.line ≤ b.line := by
  refine (List.pairwise_mergeSort line_le_trans line_le_total file.issues).imp ?_
  intro a b hle
  exact of_decide_eq_true hle

/-- Sorting by line keeps the issues of one line as they are. -/
theorem filter_line_byLine (file : FileIssues) (line : Nat) :
    (file.byLine.issues.filter fun issue => issue.line == line) =
      file.issues.filter fun issue => issue.line == line := by
  have hequal : (file.issues.filter fun issue => issue.line == line).Pairwise
      fun a b => decide (a.line ≤ b.line) = true := by
    refine List.pairwise_of_forall_mem_list fun a ha b hb => ?_
    have hline := eq_of_beq (List.mem_filter.mp ha).2
    have hline' := eq_of_beq (List.mem_filter.mp hb).2
    exact decide_eq_true (by omega)
  -- the issues of the line are sorted already, so they are found in their order after sorting
  have hsub : (file.issues.filter fun issue => issue.line == line).Sublist file.byLine.issues :=
    List.sublist_mergeSort line_le_trans line_le_total hequal List.filter_sublist
  have hfiltered := hsub.filter fun issue => issue.line == line
  rw [List.filter_filter] at hfiltered
  simp only [Bool.and_self] at hfiltered
  refine (hfiltered.eq_of_length ?_).symm
  exact ((perm_issues_byLine file).filter _).length_eq.symm

/-! ## Groups -/

/-- Groups that hold the issues of a list, each once. -/
structure Partitions (files : List FileIssues) (issues : List Issue) : Prop where
  /-- There is a group for each path of an issue, and no other. -/
  paths : ∀ path, path ∈ files.map FileIssues.path ↔ ∃ issue ∈ issues, issue.pathKey = path
  distinct : (files.map FileIssues.path).Nodup
  /-- A path that comes earlier has its first issue earlier. -/
  firstSeen : files.Pairwise fun a b =>
    (issues.map Issue.pathKey).idxOf a.path < (issues.map Issue.pathKey).idxOf b.path
  atPath : ∀ file ∈ files, file.issues.Perm (issues.filter fun issue => issue.pathKey == file.path)
  sorted : ∀ file ∈ files, file.issues.Pairwise fun a b => a.line ≤ b.line
  /-- Issues of one path and line are in their original order. -/
  stable : ∀ file ∈ files, ∀ line,
    (file.issues.filter fun issue => issue.line == line) =
      issues.filter fun issue => issue.pathKey == file.path && issue.line == line
  all : (files.flatMap FileIssues.issues).Perm issues

theorem map_path_ofIssues (issues : List Issue) :
    (ofIssues issues).map FileIssues.path = Issue.paths issues := by
  rw [ofIssues, List.map_map]
  exact List.map_id _

theorem eq_byLine_of_mem_ofIssues {issues : List Issue} {file : FileIssues}
    (h : file ∈ ofIssues issues) : file = (atPath issues file.path).byLine := by
  obtain ⟨path, -, rfl⟩ := List.mem_map.mp h
  rfl

theorem partitions_ofIssues (issues : List Issue) : Partitions (ofIssues issues) issues where
  paths path := by
    rw [map_path_ofIssues, Issue.mem_paths_iff]
  distinct := by
    rw [map_path_ofIssues]
    exact Issue.nodup_paths issues
  firstSeen := by
    rw [← List.pairwise_map (f := FileIssues.path) (R := fun a b =>
      (issues.map Issue.pathKey).idxOf a < (issues.map Issue.pathKey).idxOf b), map_path_ofIssues]
    exact Issue.pairwise_idxOf_paths issues
  atPath file hfile := by
    rw [eq_byLine_of_mem_ofIssues hfile]
    exact perm_issues_byLine _
  sorted file hfile := by
    rw [eq_byLine_of_mem_ofIssues hfile]
    exact pairwise_line_byLine _
  stable file hfile line := by
    rw [eq_byLine_of_mem_ofIssues hfile, filter_line_byLine]
    show (Issue.atPath issues file.path).filter _ = _
    rw [Issue.atPath, List.filter_filter]
    simp only [Bool.and_comm]
    rfl
  all := by
    rw [ofIssues_eq, List.flatMap_map]
    exact (List.Perm.flatMap_left _ fun file _ => perm_issues_byLine file).trans
      (perm_flatMap_gather issues)

/-- The groups have the paths and sizes of the counts by file. -/
theorem perm_map_length (issues : List Issue) :
    ((ofIssues issues).map fun file => (file.path, file.issues.length)).Perm
      ((FileGroup.ofIssues issues).map fun g => (g.path, g.issueCount)) := by
  refine .trans (.of_eq ?_) ((FileGroup.perm_ofIssues issues).map _).symm
  rw [ofIssues, List.map_map, List.map_map]
  refine List.map_congr_left fun path _ => ?_
  show (path, (List.mergeSort _ _).length) = (path, (SeverityCounts.ofIssues _).total)
  rw [List.length_mergeSort, SeverityCounts.total_ofIssues]

end FileIssues

/-! ## The plain list -/

namespace Report

/-- The entry of an issue in the plain list. -/
def entry (issue : Issue) : String :=
  plainLine issue.pathKey issue

/-- The plain list has an entry for every issue, in the order of the groups. -/
theorem plainLines_eq (r : ScanResult) :
    plainLines r = ((FileIssues.ofIssues r.issues).flatMap FileIssues.issues).map entry := by
  rw [plainLines, List.map_flatMap]
  refine List.flatMap_congr fun file hfile => List.map_congr_left fun issue hissue => ?_
  have hmem := ((FileIssues.partitions_ofIssues r.issues).atPath file hfile).mem_iff.mp hissue
  rw [entry, eq_of_beq (List.mem_filter.mp hmem).2]

/-- Lines without line feeds can be read back from a text of lines, but for carriage returns. -/
theorem lines_unlines {entries : List String} (h : ∀ line ∈ entries, '\n' ∉ line.toList) :
    Text.lines (unlines entries).toList =
      entries.map fun line => Text.chopReturn line.toList := by
  induction entries with
  | nil => rfl
  | cons line rest ih =>
    obtain ⟨hline, hrest⟩ := List.forall_mem_cons.mp h
    have htext : (unlines (line :: rest)).toList =
        line.toList ++ '\n' :: (unlines rest).toList := by
      simp [unlines, String.toList_append]
    rw [htext, Text.lines, Text.linesFrom_append hline, ih hrest]
    rfl

end Report

namespace FileIssues

/-- The groups of a result partition its issues: they have different paths in the order of their
    first issues, each holds the issues of its path in the order of their lines, those of one line
    in their original order, and together they hold every issue once. A pass over the issues gathers
    them, and they have the paths and sizes of the counts by file. The plain list has an entry for
    every issue in the order of the groups; if no entry has a line feed, each is a line of the
    list. -/
theorem ofIssues_partition (r : ScanResult) :
    Partitions (ofIssues r.issues) r.issues ∧
    ofIssues r.issues = (gather r.issues).map byLine ∧
    ((ofIssues r.issues).map fun file => (file.path, file.issues.length)).Perm
      ((FileGroup.ofIssues r.issues).map fun g => (g.path, g.issueCount)) ∧
    Report.plain r = String.join (((ofIssues r.issues).flatMap FileIssues.issues).map
      fun issue => Report.plainLine issue.pathKey issue ++ "\n") ∧
    ((∀ issue ∈ r.issues, '\n' ∉ (Report.plainLine issue.pathKey issue).toList) →
      Text.lines (Report.plain r).toList = ((ofIssues r.issues).flatMap FileIssues.issues).map
        fun issue => Text.chopReturn (Report.plainLine issue.pathKey issue).toList) := by
  refine ⟨partitions_ofIssues r.issues, ofIssues_eq r.issues, perm_map_length r.issues, ?_, ?_⟩
  · rw [Report.plain, Report.plainLines_eq, Report.unlines, List.map_map]
    simp only [Function.comp_def, Report.entry]
  · intro hlines
    rw [Report.plain, Report.plainLines_eq, Report.lines_unlines, List.map_map]
    · simp only [Function.comp_def, Report.entry]
    · intro line hline
      obtain ⟨issue, hissue, rfl⟩ := List.mem_map.mp hline
      exact hlines issue ((partitions_ofIssues r.issues).all.mem_iff.mp hissue)

/-- An issue of the last line of the file that comes first. -/
def lateName : Issue :=
  { Issue.make .quality "naming" .low "a" 9 with title := "Name" }

/-- An issue of another file. -/
def weakHash : Issue :=
  { Issue.make .security "crypto" .critical "b" 2 with title := "Hash" }

/-- An issue of an earlier line of the file that comes first. -/
def deepLoop : Issue :=
  { Issue.make .quality "complexity" .info "a" 3 with title := "Loop" }

/-- The result of three issues of two files. The file that comes first has its later line first. -/
def interleaved : ScanResult :=
  .ofIssues [lateName, weakHash, deepLoop] 2 {}

theorem issues_interleaved :
    (ofIssues interleaved.issues).flatMap FileIssues.issues = [deepLoop, lateName, weakHash] := by
  have hpaths : Issue.paths interleaved.issues = ["a", "b"] := by decide +kernel
  have hfirst : (atPath interleaved.issues "a").byLine.issues = [deepLoop, lateName] := by
    show List.mergeSort [lateName, deepLoop] _ = _
    simp [List.mergeSort, List.MergeSort.Internal.splitInTwo, lateName, deepLoop, Issue.make]
  have hsecond : (atPath interleaved.issues "b").byLine.issues = [weakHash] :=
    List.mergeSort_singleton _
  rw [ofIssues, hpaths]
  show (atPath interleaved.issues "a").byLine.issues ++
    ((atPath interleaved.issues "b").byLine.issues ++ []) = _
  rw [hfirst, hsecond]
  rfl

/-- The plain list of three issues has three lines, two of them for the file that comes first. -/
theorem ofIssues_partition_interleaved :
    (∀ issue ∈ interleaved.issues,
      '\n' ∉ (Report.plainLine issue.pathKey issue).toList) ∧
    Text.lines (Report.plain interleaved).toList =
      ["FILE: a | RULE: quality.complexity | SEVERITY: info | LINE: 3 | Loop".toList,
        "FILE: a | RULE: quality.naming | SEVERITY: low | LINE: 9 | Name".toList,
        "FILE: b | RULE: security.crypto | SEVERITY: critical | LINE: 2 | Hash".toList] ∧
    ∃ file ∈ ofIssues interleaved.issues, file.path = "a" ∧ file.issues.length = 2 ∧
      file.issues.Pairwise fun a b => a.line ≤ b.line := by
  obtain ⟨hgroups, -, -, -, hlines⟩ := ofIssues_partition interleaved
  have hfeeds : ∀ issue ∈ interleaved.issues,
      '\n' ∉ (Report.plainLine issue.pathKey issue).toList := by
    decide +kernel
  have hpath : "a" ∈ (ofIssues interleaved.issues).map FileIssues.path :=
    (hgroups.paths "a").mpr ⟨_, List.mem_cons_self, by decide⟩
  obtain ⟨file, hfile, hname⟩ := List.mem_map.mp hpath
  refine ⟨hfeeds, ?_, file, hfile, hname, ?_, hgroups.sorted file hfile⟩
  · rw [hlines hfeeds, issues_interleaved]
    decide +kernel
  · rw [(hgroups.atPath file hfile).length_eq, hname]
    rfl

end FileIssues

end CodeAudit
