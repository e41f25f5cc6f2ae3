import CodeAudit.Proofs.FirstPerKey
import CodeAudit.Result.Summary
import Mathlib.Algebra.BigOperators.Group.List.Lemmas
import Mathlib.Algebra.Ring.Nat
import Mathlib.Data.List.Induction
import Mathlib.Data.String.Basic

/-!
# Issues by file

The issues of a list are grouped by path, counted by severity, and the groups are sorted: more issues
first, and among equally many the lesser path. The order is strict, since groups have different
paths. The groups therefore depend neither on the order of the issues nor on the order in which the
groups were before they were sorted, such as that of a hash table.

Results:
* `Ranks.pairwise_mergeSort`, `Ranks.mergeSort_eq`: sorting values with different keys.
* `sum_countP_key`: counts by key add up.
* `CountTable.ofIssues_apply`: what a table of counts holds after it went through the issues.
* `FileGroup.ofIssues_exact`: the groups of a list of issues.
-/

namespace CodeAudit

/-! ## Sorting by number and key -/

section Ranking

variable {α κ : Type} [LinearOrder κ]

/-- A value comes before another if its number is greater, or equal and its key is less. -/
def Precedes (number : α → Nat) (key : α → κ) (a b : α) : Prop :=
  number b < number a ∨ number a = number b ∧ key a < key b

/-- A comparison for sorting that holds unless the second value comes before the first. -/
def Ranks (le : α → α → Bool) (number : α → Nat) (key : α → κ) : Prop :=
  ∀ a b, le a b = true ↔ ¬ Precedes number key b a

variable {number : α → Nat} {key : α → κ} {le : α → α → Bool} {a b : α} {values others : List α}

theorem Precedes.asymm (h : Precedes number key a b) : ¬ Precedes number key b a := by
  intro h'
  rcases h with h | ⟨heq, h⟩
  · rcases h' with h' | ⟨heq', -⟩ <;> omega
  · rcases h' with h' | ⟨-, h'⟩
    · omega
    · exact lt_asymm h h'

theorem not_precedes_iff :
    ¬ Precedes number key b a ↔
      number b < number a ∨ number a = number b ∧ key a ≤ key b := by
  unfold Precedes
  rw [not_or, not_lt, not_and, not_lt]
  constructor
  · rintro ⟨hle, hkey⟩
    by_cases heq : number b = number a
    · exact .inr ⟨heq.symm, hkey heq⟩
    · exact .inl (by omega)
  · rintro (hmore | ⟨heq, hle⟩)
    · exact ⟨by omega, fun heq => by omega⟩
    · exact ⟨by omega, fun _ => hle⟩

theorem precedes_of_ne (h : ¬ Precedes number key b a) (hne : key a ≠ key b) :
    Precedes number key a b := by
  rcases not_precedes_iff.mp h with hmore | ⟨heq, hle⟩
  · exact .inl hmore
  · exact .inr ⟨heq, lt_of_le_of_ne hle hne⟩

theorem Ranks.trans (h : Ranks le number key) (a b c : α) (hab : le a b = true)
    (hbc : le b c = true) : le a c = true := by
  rw [h, not_precedes_iff] at *
  rcases hab with hab | ⟨hab, hkey⟩
  · rcases hbc with hbc | ⟨hbc, -⟩ <;> exact .inl (by omega)
  · rcases hbc with hbc | ⟨hbc, hkey'⟩
    · exact .inl (by omega)
    · exact .inr ⟨hab.trans hbc, hkey.trans hkey'⟩

theorem Ranks.total (h : Ranks le number key) (a b : α) : (le a b || le b a) = true := by
  rw [Bool.or_eq_true, h, h]
  by_cases hba : Precedes number key b a
  · exact .inr hba.asymm
  · exact .inl hba

/-- Values with different keys are strictly ordered once they are sorted. -/
theorem Ranks.pairwise_mergeSort (h : Ranks le number key) (hkeys : (values.map key).Nodup) :
    (values.mergeSort le).Pairwise (Precedes number key) := by
  have hsorted : (values.mergeSort le).Pairwise fun a b => le a b = true :=
    List.pairwise_mergeSort h.trans h.total values
  have hdistinct : ((values.mergeSort le).map key).Nodup :=
    ((List.mergeSort_perm values le).map key).nodup_iff.mpr hkeys
  refine hsorted.imp₂ ?_ (List.pairwise_map.mp hdistinct)
  intro a b hle hne
  exact precedes_of_ne ((h a b).mp hle) hne

theorem eq_of_pairwise_precedes (hvalues : values.Pairwise (Precedes number key))
    (hothers : others.Pairwise (Precedes number key)) (h : values.Perm others) :
    values = others :=
  h.eq_of_pairwise (fun _ _ _ _ hab hba => absurd hba hab.asymm) hvalues hothers

/-- Values with different keys are sorted in one way, whatever their order was. -/
theorem Ranks.mergeSort_eq (h : Ranks le number key) (hkeys : (values.map key).Nodup)
    (hperm : values.Perm others) : values.mergeSort le = others.mergeSort le := by
  have hkeys' : (others.map key).Nodup := (hperm.map key).nodup_iff.mp hkeys
  refine eq_of_pairwise_precedes (h.pairwise_mergeSort hkeys) (h.pairwise_mergeSort hkeys') ?_
  exact (List.mergeSort_perm values le).trans (hperm.trans (List.mergeSort_perm others le).symm)

end Ranking

/-! ## Counting by key -/

section Counting

variable {α κ : Type} [DecidableEq κ]

/-- Values are counted once if the keys are different, those with other keys not at all. -/
theorem sum_countP_key_mem {keys : List κ} (hkeys : keys.Nodup) (key : α → κ) (values : List α) :
    (keys.map fun k => values.countP fun value => key value == k).sum =
      values.countP fun value => keys.contains (key value) := by
  induction values with
  | nil => simp
  | cons value rest ih =>
    have hone : (keys.map fun k => if key value == k then 1 else 0).sum =
        if keys.contains (key value) then 1 else 0 := by
      rw [List.sum_map_eq_nsmul_single (key value), hkeys.count]
      · simp
      · intro k hne _
        simp [Ne.symm hne]
    simp only [List.countP_cons, List.sum_map_add]
    rw [ih, hone]

/-- Values are counted once if the keys are different and none is missing. -/
theorem sum_countP_key {keys : List κ} (hkeys : keys.Nodup) (key : α → κ) {values : List α}
    (hvalues : ∀ value ∈ values, key value ∈ keys) :
    (keys.map fun k => values.countP fun value => key value == k).sum = values.length := by
  rw [sum_countP_key_mem hkeys key, List.countP_eq_length]
  intro value hvalue
  exact List.contains_iff_mem.mpr (hvalues value hvalue)

end Counting

/-! ## Counts by severity -/

theorem Severity.mem_ranked (severity : Severity) : severity ∈ ranked := by
  cases severity <;> decide

namespace SeverityCounts

theorem get_add (c : SeverityCounts) (added severity : Severity) :
    (c.add added).get severity = c.get severity + if added = severity then 1 else 0 := by
  cases added <;> cases severity <;> rfl

/-- The counts are all that there is to them. -/
theorem ext_get {c d : SeverityCounts} (h : ∀ severity, c.get severity = d.get severity) :
    c = d := by
  cases c
  cases d
  rw [mk.injEq]
  exact ⟨h .critical, h .high, h .medium, h .low, h .info⟩

theorem total_eq_sum (c : SeverityCounts) : c.total = (Severity.ranked.map c.get).sum := by
  simp only [Severity.ranked, List.map_cons, List.map_nil, List.sum_cons, List.sum_nil, get, total]
  omega

theorem ofIssues_append_singleton (issues : List Issue) (issue : Issue) :
    ofIssues (issues ++ [issue]) = (ofIssues issues).add issue.severity := by
  rw [ofIssues, List.foldl_append]
  rfl

theorem get_ofIssues (issues : List Issue) (severity : Severity) :
    (ofIssues issues).get severity = issues.countP fun issue => issue.severity == severity := by
  induction issues using List.reverseRecOn with
  | nil => cases severity <;> rfl
  | append_singleton issues issue ih =>
    rw [ofIssues_append_singleton, get_add, ih, List.countP_append, List.countP_singleton]
    simp only [beq_iff_eq]

theorem total_ofIssues (issues : List Issue) : (ofIssues issues).total = issues.length := by
  have hget : (ofIssues issues).get =
      fun severity => issues.countP fun issue => issue.severity == severity :=
    funext (get_ofIssues issues)
  rw [total_eq_sum, hget]
  exact sum_countP_key (by decide) Issue.severity fun issue _ => issue.severity.mem_ranked

theorem ofIssues_perm {issues others : List Issue} (h : others.Perm issues) :
    ofIssues others = ofIssues issues := by
  apply ext_get
  intro severity
  rw [get_ofIssues, get_ofIssues, h.countP_eq]

end SeverityCounts

/-! ## Paths -/

namespace Issue

theorem mem_paths_iff {issues : List Issue} {path : String} :
    path ∈ paths issues ↔ ∃ issue ∈ issues, issue.pathKey = path := by
  unfold paths
  constructor
  · intro h
    obtain ⟨key, hpair⟩ := mem_of_mem_firstPerKey h
    obtain ⟨issue, hissue, heq⟩ := List.mem_map.mp hpair
    exact ⟨issue, hissue, congrArg Prod.snd heq⟩
  · rintro ⟨issue, hissue, rfl⟩
    have hpair : (issue.pathKey, issue.pathKey) ∈
        issues.map fun issue => (issue.pathKey, issue.pathKey) :=
      List.mem_map_of_mem (f := fun issue : Issue => (issue.pathKey, issue.pathKey)) hissue
    obtain ⟨first, hfirst, hmem⟩ := exists_mem_firstPerKey hpair List.not_mem_nil
    obtain ⟨other, -, heq⟩ := List.mem_map.mp hmem
    rw [Prod.mk.injEq] at heq
    rw [← heq.1, heq.2]
    exact hfirst

theorem nodup_paths (issues : List Issue) : (paths issues).Nodup := by
  refine pairwise_firstPerKey [] _ ?_
  intro p hp q hq hne
  obtain ⟨a, -, rfl⟩ := List.mem_map.mp hp
  obtain ⟨b, -, rfl⟩ := List.mem_map.mp hq
  exact hne

theorem paths_perm {issues others : List Issue} (h : others.Perm issues) :
    (paths others).Perm (paths issues) := by
  rw [List.perm_ext_iff_of_nodup (nodup_paths others) (nodup_paths issues)]
  intro path
  rw [mem_paths_iff, mem_paths_iff]
  simp only [h.mem_iff]

theorem atPath_append_singleton (issues : List Issue) (issue : Issue) (path : String) :
    atPath (issues ++ [issue]) path =
      atPath issues path ++ if issue.pathKey = path then [issue] else [] := by
  unfold atPath
  rw [List.filter_append]
  by_cases h : issue.pathKey = path
  · simp [h]
  · simp [h]

theorem atPath_eq_nil_iff {issues : List Issue} {path : String} :
    atPath issues path = [] ↔ path ∉ paths issues := by
  rw [atPath, List.filter_eq_nil_iff, mem_paths_iff]
  simp

/-- Every issue is at one path. -/
theorem sum_length_atPath (issues : List Issue) :
    ((paths issues).map fun path => (atPath issues path).length).sum = issues.length := by
  rw [← sum_countP_key (nodup_paths issues) pathKey fun issue hissue =>
    mem_paths_iff.mpr ⟨issue, hissue, rfl⟩]
  simp only [atPath, List.countP_eq_length_filter]

end Issue

/-! ## Groups -/

namespace FileGroup

/-- The group of a path. -/
def atPath (issues : List Issue) (path : String) : FileGroup :=
  ⟨path, SeverityCounts.ofIssues (Issue.atPath issues path)⟩

theorem ranks_before : Ranks before issueCount path := by
  intro a b
  rw [before, Bool.or_eq_true, Bool.and_eq_true, decide_eq_true_eq, beq_iff_eq,
    not_precedes_iff, Bool.not_eq_true', decide_eq_false_iff_not, not_lt]

theorem map_path_atPath (issues : List Issue) (paths : List String) :
    (paths.map (atPath issues)).map path = paths := by
  rw [List.map_map]
  exact List.map_id paths

theorem nodup_path_atPath (issues : List Issue) :
    (((Issue.paths issues).map (atPath issues)).map path).Nodup := by
  rw [map_path_atPath]
  exact Issue.nodup_paths issues

theorem perm_ofIssues (issues : List Issue) :
    (ofIssues issues).Perm ((Issue.paths issues).map (atPath issues)) :=
  List.mergeSort_perm _ _

theorem pairwise_ofIssues (issues : List Issue) :
    (ofIssues issues).Pairwise (Precedes issueCount path) :=
  ranks_before.pairwise_mergeSort (nodup_path_atPath issues)

theorem perm_map_path_ofIssues (issues : List Issue) :
    ((ofIssues issues).map path).Perm (Issue.paths issues) := by
  have hperm := (perm_ofIssues issues).map path
  rw [map_path_atPath] at hperm
  exact hperm

theorem eq_atPath_of_mem_ofIssues {issues : List Issue} {g : FileGroup} (h : g ∈ ofIssues issues) :
    g = atPath issues g.path := by
  obtain ⟨path, -, rfl⟩ := List.mem_map.mp ((perm_ofIssues issues).mem_iff.mp h)
  rfl

theorem get_counts_of_mem_ofIssues {issues : List Issue} {g : FileGroup}
    (h : g ∈ ofIssues issues) (severity : Severity) :
    g.counts.get severity =
      issues.countP fun issue => issue.pathKey == g.path && issue.severity == severity := by
  rw [eq_atPath_of_mem_ofIssues h]
  show (SeverityCounts.ofIssues (Issue.atPath issues g.path)).get severity = _
  rw [SeverityCounts.get_ofIssues, Issue.atPath, List.countP_filter]
  simp only [Bool.and_comm]
  rfl

theorem sum_issueCount_ofIssues (issues : List Issue) :
    ((ofIssues issues).map issueCount).sum = issues.length := by
  rw [((perm_ofIssues issues).map issueCount).sum_eq, List.map_map, ← Issue.sum_length_atPath]
  congr 1
  refine List.map_congr_left fun path _ => ?_
  exact SeverityCounts.total_ofIssues (Issue.atPath issues path)

theorem ofIssues_perm {issues others : List Issue} (h : others.Perm issues) :
    ofIssues others = ofIssues issues := by
  have hat : atPath others = atPath issues := by
    funext path
    exact congrArg (mk path) (SeverityCounts.ofIssues_perm (h.filter _))
  refine ranks_before.mergeSort_eq (nodup_path_atPath others) ?_
  show ((Issue.paths others).map (atPath others)).Perm _
  rw [hat]
  exact (Issue.paths_perm h).map _

end FileGroup

/-! ## Tables of counts -/

/-- A table of counts by path. -/
abbrev CountTable := String → Option SeverityCounts

namespace CountTable

/-- The table with one more issue. A path that is new starts with no counts. -/
def count (table : CountTable) (issue : Issue) : CountTable :=
  Function.update table issue.pathKey
    (some (((table issue.pathKey).getD {}).add issue.severity))

/-- The table of the issues of a list, counted one after the other. -/
def ofIssues (issues : List Issue) : CountTable :=
  issues.foldl count fun _ => none

/-- The entries of a table in some order, each once. -/
structure ListedBy (table : CountTable) (entries : List (String × SeverityCounts)) : Prop where
  nodup : (entries.map Prod.fst).Nodup
  mem_iff : ∀ path counts, (path, counts) ∈ entries ↔ table path = some counts

theorem ofIssues_append_singleton (issues : List Issue) (issue : Issue) :
    ofIssues (issues ++ [issue]) = (ofIssues issues).count issue := by
  rw [ofIssues, List.foldl_append]
  rfl

theorem count_apply (table : CountTable) (issue : Issue) (path : String) :
    table.count issue path =
      if issue.pathKey = path then some (((table path).getD {}).add issue.severity)
      else table path := by
  rw [count, Function.update_apply]
  by_cases h : issue.pathKey = path
  · rw [if_pos h.symm, if_pos h, h]
  · rw [if_neg (Ne.symm h), if_neg h]

/-- The counts of the issues at one path; none if there is no issue. -/
def countsOf? (issues : List Issue) : Option SeverityCounts :=
  if issues.isEmpty then none else some (SeverityCounts.ofIssues issues)

theorem getD_countsOf? (issues : List Issue) :
    (countsOf? issues).getD {} = SeverityCounts.ofIssues issues := by
  cases issues with
  | nil => rfl
  | cons issue rest => rfl

theorem countsOf?_append_singleton (issues : List Issue) (issue : Issue) :
    countsOf? (issues ++ [issue]) = some ((SeverityCounts.ofIssues issues).add issue.severity) := by
  rw [countsOf?, SeverityCounts.ofIssues_append_singleton, if_neg (by simp)]

theorem countsOf?_eq_some_iff {issues : List Issue} {counts : SeverityCounts} :
    countsOf? issues = some counts ↔ issues ≠ [] ∧ SeverityCounts.ofIssues issues = counts := by
  cases issues with
  | nil => simp [countsOf?]
  | cons issue rest => simp [countsOf?]

/-- A table that went through issues holds, for every path, the counts of the issues there. -/
theorem ofIssues_apply (issues : List Issue) (path : String) :
    ofIssues issues path = countsOf? (Issue.atPath issues path) := by
  induction issues using List.reverseRecOn with
  | nil => rfl
  | append_singleton issues issue ih =>
    rw [ofIssues_append_singleton, count_apply, ih, Issue.atPath_append_singleton]
    -- a path that is new has no issues so far, and its counts start from nothing
    by_cases h : issue.pathKey = path
    · rw [if_pos h, if_pos h, getD_countsOf?, countsOf?_append_singleton]
    · rw [if_neg h, if_neg h, List.append_nil]

end CountTable

namespace FileGroup

/-- The group that an entry of a table makes. -/
def ofEntry (entry : String × SeverityCounts) : FileGroup := ⟨entry.1, entry.2⟩

/-- The entries of the table of some issues are their groups. -/
theorem perm_map_ofEntry {issues : List Issue} {entries : List (String × SeverityCounts)}
    (h : (CountTable.ofIssues issues).ListedBy entries) :
    (entries.map ofEntry).Perm ((Issue.paths issues).map (atPath issues)) := by
  have hentries : (entries.map ofEntry).Nodup := by
    refine List.Nodup.of_map path ?_
    rw [List.map_map]
    exact h.nodup
  -- neither list has repetitions, so it is enough that they have the same members
  rw [List.perm_ext_iff_of_nodup hentries (.of_map path (nodup_path_atPath issues))]
  intro g
  have hmem : g ∈ entries.map ofEntry ↔ (g.path, g.counts) ∈ entries := by
    constructor
    · intro hg
      obtain ⟨entry, hentry, rfl⟩ := List.mem_map.mp hg
      exact hentry
    · intro hentry
      exact List.mem_map.mpr ⟨_, hentry, rfl⟩
  rw [hmem, h.mem_iff, CountTable.ofIssues_apply, CountTable.countsOf?_eq_some_iff, Ne,
    Issue.atPath_eq_nil_iff, not_not]
  constructor
  · rintro ⟨hpath, hcounts⟩
    exact List.mem_map.mpr ⟨g.path, hpath, congrArg (mk g.path) hcounts⟩
  · intro hg
    obtain ⟨path, hpath, rfl⟩ := List.mem_map.mp hg
    exact ⟨hpath, rfl⟩

theorem mergeSort_map_ofEntry {issues : List Issue} {entries : List (String × SeverityCounts)}
    (h : (CountTable.ofIssues issues).ListedBy entries) :
    (entries.map ofEntry).mergeSort before = ofIssues issues := by
  have hperm := perm_map_ofEntry h
  have hkeys : ((entries.map ofEntry).map path).Nodup :=
    (hperm.map path).nodup_iff.mpr (nodup_path_atPath issues)
  exact ranks_before.mergeSort_eq hkeys hperm

/-- There is one group for each path of an issue, and no other. Its counts are those of the issues
    with that path and each severity, and its number of issues is their sum. The groups are strictly
    ordered, by their numbers of issues and by path among equals, and the numbers add up to the number
    of issues. The issues may come in any order, and so may the entries of a table that they are
    counted in. -/
theorem ofIssues_exact (issues : List Issue) :
    ((ofIssues issues).map path).Nodup ∧
    (∀ key, key ∈ (ofIssues issues).map path ↔ ∃ issue ∈ issues, issue.pathKey = key) ∧
    (∀ g ∈ ofIssues issues,
      (∀ severity, g.counts.get severity =
        issues.countP fun issue => issue.pathKey == g.path && issue.severity == severity) ∧
      g.issueCount = (Severity.ranked.map g.counts.get).sum) ∧
    (ofIssues issues).Pairwise (Precedes issueCount path) ∧
    ((ofIssues issues).map issueCount).sum = issues.length ∧
    (∀ others : List Issue, others.Perm issues → ofIssues others = ofIssues issues) ∧
    ∀ entries, (CountTable.ofIssues issues).ListedBy entries →
      (entries.map ofEntry).mergeSort before = ofIssues issues := by
  have hpaths := perm_map_path_ofIssues issues
  refine ⟨hpaths.nodup_iff.mpr (Issue.nodup_paths issues), ?_, ?_, pairwise_ofIssues issues,
    sum_issueCount_ofIssues issues, fun _ => ofIssues_perm, fun _ => mergeSort_map_ofEntry⟩
  · intro key
    rw [hpaths.mem_iff, Issue.mem_paths_iff]
  · intro g hg
    exact ⟨get_counts_of_mem_ofIssues hg, g.counts.total_eq_sum⟩

/-- Issues of two files, one of which is written in two ways. -/
def twoFiles : List Issue :=
  [.make .quality "r" .low "c" 1, .make .security "r" .critical "a\\b" 1,
    .make .quality "r" .info "a/b" 1]

theorem table_twoFiles (path : String) :
    CountTable.ofIssues twoFiles path =
      if path = "a/b" then some { critical := 1, info := 1 }
      else if path = "c" then some { low := 1 } else none := by
  have hkeys : (twoFiles.map Issue.pathKey) = ["c", "a/b", "a/b"] := by decide +kernel
  simp only [twoFiles, List.map_cons, List.map_nil, List.cons.injEq] at hkeys
  simp only [CountTable.ofIssues, twoFiles, List.foldl_cons, List.foldl_nil,
    CountTable.count_apply, hkeys]
  by_cases hfirst : path = "a/b"
  · subst hfirst
    simp +decide
  · by_cases hsecond : path = "c"
    · subst hsecond
      simp +decide
    · simp [hfirst, hsecond, Ne.symm hfirst, Ne.symm hsecond]

theorem listedBy_twoFiles :
    (CountTable.ofIssues twoFiles).ListedBy
      [("c", { low := 1 }), ("a/b", { critical := 1, info := 1 })] where
  nodup := by decide +kernel
  mem_iff path counts := by
    rw [table_twoFiles]
    by_cases hfirst : path = "a/b"
    · subst hfirst
      simp [eq_comm]
    · by_cases hsecond : path = "c"
      · subst hsecond
        simp [eq_comm]
      · simp [hfirst, hsecond]

/-- The file with two issues comes first, although it stands last in the table. -/
theorem ofIssues_exact_twoFiles :
    (CountTable.ofIssues twoFiles).ListedBy
        [("c", { low := 1 }), ("a/b", { critical := 1, info := 1 })] ∧
      ofIssues twoFiles = [⟨"a/b", { critical := 1, info := 1 }⟩, ⟨"c", { low := 1 }⟩] ∧
      ofIssues twoFiles.reverse = ofIssues twoFiles ∧
      ∃ g ∈ ofIssues twoFiles, g.path = "a/b" ∧ g.issueCount = 2 ∧
        twoFiles.countP (fun issue => issue.pathKey == g.path && issue.severity == .critical) =
          1 := by
  obtain ⟨-, -, hcounts, -, -, hperm, htable⟩ := ofIssues_exact twoFiles
  have hgroups : ofIssues twoFiles =
      [⟨"a/b", { critical := 1, info := 1 }⟩, ⟨"c", { low := 1 }⟩] := by
    rw [← htable _ listedBy_twoFiles]
    refine (ranks_before.mergeSort_eq (by decide +kernel) (List.Perm.swap _ _ _)).trans ?_
    exact List.mergeSort_of_pairwise (by decide +kernel)
  refine ⟨listedBy_twoFiles, hgroups, hperm _ (List.reverse_perm _), ?_⟩
  have hfirst : ⟨"a/b", { critical := 1, info := 1 }⟩ ∈ ofIssues twoFiles := by
    rw [hgroups]
    exact List.mem_cons_self
  obtain ⟨hcritical, hsum⟩ := hcounts _ hfirst
  exact ⟨_, hfirst, rfl, hsum, (hcritical .critical).symm⟩

end FileGroup

end CodeAudit
