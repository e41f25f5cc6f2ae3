import CodeAudit.Proofs.FileGroups
import CodeAudit.Result.Basic

/-!
# Thresholds that make a check fail

A check fails if the worst severity of an issue is at least as bad as a threshold. The worst
severity is found among the issues; readers of a report look at the counts by severity. Both tell
the same: the counts of the severities from the worst down to the threshold add up to the number of
issues that are at least as bad as the threshold.

Results:
* `Issue.worst?_spec`: the worst severity is that of an issue, and no issue is worse.
* `SeverityCounts.sum_get_reaching`: what the counts down to a threshold add up to.
* `ScanResult.exit_at_threshold`: when a check fails.
-/

namespace CodeAudit

/-! ## The ranking of severities -/

namespace Severity

variable {s t u : Severity}

/-- Is a severity at least as bad as another? The worst severity is declared last. -/
def Reaches (s t : Severity) : Prop :=
  t.ctorIdx ≤ s.ctorIdx

instance : DecidableRel Reaches := fun s t =>
  inferInstanceAs (Decidable (t.ctorIdx ≤ s.ctorIdx))

theorem atLeast_iff_reaches : s.atLeast t = true ↔ s.Reaches t := by
  cases s <;> cases t <;> decide

theorem Reaches.trans (h : s.Reaches t) (h' : t.Reaches u) : s.Reaches u :=
  Nat.le_trans h' h

theorem worse_eq_or (s t : Severity) : s.worse t = s ∨ s.worse t = t := by
  unfold worse
  split
  · exact .inl rfl
  · exact .inr rfl

theorem worse_reaches (s t : Severity) : (s.worse t).Reaches s ∧ (s.worse t).Reaches t := by
  cases s <;> cases t <;> decide

end Severity

/-! ## The worst severity -/

namespace Issue

/-- The worst severity of the issues of a list. -/
def worst? (issues : List Issue) : Option Severity :=
  issues.foldl
    (fun worst issue => some (match worst with
      | none => issue.severity
      | some severity => severity.worse issue.severity))
    none

/-- Is a severity that of an issue of a list, and no issue worse? -/
structure IsWorst (issues : List Issue) (worst : Severity) : Prop where
  attained : ∃ issue ∈ issues, issue.severity = worst
  reaches : ∀ issue ∈ issues, worst.Reaches issue.severity

theorem worst?_append_singleton (issues : List Issue) (issue : Issue) :
    worst? (issues ++ [issue]) =
      some (match worst? issues with
        | none => issue.severity
        | some severity => severity.worse issue.severity) := by
  rw [worst?, List.foldl_append]
  rfl

theorem isWorst_singleton (issue : Issue) : IsWorst [issue] issue.severity where
  attained := ⟨issue, List.mem_singleton_self issue, rfl⟩
  reaches other hother := by
    rw [List.mem_singleton.mp hother]
    exact Nat.le_refl _

theorem IsWorst.append_singleton {issues : List Issue} {worst : Severity}
    (h : IsWorst issues worst) (issue : Issue) :
    IsWorst (issues ++ [issue]) (worst.worse issue.severity) where
  attained := by
    rcases worst.worse_eq_or issue.severity with heq | heq
    · obtain ⟨other, hother, hseverity⟩ := h.attained
      exact ⟨other, List.mem_append_left _ hother, hseverity.trans heq.symm⟩
    · exact ⟨issue, List.mem_append_right _ (List.mem_singleton_self issue), heq.symm⟩
  reaches other hother := by
    obtain ⟨hworst, hissue⟩ := worst.worse_reaches issue.severity
    rcases List.mem_append.mp hother with hother | hother
    · exact hworst.trans (h.reaches other hother)
    · rw [List.mem_singleton.mp hother]
      exact hissue

/-- The worst severity is given unless there are no issues. -/
theorem worst?_spec (issues : List Issue) :
    issues = [] ∧ worst? issues = none ∨
      ∃ worst, worst? issues = some worst ∧ IsWorst issues worst := by
  induction issues using List.reverseRecOn with
  | nil => exact .inl ⟨rfl, rfl⟩
  | append_singleton issues issue ih =>
    right
    rw [worst?_append_singleton]
    rcases ih with ⟨rfl, hnone⟩ | ⟨worst, hsome, hworst⟩
    · rw [hnone]
      exact ⟨_, rfl, isWorst_singleton issue⟩
    · rw [hsome]
      exact ⟨_, rfl, hworst.append_singleton issue⟩

end Issue

/-! ## Counts down to a threshold -/

/-- The ranking, which has the worst severity first, down to a threshold. -/
def Severity.reaching (threshold : Severity) : List Severity :=
  ranked.take (ranked.idxOf threshold + 1)

theorem Severity.mem_reaching_iff {severity threshold : Severity} :
    severity ∈ reaching threshold ↔ severity.Reaches threshold := by
  cases severity <;> cases threshold <;> decide

/-- The counts down to a threshold add up to the number of issues that reach it. -/
theorem SeverityCounts.sum_get_reaching (issues : List Issue) (threshold : Severity) :
    (threshold.reaching.map (ofIssues issues).get).sum =
      issues.countP fun issue => issue.severity.Reaches threshold := by
  have hnodup : threshold.reaching.Nodup :=
    (by decide : Severity.ranked.Nodup).sublist (List.take_sublist _ _)
  have hget : (ofIssues issues).get =
      fun severity => issues.countP fun issue => issue.severity == severity :=
    funext (get_ofIssues issues)
  rw [hget, sum_countP_key_mem hnodup Issue.severity]
  refine List.countP_congr fun issue _ => ?_
  rw [List.contains_iff_mem, Severity.mem_reaching_iff, decide_eq_true_iff]

/-! ## Checks -/

namespace ScanResult

variable {r : ScanResult} {threshold : Severity}

/-- A result that is made of the issues of a number of files. -/
def IsBuilt (r : ScanResult) : Prop :=
  ∃ issues files throughput milliseconds,
    r = (ofIssues issues files throughput).lasting milliseconds

theorem IsBuilt.bySeverity (h : r.IsBuilt) :
    r.summary.bySeverity = SeverityCounts.ofIssues r.issues := by
  obtain ⟨issues, files, throughput, milliseconds, rfl⟩ := h
  rfl

theorem worst?_eq (r : ScanResult) : r.worst? = Issue.worst? r.issues := rfl

theorem exit_of_worst? {worst : Severity} (h : Issue.worst? r.issues = some worst) :
    r.exit (some threshold) = if worst.Reaches threshold then .checkFailed else .success := by
  unfold exit
  rw [worst?_eq, h]
  simp only [Severity.atLeast_iff_reaches]

theorem exit_eq_checkFailed_iff :
    r.exit (some threshold) = .checkFailed ↔
      ∃ issue ∈ r.issues, issue.severity.Reaches threshold := by
  rcases Issue.worst?_spec r.issues with ⟨hnil, hnone⟩ | ⟨worst, hsome, hworst⟩
  · unfold exit
    rw [worst?_eq, hnone, hnil]
    simp
  · rw [exit_of_worst? hsome]
    constructor
    · intro hfailed
      have hreaches : worst.Reaches threshold := by
        by_contra hnot
        rw [if_neg hnot] at hfailed
        cases hfailed
      obtain ⟨issue, hissue, rfl⟩ := hworst.attained
      exact ⟨issue, hissue, hreaches⟩
    · rintro ⟨issue, hissue, hreaches⟩
      rw [if_pos ((hworst.reaches issue hissue).trans hreaches)]

theorem exit_eq_or (r : ScanResult) (threshold : Option Severity) :
    r.exit threshold = .checkFailed ∨ r.exit threshold = .success := by
  unfold exit
  split
  · split
    · exact .inl rfl
    · exact .inr rfl
  · exact .inr rfl

/-- A check fails exactly if an issue reaches the threshold, which is exactly if the counts of the
    severities down to the threshold are not all zero. Otherwise it succeeds, and it does so without
    a threshold. A check that fails does not succeed with a lower threshold, or with more issues. -/
theorem exit_at_threshold (h : r.IsBuilt) :
    r.exit none = .success ∧
    ∀ threshold : Severity,
      (r.exit (some threshold) = .checkFailed ↔
        ∃ issue ∈ r.issues, issue.severity.Reaches threshold) ∧
      (r.exit (some threshold) = .checkFailed ↔
        0 < ((Severity.ranked.take (Severity.ranked.idxOf threshold + 1)).map
          r.summary.bySeverity.get).sum) ∧
      (r.exit (some threshold) ≠ .checkFailed → r.exit (some threshold) = .success) ∧
      ∀ (other : ScanResult) (lower : Severity), other.IsBuilt → r.issues ⊆ other.issues →
        threshold.Reaches lower → r.exit (some threshold) = .checkFailed →
          other.exit (some lower) = .checkFailed := by
  refine ⟨rfl, fun threshold => ⟨exit_eq_checkFailed_iff, ?_, ?_, ?_⟩⟩
  · show _ ↔ 0 < (threshold.reaching.map r.summary.bySeverity.get).sum
    rw [exit_eq_checkFailed_iff, h.bySeverity, SeverityCounts.sum_get_reaching,
      List.countP_pos_iff]
    simp only [decide_eq_true_iff]
  · exact (r.exit_eq_or (some threshold)).resolve_left
  · intro other lower _ hissues hlower hfailed
    obtain ⟨issue, hissue, hreaches⟩ := exit_eq_checkFailed_iff.mp hfailed
    exact exit_eq_checkFailed_iff.mpr ⟨issue, hissues hissue, hreaches.trans hlower⟩

/-- The result of an issue of medium severity. -/
def mediumResult : ScanResult :=
  ofIssues [.make .quality "r" .medium "a.php" 1] 1 {}

/-- The result with one more issue, of low severity. -/
def widerResult : ScanResult :=
  (ofIssues [.make .quality "r" .low "b.php" 1, .make .quality "r" .medium "a.php" 1] 2
    {}).lasting 3

/-- One issue of medium severity makes a check fail from medium down, also with another issue. -/
theorem exit_at_threshold_medium :
    mediumResult.IsBuilt ∧ widerResult.IsBuilt ∧ mediumResult.issues ⊆ widerResult.issues ∧
    Severity.medium.Reaches .low ∧
    mediumResult.exit (some .medium) = .checkFailed ∧
    widerResult.exit (some .low) = .checkFailed ∧
    mediumResult.exit (some .high) = .success ∧
    mediumResult.exit none = .success := by
  have hbuilt : mediumResult.IsBuilt := ⟨_, _, _, 0, rfl⟩
  have hwider : widerResult.IsBuilt := ⟨_, _, _, 3, rfl⟩
  have hissues : mediumResult.issues ⊆ widerResult.issues := List.subset_cons_self _ _
  have hlower : Severity.medium.Reaches .low := by decide
  obtain ⟨hnone, hthreshold⟩ := exit_at_threshold hbuilt
  obtain ⟨hissue, -, -, hmore⟩ := hthreshold .medium
  have hfailed : mediumResult.exit (some .medium) = .checkFailed :=
    hissue.mpr ⟨_, List.mem_singleton_self _, by decide⟩
  refine ⟨hbuilt, hwider, hissues, hlower, hfailed, hmore _ _ hwider hissues hlower hfailed, ?_,
    hnone⟩
  refine (hthreshold .high).2.2.1 fun hhigh => ?_
  obtain ⟨issue, hissue, hreaches⟩ := (hthreshold .high).1.mp hhigh
  rw [List.mem_singleton.mp hissue] at hreaches
  revert hreaches
  decide

end ScanResult

end CodeAudit
