import CodeAudit.Proofs.FirstStatements

/-!
# Lines that are reported

A check that goes through the lines of code of a file reports an issue of a rule on a line exactly
if it finds something there, since lines have different numbers.

Results:
* `pairwise_rows`, `eq_of_row`: lines stand in the order of their numbers, and are known by them.
* `reportedOn_iff`: what is reported on a line of code.
-/

namespace CodeAudit

open Text Source

namespace Subject

/-- Are the lines of the subject those of its text? -/
def IsNumbered (s : Subject) : Prop :=
  s.lines = number s.texts

theorem isNumbered_ofSource (path : String) (source : ParsedSource) (role : Role) (radius : Nat) :
    (ofSource path source role radius).IsNumbered := rfl

namespace IsNumbered

variable {s : Subject} (h : s.IsNumbered)

include h

theorem one_le_row {line : SourceLine} (hline : line ∈ s.codeLines) : 1 ≤ line.row := by
  have hmem := (List.mem_filter.mp hline).1
  rw [h] at hmem
  exact (row_of_mem_number hmem).1

/-- The lines of a file stand in the order of their numbers. -/
theorem pairwise_rows : s.lines.Pairwise fun line below => line.row < below.row := by
  have hrows : (s.lines.map SourceLine.row).Pairwise (· < ·) := by
    rw [h, number, List.map_map]
    have hsnd : (SourceLine.row ∘ fun entry : (List Char × Bool) × Nat =>
        (⟨entry.2, entry.1.1, entry.1.2⟩ : SourceLine)) = Prod.snd := rfl
    rw [hsnd, List.zipIdx_map_snd]
    exact List.pairwise_lt_range'
  exact List.pairwise_map.mp hrows

theorem nodup_rows : (s.codeLines.map SourceLine.row).Nodup :=
  (List.pairwise_map.mpr (h.pairwise_rows.filter _)).imp Nat.ne_of_lt

/-- A line is known by its number. -/
theorem eq_of_row {line other : SourceLine} (hline : line ∈ s.lines)
    (hother : other ∈ s.lines) (hrow : line.row = other.row) : line = other :=
  List.inj_on_of_nodup_map ((List.pairwise_map.mpr h.pairwise_rows).imp Nat.ne_of_lt) hline hother
    hrow

end IsNumbered

end Subject

/-- Is an issue of the rule reported on the row? -/
def Rule.ReportedOn (rule : Rule) (issues : List Issue) (row : Nat) : Prop :=
  ∃ issue ∈ rule.among issues, issue.line = row

/-- What is reported on a line of code. -/
theorem Rule.reportedOn_iff {rule : Rule} {issues : List Issue} {s : Subject} (hs : s.IsNumbered)
    {found : SourceLine → List Issue} (hrun : rule.among issues = s.codeLines.flatMap found)
    (hfound : ∀ line, Check.Danger.IssuesOf rule line.row (found line)) {line : SourceLine}
    (hline : line ∈ s.codeLines) : rule.ReportedOn issues line.row ↔ found line ≠ [] := by
  have hrow : ∀ other ∈ s.codeLines, ∀ issue ∈ found other, issue.line = other.row := by
    intro other hother issue hissue
    rw [(hfound other issue hissue).2]
    exact Nat.max_eq_left (hs.one_le_row hother)
  rw [Rule.ReportedOn, hrun]
  constructor
  · rintro ⟨issue, hissue, hissueRow⟩
    obtain ⟨other, hother, hmem⟩ := List.mem_flatMap.mp hissue
    have hsame : other = line :=
      hs.eq_of_row (List.mem_filter.mp hother).1 (List.mem_filter.mp hline).1
        (by rw [← hissueRow, hrow _ hother _ hmem])
    rw [← hsame]
    exact List.ne_nil_of_mem hmem
  · intro hne
    obtain ⟨issue, hissue⟩ := List.exists_mem_of_ne_nil _ hne
    exact ⟨issue, List.mem_flatMap.mpr ⟨line, hline, hissue⟩, hrow line hline issue hissue⟩

/-! ## The check of practice -/

namespace Check.Practice

variable (s : Subject)

theorem ruleName_magicNumbers :
    ∀ issue ∈ magicNumbers s, issue.ruleName = Rule.magicNumber.name := by
  intro issue hissue
  rw [magicNumbers] at hissue
  split at hissue
  · cases hissue
  · obtain ⟨line, -, hline⟩ := List.mem_filterMap.mp hissue
    split at hline
    · cases hline
    · obtain ⟨value, -, hvalue⟩ := Option.bind_eq_some_iff.mp hline
      cases hvalue
      rfl

theorem ruleName_emptyCatches :
    ∀ issue ∈ emptyCatches s, issue.ruleName = Rule.emptyCatchBlock.name := by
  intro issue hissue
  obtain ⟨line, -, hline⟩ := List.mem_filterMap.mp hissue
  split at hline
  · cases hline
    rfl
  · cases hline

theorem ruleName_debugCalls :
    ∀ issue ∈ debugCalls s, issue.ruleName = Rule.debugStatement.name := by
  intro issue hissue
  obtain ⟨line, -, hline⟩ := List.mem_filterMap.mp hissue
  obtain ⟨found, -, hfound⟩ := Option.bind_eq_some_iff.mp hline
  cases hfound
  rfl

theorem ruleName_unusedLocals :
    ∀ issue ∈ unusedLocals s, issue.ruleName = Rule.potentialUnusedVariable.name := by
  intro issue hissue
  rw [unusedLocals] at hissue
  split at hissue
  · cases hissue
  · obtain ⟨key, hkey⟩ := mem_of_mem_firstPerKey hissue
    obtain ⟨a, -, ha⟩ := List.mem_filterMap.mp hkey
    dsimp only at ha
    split at ha
    · cases ha
    · cases ha
      rfl

theorem ruleName_unusedProperties :
    ∀ issue ∈ unusedProperties s, issue.ruleName = Rule.potentialUnusedVariable.name := by
  intro issue hissue
  obtain ⟨line, -, hline⟩ := List.mem_filterMap.mp hissue
  obtain ⟨found, -, hfound⟩ := Option.bind_eq_some_iff.mp hline
  dsimp only at hfound
  split at hfound
  · cases hfound
  · cases hfound
    rfl

theorem among_emptyCatches : Rule.emptyCatchBlock.among (run s) = emptyCatches s := by
  rw [run, Rule.among_append, Rule.among_append, Rule.among_append, Rule.among_append,
    Rule.among_of_other (by decide) (ruleName_magicNumbers s),
    Rule.among_of_forall (ruleName_emptyCatches s),
    Rule.among_of_other (by decide) (ruleName_debugCalls s),
    Rule.among_of_other (by decide) (ruleName_unusedLocals s),
    Rule.among_of_other (by decide) (ruleName_unusedProperties s), List.nil_append,
    List.append_nil, List.append_nil, List.append_nil]

theorem among_debugCalls : Rule.debugStatement.among (run s) = debugCalls s := by
  rw [run, Rule.among_append, Rule.among_append, Rule.among_append, Rule.among_append,
    Rule.among_of_other (by decide) (ruleName_magicNumbers s),
    Rule.among_of_other (by decide) (ruleName_emptyCatches s),
    Rule.among_of_forall (ruleName_debugCalls s),
    Rule.among_of_other (by decide) (ruleName_unusedLocals s),
    Rule.among_of_other (by decide) (ruleName_unusedProperties s), List.nil_append,
    List.nil_append, List.append_nil, List.append_nil]

end Check.Practice

end CodeAudit
