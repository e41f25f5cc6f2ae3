import CodeAudit.Scan.Analysis

/-!
# Disabled rules

Settings disable rules by their identifiers. A file that can be read gives the issues that it would
give with all rules enabled, without those of disabled rules; the findings of all suites, the issue
of a syntax error and the issue of a suite that breaks off are treated alike. The issue of a file
that cannot be read is kept in any case.

Results:
* `analyzeFile_issues_of_load`: the issues of a file that can be read, as a filtered list.
* `analyzeFile_respects_disabled`: when no issue of a disabled rule is given, and what disabling
  rules changes in the outcome of a file that can be read.
-/

namespace CodeAudit

/-! ## Sessions with all rules enabled -/

/-- The identifier of the issue of a file that cannot be read. -/
def unreadableId (categories : List Category) : String :=
  Issue.idOf (Category.diagnostic categories) "scan_error"

theorem RuleSettings.isDisabled_iff (r : RuleSettings) (id : String) :
    r.isDisabled id = true ↔ id ∈ r.disabled := by
  rw [RuleSettings.isDisabled, List.contains_iff_mem]

namespace Session

/-- The session with all rules enabled. -/
def enablingAll (s : Session) : Session :=
  { s with settings := { s.settings with rules := { s.settings.rules with disabled := [] } } }

/-! ## The two outcomes of a file -/

/-- The subject that a readable file makes. -/
def subjectAt (s : Session) (path : String) (content : List Char) : Subject :=
  Subject.ofSource path (ParsedSource.parse s.grammar path content) (Role.classify path content)
    s.settings.scan.contextRadius

theorem analyzeFile_of_error {s : Session} {path e : String} (h : s.load path = .error e)
    (categories : List Category) :
    s.analyzeFile categories path =
      { issues := [Issue.scanError (Category.diagnostic categories) path
          ("Could not read file: " ++ e)]
        failed := true } := by
  rw [analyzeFile, h]

theorem analyzeFile_of_ok {s : Session} {path : String} {content : List Char}
    (h : s.load path = .ok content) (categories : List Category) :
    s.analyzeFile categories path =
      { issues := (s.issuesOf categories (ParsedSource.parse s.grammar path content)
          (s.subjectAt path content)).filter fun issue => !s.settings.rules.isDisabled issue.ruleId
        lines := (Text.lines content).length
        bytes := Text.byteLength content
        failed := categories.any fun category =>
          !(s.examine (s.subjectAt path content) category).isOk } := by
  rw [analyzeFile, h]
  rfl

/-- With all rules enabled nothing is filtered. -/
theorem analyzeFile_enablingAll_issues {s : Session} {path : String} {content : List Char}
    (h : s.load path = .ok content) (categories : List Category) :
    (s.enablingAll.analyzeFile categories path).issues =
      s.issuesOf categories (ParsedSource.parse s.grammar path content)
        (s.subjectAt path content) := by
  have hload : s.enablingAll.load path = .ok content := h
  rw [analyzeFile_of_ok hload]
  exact List.filter_eq_self.mpr fun issue _ => rfl

/-! ## What disabling rules does -/

theorem analyzeFile_issues_of_load {s : Session} {path : String} {content : List Char}
    (h : s.load path = .ok content) (categories : List Category) :
    (s.analyzeFile categories path).issues =
      (s.enablingAll.analyzeFile categories path).issues.filter fun issue =>
        issue.ruleId ∉ s.settings.rules.disabled := by
  rw [analyzeFile_enablingAll_issues h, analyzeFile_of_ok h]
  refine List.filter_congr fun issue _ => ?_
  rw [Bool.eq_iff_iff, Bool.not_eq_true', decide_eq_true_iff, ← RuleSettings.isDisabled_iff,
    Bool.not_eq_true]

/-- Apart from its issues, the outcome of a file does not depend on the disabled rules. -/
theorem analyzeFile_enablingAll_counters (s : Session) (categories : List Category)
    (path : String) :
    (s.enablingAll.analyzeFile categories path).lines = (s.analyzeFile categories path).lines ∧
    (s.enablingAll.analyzeFile categories path).bytes = (s.analyzeFile categories path).bytes ∧
    (s.enablingAll.analyzeFile categories path).failed =
      (s.analyzeFile categories path).failed := by
  cases h : s.load path with
  | error e =>
    have hload : s.enablingAll.load path = .error e := h
    rw [analyzeFile_of_error h, analyzeFile_of_error hload]
    exact ⟨rfl, rfl, rfl⟩
  | ok content =>
    have hload : s.enablingAll.load path = .ok content := h
    rw [analyzeFile_of_ok h, analyzeFile_of_ok hload]
    exact ⟨rfl, rfl, rfl⟩

/-- No issue of a disabled rule is given if and only if the file can be read or the rule of
    unreadable files is not disabled. If the file can be read, the outcome is that with all rules
    enabled, its issues filtered. -/
theorem analyzeFile_respects_disabled (s : Session) (categories : List Category) (path : String) :
    ((∀ issue ∈ (s.analyzeFile categories path).issues,
        issue.ruleId ∉ s.settings.rules.disabled) ↔
      ((∃ content, s.load path = .ok content) ∨
        unreadableId categories ∉ s.settings.rules.disabled)) ∧
    (∀ content, s.load path = .ok content →
      (s.analyzeFile categories path).issues =
        (s.enablingAll.analyzeFile categories path).issues.filter
          (fun issue => issue.ruleId ∉ s.settings.rules.disabled) ∧
      (s.analyzeFile categories path).lines = (s.enablingAll.analyzeFile categories path).lines ∧
      (s.analyzeFile categories path).bytes = (s.enablingAll.analyzeFile categories path).bytes ∧
      (s.analyzeFile categories path).failed =
        (s.enablingAll.analyzeFile categories path).failed) := by
  obtain ⟨hlines, hbytes, hfailed⟩ := analyzeFile_enablingAll_counters s categories path
  refine ⟨?_, fun content h =>
    ⟨analyzeFile_issues_of_load h categories, hlines.symm, hbytes.symm, hfailed.symm⟩⟩
  cases h : s.load path with
  | ok content =>
    refine iff_of_true (fun issue hi => ?_) (.inl ⟨content, rfl⟩)
    rw [analyzeFile_issues_of_load h, List.mem_filter, decide_eq_true_iff] at hi
    exact hi.2
  | error e =>
    rw [analyzeFile_of_error h]
    constructor
    · intro hall
      exact .inr (hall _ (List.mem_singleton_self _))
    · rintro (⟨content, hc⟩ | hid) issue hi
      · cases hc
      · rw [List.mem_singleton.mp hi]
        exact hid

/-- A session that can read its files but not parse them, and whose suites break off. -/
def brokenSession : Session where
  disk := { root := .dir [], cwd := [] }
  settings := { rules := { disabled := ["quality.scan_error"] } }
  grammar := fun _ => .error .noTree
  load := fun _ => .ok "<?php".toList
  breaksOff := fun _ _ => some "overflow"

/-- The issue of a suite that breaks off is dropped if its rule is disabled. -/
theorem broken_file_respects_disabled :
    brokenSession.load "app/User.php" = .ok "<?php".toList ∧
    (brokenSession.enablingAll.analyzeFile [.quality] "app/User.php").issues.map Issue.ruleId =
      ["quality.parse_error", "quality.scan_error"] ∧
    (brokenSession.analyzeFile [.quality] "app/User.php").issues =
      (brokenSession.enablingAll.analyzeFile [.quality] "app/User.php").issues.filter
        (fun issue => issue.ruleId ∉ brokenSession.settings.rules.disabled) := by
  refine ⟨rfl, by decide +kernel, ?_⟩
  exact ((analyzeFile_respects_disabled brokenSession [.quality] "app/User.php").2 _ rfl).1

/-- A session that cannot read any file and has the rule of unreadable files disabled. -/
def unreadableSession : Session where
  disk := { root := .dir [], cwd := [] }
  settings := { rules := { disabled := ["quality.scan_error"] } }
  grammar := fun _ => .error .noTree
  load := fun _ => .error "denied"

/-- The issue of an unreadable file is given although its rule is disabled. -/
theorem unreadable_file_ignores_disabled :
    ∃ issue ∈ (unreadableSession.analyzeFile [.quality] "app/User.php").issues,
      issue.ruleId ∈ unreadableSession.settings.rules.disabled := by
  refine ⟨_, List.mem_singleton_self _, ?_⟩
  decide

end Session

end CodeAudit
