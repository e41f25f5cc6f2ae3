import CodeAudit.Check.Naming
import CodeAudit.Proofs.AssignmentPlaces

/-!
# Variables that are letters

A variable whose name is one letter is reported once, on the first line that assigns to it. Names of
counters and of caught exceptions are excused. An assignment counts if it is read, so that every
second one of a chain such as `$a=$b=1` does not.

Results:
* `mem_caughtVariables_iff`: which variables are caught.
* `issuesAbout_run`: what is reported about a variable.
* `letter_reported_once`: a letter is reported on the first line that assigns to it.
-/

namespace CodeAudit

open Text Source

namespace Check.Naming

/-! ## Caught variables -/

/-- Is the variable the one of a catch clause? It is the last thing before the first closing
    parenthesis. -/
def IsCaught (content name : List Char) : Prop :=
  ∃ before space caught gap rest, (∀ c ∈ space ++ gap, isBlank c = true) ∧ ')' ∉ caught ∧
    name ≠ [] ∧ (∀ c ∈ name, isWord c = true) ∧
    content = before ++ ("catch".toList ++ (space ++ '(' ::
      (caught ++ '$' :: (name ++ (gap ++ ')' :: rest)))))

/-- The pattern of what stands before the name. -/
def caughtFront : Pattern :=
  .lit "catch" ++ .blanks ++ .char '(' ++ .many (.noneOf ")") ++ .char '$'

/-- The pattern of what stands behind the name. -/
def caughtBack : Pattern := .blanks ++ .char ')'

theorem matchAt?_caughtVariable (c : Cursor) :
    caughtVariable.matchAt? c =
      (caughtFront ++ .group 1 (.many1 .word) ++ caughtBack : Pattern).matchAt? c := by
  rfl

theorem isVisible_caughtVariable : caughtVariable.isVisible = true := by decide

theorem fits_caughtFront {previous : Option Char} {stretch rest : List Char} :
    caughtFront.Fits previous stretch rest ↔
      ∃ space caught, (∀ c ∈ space, isBlank c = true) ∧ ')' ∉ caught ∧
        stretch = "catch".toList ++ (space ++ '(' :: (caught ++ ['$'])) := by
  have hassoc : caughtFront.Fits previous stretch rest ↔
      (.lit "catch" ++ (.blanks ++ (.char '(' ++ (.many (.noneOf ")") ++ .char '$'))) :
        Pattern).Fits previous stretch rest := by
    simp only [← Pattern.fits_seq_assoc]
    exact Iff.rfl
  rw [hassoc]
  constructor
  · rintro ⟨word, _, rfl, hword, space, _, rfl, hspace, paren, _, rfl, hparen, caught, dollar, rfl,
      hcaught, hdollar⟩
    rw [Pattern.fits_char] at hparen hdollar
    rw [Pattern.fits_lit.mp hword, hparen, hdollar]
    exact ⟨space, caught, Pattern.fits_blanks.mp hspace, fits_arguments.mp hcaught, rfl⟩
  · rintro ⟨space, caught, hspace, hcaught, rfl⟩
    exact ⟨_, _, rfl, Pattern.fits_lit.mpr rfl, space, _, rfl, Pattern.fits_blanks.mpr hspace,
      ['('], _, rfl, Pattern.fits_char.mpr rfl, caught, ['$'], rfl, fits_arguments.mpr hcaught,
      Pattern.fits_char.mpr rfl⟩

theorem fits_caughtBack {previous : Option Char} {stretch rest : List Char} :
    caughtBack.Fits previous stretch rest ↔
      ∃ gap, (∀ c ∈ gap, isBlank c = true) ∧ stretch = gap ++ [')'] := by
  constructor
  · rintro ⟨gap, paren, rfl, hgap, hparen⟩
    rw [Pattern.fits_char.mp hparen]
    exact ⟨gap, Pattern.fits_blanks.mp hgap, rfl⟩
  · rintro ⟨gap, hgap, rfl⟩
    exact ⟨gap, [')'], rfl, Pattern.fits_blanks.mpr hgap, Pattern.fits_char.mpr rfl⟩

/-- What the pattern of a caught variable describes. -/
theorem fits_caughtVariable {previous : Option Char} {stretch rest : List Char} :
    caughtVariable.Fits previous stretch rest ↔
      ∃ space caught name gap, (∀ c ∈ space ++ gap, isBlank c = true) ∧ ')' ∉ caught ∧
        name ≠ [] ∧ (∀ c ∈ name, isWord c = true) ∧
        stretch = ("catch".toList ++ (space ++ '(' :: (caught ++ ['$']))) ++
          (name ++ (gap ++ [')'])) := by
  have hassoc : caughtVariable.Fits previous stretch rest ↔
      (caughtFront ++ (.group 1 (.many1 .word) ++ caughtBack) : Pattern).Fits previous stretch
        rest := by
    rw [caughtBack]
    simp only [← Pattern.fits_seq_assoc]
    exact Iff.rfl
  rw [hassoc]
  constructor
  · rintro ⟨front, _, rfl, hfront, name, back, rfl, hname, hback⟩
    obtain ⟨space, caught, hspace, hcaught, rfl⟩ := fits_caughtFront.mp hfront
    obtain ⟨gap, hgap, rfl⟩ := fits_caughtBack.mp hback
    obtain ⟨hne, hword⟩ := Pattern.fits_many1_one.mp hname
    exact ⟨space, caught, name, gap, List.forall_mem_append.mpr ⟨hspace, hgap⟩, hcaught, hne, hword,
      rfl⟩
  · rintro ⟨space, caught, name, gap, hblank, hcaught, hne, hword, rfl⟩
    rw [List.forall_mem_append] at hblank
    exact ⟨_, _, rfl, fits_caughtFront.mpr ⟨space, caught, hblank.1, hcaught, rfl⟩, name, _, rfl,
      Pattern.fits_many1_one.mpr ⟨hne, hword⟩, fits_caughtBack.mpr ⟨gap, hblank.2, rfl⟩⟩

/-- A catch clause ends with its first closing parenthesis. -/
theorem exists_inner_of_fits {previous : Option Char} {stretch rest : List Char}
    (h : caughtVariable.Fits previous stretch rest) :
    ∃ inner, ')' ∉ inner ∧ stretch = inner ++ [')'] := by
  obtain ⟨space, caught, name, gap, hblank, hcaught, -, hword, rfl⟩ := fits_caughtVariable.mp h
  refine ⟨("catch".toList ++ (space ++ '(' :: (caught ++ ['$']))) ++ (name ++ gap), ?_, by simp⟩
  have hspace : ')' ∉ space ++ gap := fun hmem => absurd (hblank _ hmem) (by decide)
  have hname : ')' ∉ name := fun hmem => absurd (hword _ hmem) (by decide)
  have hcatch : ')' ∉ "catch".toList := by decide
  simp only [List.mem_append, List.mem_cons, List.not_mem_nil, or_false, not_or] at hspace ⊢
  exact ⟨⟨hcatch, hspace.1, by decide, hcaught, by decide⟩, hname, hspace.2⟩

/-- Which variables are caught. A clause within another ends with it, so that both have the same
    variable. -/
theorem mem_caughtVariables_iff {s : Subject} {name : List Char} :
    name ∈ caughtVariables s ↔ IsCaught s.content name := by
  rw [caughtVariables, List.mem_map]
  constructor
  · rintro ⟨m, hm, rfl⟩
    obtain ⟨before, text, hcontent, hmatch, -⟩ :=
      Pattern.exists_of_mem_findAll isVisible_caughtVariable hm
    rw [matchAt?_caughtVariable] at hmatch
    obtain ⟨front, name, back, rest, htext, hfront, hname, hback, hgroup, -⟩ :=
      Pattern.exists_of_matchAt?_group (by rfl) hmatch
    obtain ⟨space, caught, hspace, hcaught, rfl⟩ := fits_caughtFront.mp hfront
    obtain ⟨gap, hgap, rfl⟩ := fits_caughtBack.mp hback
    obtain ⟨hne, hword⟩ := Pattern.fits_many1_one.mp hname
    have htextEq : m.text 1 = name := by rw [Match.text, hgroup]; rfl
    rw [Cursor.behind_rest] at htext
    rw [htextEq]
    refine ⟨before, space, caught, gap, rest, List.forall_mem_append.mpr ⟨hspace, hgap⟩, hcaught,
      hne, hword, ?_⟩
    rw [hcontent, htext]
    simp
  · rintro ⟨before, space, caught, gap, rest, hblank, hcaught, hne, hword, hcontent⟩
    have hfits : caughtVariable.Fits before.getLast? _ rest :=
      fits_caughtVariable.mpr ⟨space, caught, name, gap, hblank, hcaught, hne, hword, rfl⟩
    obtain ⟨b, x, -, m, hm, hmatch, hwhole⟩ :=
      Pattern.exists_found_with_end isVisible_caughtVariable exists_inner_of_fits hfits
    refine ⟨m, ?_, ?_⟩
    · rw [hcontent]
      simpa using hm
    rw [matchAt?_caughtVariable] at hmatch
    obtain ⟨front, name', back, rest', htext, hfront, hname, hback, hgroup, hspan⟩ :=
      Pattern.exists_of_matchAt?_group (by rfl) hmatch
    obtain ⟨space', caught', -, -, rfl⟩ := fits_caughtFront.mp hfront
    obtain ⟨gap', hgap', rfl⟩ := fits_caughtBack.mp hback
    obtain ⟨hne', hword'⟩ := Pattern.fits_many1_one.mp hname
    have htextEq : m.text 1 = name' := by rw [Match.text, hgroup]; rfl
    -- Both end with the variable, white space and the parenthesis.
    have hends : (x ++ ("catch".toList ++ (space ++ '(' :: caught)) ++ '$' :: (name ++ gap)) ++
        [')'] = (("catch".toList ++ (space' ++ '(' :: caught')) ++ '$' :: (name' ++ gap')) ++
          [')'] := by
      simpa using hwhole.symm.trans hspan
    rw [htextEq]
    exact (eq_of_variable_at_end hne hne' hword hword' (List.forall_mem_append.mp hblank).2 hgap'
      (List.append_cancel_right hends)).2.1.symm

/-! ## What is reported about a variable -/

/-- The issues of a rule about a variable. -/
def issuesAbout (rule : Rule) (name : List Char) (issues : List Issue) : List Issue :=
  (rule.among issues).filter fun issue => variableOf? issue == some (String.ofList name)

/-- The issue about a variable that is a letter. -/
def letterIssue (s : Subject) (name : List Char) (row : Nat) : Issue :=
  (s.report .quality "single_letter_variable" .low row "Single-letter variable"
    ("Variable '$" ++ String.ofList name ++ "' does not describe its contents")
    "Use a descriptive name").withMetadata "variable" (.str (String.ofList name))

/-- What is reported of a test on lines: one issue on the first line that meets it, and none if no
    line does. -/
inductive ReportedFirst (test : SourceLine → Prop) (issue : SourceLine → Issue)
    (lines : List SourceLine) : List Issue → Prop where
  | never (h : ∀ line ∈ lines, ¬ test line) : ReportedFirst test issue lines []
  | first {above below : List SourceLine} {line : SourceLine}
    (hlines : lines = above ++ line :: below) (habove : ∀ other ∈ above, ¬ test other)
    (hline : test line) : ReportedFirst test issue lines [issue line]

/-- The findings about an assignment tell their keys. -/
theorem key_of_mem_variableIssues {s : Subject} {caught : List (List Char)} {schema : Bool}
    {a : Assignment} {pair : (Rule × List Char) × Issue}
    (h : pair ∈ variableIssues s caught schema a) :
    pair.2.ruleName = pair.1.1.name ∧ variableOf? pair.2 = some (String.ofList pair.1.2) ∧
      (pair.1.1 = .singleLetterVariable ∨ pair.1.1 = .snakeCaseVariable) := by
  rw [variableIssues] at h
  rcases List.mem_append.mp h with h | h <;> split at h
  · rw [List.mem_singleton.mp h]
    exact ⟨rfl, rfl, .inl rfl⟩
  · cases h
  · rw [List.mem_singleton.mp h]
    exact ⟨rfl, rfl, .inr rfl⟩
  · cases h

/-- What is reported about a variable is the first finding about it. -/
theorem issuesAbout_run (s : Subject) (name : List Char) :
    issuesAbout .singleLetterVariable name (run s) =
      ((s.codeLines.findSome? fun line => (Assignment.ofLine line).findSome? fun a =>
        (variableIssues s (caughtVariables s) (isSchemaFile s) a).find? fun pair =>
          pair.1 == (.singleLetterVariable, name)).map Prod.snd).toList := by
  have hheads : Rule.singleLetterVariable.among
      (s.codeLines.flatMap fun line => className s line ++ methodName s line) = [] := by
    rw [Rule.among_flatMap, List.flatMap_eq_nil_iff]
    intro line _
    have hclass : Rule.classNaming.name ≠ Rule.singleLetterVariable.name := by decide
    have hmethod : Rule.methodNaming.name ≠ Rule.singleLetterVariable.name := by decide
    rw [Rule.among_append, Rule.among_of_other hclass, Rule.among_of_other hmethod,
      List.append_nil]
    · fun_cases methodName s line <;> simp [Rule.name, Rule.entry]
    · fun_cases className s line <;> simp [Rule.name, Rule.entry]
  have htest : ∀ pair ∈ s.assignments.flatMap
      (variableIssues s (caughtVariables s) (isSchemaFile s)),
      (variableOf? pair.2 == some (String.ofList name) &&
        pair.2.ruleName == Rule.singleLetterVariable.name) =
          (pair.1 == (.singleLetterVariable, name)) := by
    intro pair hpair
    obtain ⟨a, -, hissue⟩ := List.mem_flatMap.mp hpair
    obtain ⟨hrule, hname, hkey⟩ := key_of_mem_variableIssues hissue
    obtain ⟨⟨rule, name'⟩, issue⟩ := pair
    have hother : Rule.snakeCaseVariable.name ≠ Rule.singleLetterVariable.name := by decide
    rw [Bool.eq_iff_iff, Bool.and_eq_true, beq_iff_eq, beq_iff_eq, beq_iff_eq, hrule, hname,
      Prod.mk.injEq, Option.some_inj, String.ofList_inj, and_comm]
    refine and_congr_left fun _ => ⟨fun hsame => ?_, fun hsame => by rw [hsame]⟩
    rcases hkey with hkey | hkey
    · exact hkey
    · have hrule' : rule = .snakeCaseVariable := hkey
      rw [hrule'] at hsame
      exact absurd hsame hother
  rw [issuesAbout, run, Rule.among_append, hheads, List.append_nil, Rule.among, List.filter_filter,
    variableNames, filter_firstPerKey htest List.not_mem_nil, Subject.assignments,
    List.flatMap_assoc, List.find?_flatMap]
  simp only [List.find?_flatMap]

section Letter

variable {s : Subject} {c : Char} (hletter : isTooShort (caughtVariables s) [c] = true)

include hletter

theorem find?_variableIssues (schema : Bool) (a : Assignment) :
    ((variableIssues s (caughtVariables s) schema a).find? fun pair =>
        pair.1 == (.singleLetterVariable, [c])) =
      if a.name = [c] then some ((.singleLetterVariable, [c]), letterIssue s [c] a.row)
      else none := by
  have hother : ((Rule.snakeCaseVariable, a.name) == (Rule.singleLetterVariable, [c])) = false := by
    rw [beq_eq_false_iff_ne]
    rintro hsame
    cases hsame
  rw [variableIssues, List.find?_append]
  have hsnake : ∀ {test : Bool} {issue : Issue},
      ((if test then [((Rule.snakeCaseVariable, a.name), issue)] else []).find? fun pair =>
        pair.1 == (.singleLetterVariable, [c])) = none := by
    intro test issue
    cases test
    · rfl
    · exact List.find?_cons_of_neg (by rw [hother]; exact Bool.false_ne_true)
  rw [hsnake, Option.or_none]
  by_cases hname : a.name = [c]
  · rw [hname, if_pos hletter, if_pos rfl, List.find?_cons_of_pos (by simp)]
    rfl
  · rw [if_neg hname, List.find?_eq_none]
    intro pair hpair
    split at hpair
    · rw [List.mem_singleton.mp hpair, beq_iff_eq]
      exact fun hsame => hname (congrArg Prod.snd hsame)
    · cases hpair

/-- What is found about a letter on one line. -/
theorem findSome?_ofLine_of_readOn (schema : Bool) {line : SourceLine} (h : ReadOn [c] line) :
    ((Assignment.ofLine line).findSome? fun a =>
      (variableIssues s (caughtVariables s) schema a).find? fun pair =>
        pair.1 == (.singleLetterVariable, [c])) =
      some ((.singleLetterVariable, [c]), letterIssue s [c] line.row) := by
  simp only [find?_variableIssues hletter]
  obtain ⟨a, ha, hname⟩ := mem_ofLine_iff.mpr h
  have hsome : ((Assignment.ofLine line).findSome? fun a =>
      if a.name = [c] then some ((Rule.singleLetterVariable, [c]), letterIssue s [c] a.row)
      else none).isSome := List.findSome?_isSome_iff.mpr ⟨a, ha, by rw [if_pos hname]; rfl⟩
  obtain ⟨found, hfound⟩ := Option.isSome_iff_exists.mp hsome
  obtain ⟨first, hfirst, hissue⟩ := List.exists_of_findSome?_eq_some hfound
  rw [hfound]
  split at hissue
  · rw [← hissue, row_of_mem_ofLine hfirst]
  · cases hissue

theorem findSome?_ofLine_of_not_readOn (schema : Bool) {line : SourceLine}
    (h : ¬ ReadOn [c] line) :
    ((Assignment.ofLine line).findSome? fun a =>
      (variableIssues s (caughtVariables s) schema a).find? fun pair =>
        pair.1 == (.singleLetterVariable, [c])) = none := by
  simp only [find?_variableIssues hletter]
  rw [List.findSome?_eq_none_iff]
  intro a ha
  exact if_neg fun hname => h (mem_ofLine_iff.mp ⟨a, ha, hname⟩)

/-- A letter is reported on the first line that assigns to it. -/
theorem reportedFirst_letter :
    ReportedFirst (ReadOn [c]) (fun line => letterIssue s [c] line.row) s.codeLines
      (issuesAbout .singleLetterVariable [c] (run s)) := by
  have hnot : ∀ {line : SourceLine}, ((Assignment.ofLine line).findSome? fun a =>
      (variableIssues s (caughtVariables s) (isSchemaFile s) a).find? fun pair =>
        pair.1 == (.singleLetterVariable, [c])) = none → ¬ ReadOn [c] line := by
    intro line hnone hread
    rw [findSome?_ofLine_of_readOn hletter _ hread] at hnone
    cases hnone
  rw [issuesAbout_run]
  cases hfind : s.codeLines.findSome? _ with
  | none =>
    rw [List.findSome?_eq_none_iff] at hfind
    exact .never fun line hline => hnot (hfind line hline)
  | some found =>
    obtain ⟨above, line, below, hlines, hline, habove⟩ := List.findSome?_eq_some_iff.mp hfind
    have hread : ReadOn [c] line := by
      refine Classical.byContradiction fun hread => ?_
      rw [findSome?_ofLine_of_not_readOn hletter _ hread] at hline
      cases hline
    rw [findSome?_ofLine_of_readOn hletter _ hread] at hline
    rw [← Option.some.inj hline]
    exact .first hlines (fun other hother => hnot (habove other hother)) hread

end Letter

/-- Does the line assign to the variable? -/
def AssignedOn (name : List Char) (line : SourceLine) : Prop :=
  isDeclarationLine line.text = false ∧ ∃ a : AssignmentAt line.bare, a.name = name

/-- The report depends on what the test says of the lines. -/
theorem ReportedFirst.congr {test test' : SourceLine → Prop} {issue : SourceLine → Issue}
    {lines : List SourceLine} {issues : List Issue} (h : ReportedFirst test issue lines issues)
    (hsame : ∀ line ∈ lines, test line ↔ test' line) : ReportedFirst test' issue lines issues := by
  cases h with
  | never hnever =>
    exact .never fun line hline htest => hnever line hline ((hsame line hline).mpr htest)
  | first hlines habove hline =>
    subst hlines
    refine .first rfl (fun other hother hother' => habove other hother ?_) ?_
    · exact (hsame other (List.mem_append_left _ hother)).mpr hother'
    · exact (hsame _ (List.mem_append_right _ List.mem_cons_self)).mp hline

/-- If no assignment to a variable stands right behind the sign of another, then all are read. -/
theorem readOn_iff_assignedOn {name : List Char} {line : SourceLine}
    (h : ∀ a : AssignmentAt line.bare, a.name = name → Chained a.before 0) :
    ReadOn name line ↔ AssignedOn name line := by
  refine and_congr_right fun _ => ⟨?_, ?_⟩
  · rintro ⟨a, -, hname⟩
    exact ⟨a, hname⟩
  · rintro ⟨a, hname⟩
    exact ⟨a, ⟨0, h a hname, rfl⟩, hname⟩

end Check.Naming

open Check Check.Naming in
/-- A variable that is a letter, but neither the customary name of a counter nor the variable of a
    catch clause, is reported once, on the first line of code that assigns to it and declares
    nothing, and not at all if there is no such line. The assignments that count are those with an
    even number of others chained right in front of them. These are all, if no assignment to the
    variable stands right behind the sign of another. -/
theorem letter_reported_once (path : String) (source : ParsedSource) (role : Role) (radius : Nat)
    {c : Char} (hletter : c.isAlpha = true) (hname : String.ofList [c] ∉ shortNames)
    (hcaught : ¬ IsCaught source.content [c]) :
    ReportedFirst (ReadOn [c])
        (fun line => letterIssue (.ofSource path source role radius) [c] line.row)
        (Subject.ofSource path source role radius).codeLines
        (issuesAbout .singleLetterVariable [c] (run (.ofSource path source role radius))) ∧
      ((∀ line ∈ (Subject.ofSource path source role radius).codeLines,
          ∀ a : AssignmentAt line.bare, a.name = [c] → Chained a.before 0) →
        ReportedFirst (AssignedOn [c])
          (fun line => letterIssue (.ofSource path source role radius) [c] line.row)
          (Subject.ofSource path source role radius).codeLines
          (issuesAbout .singleLetterVariable [c] (run (.ofSource path source role radius)))) := by
  have hshort : isTooShort (caughtVariables (.ofSource path source role radius)) [c] = true := by
    have hfree : [c] ∉ caughtVariables (.ofSource path source role radius) := fun hmem =>
      hcaught (mem_caughtVariables_iff.mp hmem)
    rw [isTooShort, hletter, List.contains_eq_mem, List.contains_eq_mem, decide_eq_false hname,
      decide_eq_false hfree]
    rfl
  have hfirst := reportedFirst_letter hshort
  exact ⟨hfirst, fun hapart => hfirst.congr fun line hline =>
    readOn_iff_assignedOn (hapart line hline)⟩

/-- A line with two assignments, the second right behind the sign of the first. -/
def chainedLine : SourceLine := ⟨1, "$a=$b=1;".toList, false⟩

open Check Check.Naming in
/-- The first variable of the chain is reported. -/
theorem first_of_chain_reported :
    'a'.isAlpha = true ∧ String.ofList ['a'] ∉ shortNames ∧ ¬ IsCaught chainedLine.text ['a'] ∧
      issuesAbout .singleLetterVariable ['a'] (run
          (.ofSource "app/A.php" ⟨.php, chainedLine.text, none, none⟩ .plain 0)) =
        [letterIssue (.ofSource "app/A.php" ⟨.php, chainedLine.text, none, none⟩ .plain 0) ['a']
          1] := by
  have hcaught : ¬ IsCaught chainedLine.text ['a'] := fun h =>
    absurd (mem_caughtVariables_iff (s := .ofSource "app/A.php" ⟨.php, chainedLine.text, none, none⟩
      .plain 0).mpr h) (by decide +kernel)
  have hread : ReadOn ['a'] chainedLine :=
    ⟨by decide +kernel, ⟨[], ['a'], [], "$b=1;".toList, by decide, by decide,
      List.forall_mem_nil _, by rintro c ⟨⟩; decide⟩, ⟨0, chained_nil, rfl⟩, rfl⟩
  refine ⟨by decide, by decide, hcaught, ?_⟩
  have hfirst := (letter_reported_once "app/A.php" ⟨.php, chainedLine.text, none, none⟩ .plain 0
    (c := 'a') (by decide) (by decide) hcaught).1
  have hlines : (Subject.ofSource "app/A.php" ⟨.php, chainedLine.text, none, none⟩ .plain
      0).codeLines = [chainedLine] := rfl
  rw [hlines] at hfirst
  generalize issuesAbout .singleLetterVariable ['a'] _ = issues at hfirst ⊢
  cases hfirst with
  | never hnever => exact absurd hread (hnever chainedLine (List.mem_singleton_self _))
  | first hsplit =>
    obtain ⟨rfl, hrest⟩ := List.append_eq_singleton_iff.mp hsplit.symm |>.resolve_right (by simp)
    rw [(List.cons.inj hrest).1]
    rfl

open Check Check.Naming in
/-- The second one is not, although the line assigns to it. -/
theorem second_of_chain_unseen :
    AssignedOn ['b'] chainedLine ∧
      (issuesAbout .singleLetterVariable ['b'] (run
        (.ofSource "app/Support/A.php" ⟨.php, chainedLine.text, none, none⟩ .plain 0))).length =
          0 := by
  refine ⟨⟨by decide +kernel, ⟨"$a=".toList, ['b'], [], "1;".toList, by decide, by decide,
    List.forall_mem_nil _, by rintro c ⟨⟩; decide⟩, rfl⟩, ?_⟩
  decide +kernel

end CodeAudit
