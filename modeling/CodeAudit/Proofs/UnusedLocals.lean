import CodeAudit.Proofs.QuotedStrings
import CodeAudit.Proofs.VariableUses

/-!
# Variables that nothing reads

Assignments are read in code with blanked strings, and uses are counted in the code itself. What
stands outside of strings is the same in both, in the same place, so that each assignment is one of
the uses. A variable is reported if there is no other, so that no name is reported twice.

Results:
* `exists_of_blank`: what blanked code shows stands in the code, in the same place.
* `exists_variable`: the variable of an assignment is one of the code.
* `nodup_candidates`: assignments that are reported have different names.
* `unused_local_occurs_once`: what is reported about local variables.
-/

namespace CodeAudit

open Text Source

/-! ## Blanked code -/

namespace Source.Quoting

theorem Proper.read {s : Quoting} (h : s.Proper) (text : List Char) : (s.read text).Proper := by
  induction text generalizing s with
  | nil => exact h
  | cons c text ih => exact ih (h.step c)

/-- What blanked code shows stands in the code, in the same place. -/
theorem exists_of_blank {s : Quoting} {text before rest : List Char} {c : Char} (hc : c ≠ ' ')
    (h : s.blank text = before ++ c :: rest) :
    ∃ front later, text = front ++ c :: later ∧ s.blank front = before ∧
      (s.read front).keeps c = true ∧ ((s.read front).step c).blank later = rest := by
  induction text generalizing s before with
  | nil => exact absurd h.symm (by simp [blank])
  | cons d text ih =>
    rw [blank] at h
    by_cases hkeeps : s.keeps d = true
    · rw [if_pos hkeeps] at h
      cases before with
      | nil =>
        obtain ⟨rfl, hrest⟩ := List.cons.inj h
        exact ⟨[], text, rfl, rfl, hkeeps, hrest⟩
      | cons e before =>
        obtain ⟨rfl, htail⟩ := List.cons.inj h
        obtain ⟨front, later, rfl, hfront, hkept, hlater⟩ := ih htail
        exact ⟨d :: front, later, rfl, by rw [blank, if_pos hkeeps, hfront], hkept, hlater⟩
    · rw [if_neg hkeeps] at h
      obtain ⟨between, rfl, htail⟩ :=
        exists_of_append_eq (fun hmem => hc (List.eq_of_mem_replicate hmem)) h
      obtain ⟨front, later, rfl, hfront, hkept, hlater⟩ := ih htail
      exact ⟨d :: front, later, rfl, by rw [blank, if_neg hkeeps, hfront], hkept, hlater⟩

/-- A character that stays and is no quote stands outside of strings. -/
theorem eq_outside_of_keeps {s : Quoting} (h : s.Proper) {c : Char} (hc : c ≠ '\'' ∧ c ≠ '"')
    (hkeeps : s.keeps c = true) : s = outside ∧ s.step c = outside := by
  have hstep : outside.step c = outside := if_neg fun hquote => hquote.elim hc.1 hc.2
  cases s with
  | outside => exact ⟨rfl, hstep⟩
  | inside q escaped =>
    cases escaped with
    | true => cases hkeeps
    | false =>
      obtain rfl : c = q := by simpa [keeps] using (Bool.and_eq_true_iff.mp hkeeps).2
      exact absurd h fun hquote => hquote.elim hc.1 hc.2

/-- Outside of strings, blanked code begins like the code, up to the first quote. -/
theorem exists_of_blank_outside {text name rest : List Char}
    (hname : ∀ c ∈ name, c ≠ '\'' ∧ c ≠ '"') (h : outside.blank text = name ++ rest) :
    ∃ later, text = name ++ later ∧ later.head? = rest.head? := by
  induction name generalizing text with
  | nil =>
    refine ⟨text, rfl, ?_⟩
    rw [List.nil_append] at h
    rw [← h]
    cases text <;> rfl
  | cons c name ih =>
    rw [List.forall_mem_cons] at hname
    cases text with
    | nil => cases h
    | cons d text =>
      have hcons : d :: (outside.step d).blank text = c :: (name ++ rest) := h
      obtain ⟨rfl, htail⟩ := List.cons.inj hcons
      have hstep : outside.step d = outside :=
        if_neg fun hquote => hquote.elim hname.1.1 hname.1.2
      rw [hstep] at htail
      obtain ⟨later, rfl, hhead⟩ := ih hname.2 htail
      exact ⟨later, rfl, hhead⟩

end Source.Quoting

namespace Check

open Practice

/-- The variable of an assignment in blanked code is one of the code, in the same place. -/
theorem AssignmentAt.exists_variable {code : List Char} (a : AssignmentAt (blankStrings code)) :
    ∃ v : VariableAt code, v.name = a.name ∧ byteLength v.before = byteLength a.before := by
  have hword : ∀ c ∈ a.name, c ≠ '\'' ∧ c ≠ '"' := by
    intro c hc
    have hc' := a.named.2 c hc
    constructor
    · rintro rfl
      exact absurd hc' (by decide)
    · rintro rfl
      exact absurd hc' (by decide)
  obtain ⟨before, text, hcode, hbefore, hkeeps, htext⟩ :=
    Quoting.exists_of_blank (by decide) a.code_eq
  obtain ⟨-, hstep⟩ := Quoting.eq_outside_of_keeps (Quoting.proper_outside.read before)
    (by decide) hkeeps
  rw [hstep] at htext
  obtain ⟨rest, rfl, hhead⟩ := Quoting.exists_of_blank_outside hword htext
  refine ⟨⟨before, a.name, rest, hcode, a.named.ne_nil, a.named.2, ?_⟩, rfl, ?_⟩
  · rw [hhead]
    exact a.name_ends
  · rw [← hbefore, Quoting.byteLength_blank Quoting.proper_outside]

/-! ## Candidates -/

/-- How often a name is used in a file. -/
def useCount (s : Subject) (name : List Char) : Nat :=
  (s.codeLines.flatMap usedNames).count name

/-- Is nothing said about the variable, whatever uses it? -/
def isSpared (s : Subject) (name : List Char) : Bool :=
  s.role.allowsProperty (String.ofList name) || beginsWith "_" name

/-- Does the file use variables by computed names? -/
def computesNames (s : Subject) : Bool :=
  mentions "extract(" s.content || mentions "$$" s.content

/-- The issue about a variable that nothing reads. -/
def unusedIssue (s : Subject) (name : List Char) (row : Nat) : Issue :=
  (s.report .quality "potential_unused_variable" .low row "Potentially unused variable"
    ("'$" ++ String.ofList name ++ "' is assigned but never read")
    "Remove the assignment or use the value").withMetadata "variable" (.str (String.ofList name))

/-- The issues about assignments to variables that are used once, before names that were reported
    are left out. -/
def candidates (s : Subject) : List (List Char × Issue) :=
  s.assignments.filterMap fun a =>
    if isSpared s a.name || 1 < useCount s a.name then none
    else some (a.name, unusedIssue s a.name a.row)

theorem unusedLocals_eq (s : Subject) :
    unusedLocals s = if computesNames s then [] else firstPerKey [] (candidates s) := rfl

theorem mem_candidates_iff {s : Subject} {name : List Char} {issue : Issue} :
    (name, issue) ∈ candidates s ↔ ∃ line ∈ s.codeLines, ReadOn name line ∧
      isSpared s name = false ∧ useCount s name ≤ 1 ∧ issue = unusedIssue s name line.row := by
  rw [candidates, List.mem_filterMap]
  constructor
  · rintro ⟨a, ha, hissue⟩
    obtain ⟨line, hline, hmem⟩ := List.mem_flatMap.mp ha
    split at hissue
    · cases hissue
    · rename_i htest
      cases hissue
      rw [Bool.or_eq_true, not_or, Bool.not_eq_true, decide_eq_true_eq, Nat.not_lt] at htest
      exact ⟨line, hline, mem_ofLine_iff.mp ⟨a, hmem, rfl⟩, htest.1, htest.2,
        by rw [row_of_mem_ofLine hmem]⟩
  · rintro ⟨line, hline, hread, hspared, hcount, rfl⟩
    obtain ⟨a, ha, rfl⟩ := mem_ofLine_iff.mpr hread
    refine ⟨a, List.mem_flatMap.mpr ⟨line, hline, ha⟩, ?_⟩
    rw [hspared, Bool.false_or, if_neg (by simpa using hcount), row_of_mem_ofLine ha]

theorem exists_variable_of_readOn {name : List Char} {line : SourceLine} (h : ReadOn name line) :
    ∃ v : VariableAt line.code, v.name = name := by
  obtain ⟨-, a, -, rfl⟩ := h
  obtain ⟨v, hname, -⟩ := a.exists_variable
  exact ⟨v, hname⟩

section Places

variable {s : Subject} (hs : s.IsNumbered)

include hs

/-- A variable in two places is used twice. -/
theorem one_lt_useCount {line other : SourceLine} (hline : line ∈ s.codeLines)
    (hother : other ∈ s.codeLines) (v : VariableAt line.code) (w : VariableAt other.code)
    (hname : w.name = v.name) (hapart : other ≠ line ∨ w.before ≠ v.before) :
    1 < useCount s v.name := by
  refine Nat.lt_of_not_le fun hcount => ?_
  obtain ⟨hsame, hbefore⟩ := ((count_used_le_one_iff hs hline v).mp hcount).1 other hother w hname
  exact hapart.elim (fun hne => hne hsame) fun hne => hne hbefore

/-- If a line assigns to a variable twice, then the variable is used twice. -/
theorem pairwise_ofLine {line : SourceLine} (hline : line ∈ s.codeLines) :
    (Assignment.ofLine line).Pairwise fun a b => a.name = b.name → 1 < useCount s a.name := by
  rw [Assignment.ofLine]
  split
  · exact .nil
  rw [List.pairwise_filterMap]
  refine (Pattern.pairwise_findAll isVisible_assignmentPattern line.bare).imp_of_mem ?_
  intro m m' hm hm' hle a ha b hb hname
  obtain ⟨place, -, hstart, _, _, hgroup⟩ := AssignmentAt.exists_of_mem hm
  obtain ⟨place', -, hstart', _, _, hgroup'⟩ := AssignmentAt.exists_of_mem hm'
  obtain ⟨v, hv, hbytes⟩ := place.exists_variable
  obtain ⟨w, hw, hbytes'⟩ := place'.exists_variable
  rw [hgroup] at ha
  rw [hgroup'] at hb
  cases ha
  cases hb
  have hnames : w.name = v.name := hw.trans (hname.symm.trans hv.symm)
  have hapart : w.before ≠ v.before := by
    intro hsame
    have hlt := Pattern.start_lt_stop isVisible_assignmentPattern hm
    rw [hsame] at hbytes'
    omega
  have hcount := one_lt_useCount hs hline hline v w hnames (.inr hapart)
  rwa [hv] at hcount

theorem pairwise_assignments :
    s.assignments.Pairwise fun a b => a.name = b.name → 1 < useCount s a.name := by
  rw [Subject.assignments, List.pairwise_flatMap]
  refine ⟨fun line hline => pairwise_ofLine hs hline, ?_⟩
  refine (List.pairwise_map.mp hs.nodup_rows).imp_of_mem ?_
  intro line other hline hother hrows a ha b hb hname
  obtain ⟨v, hv⟩ := exists_variable_of_readOn (mem_ofLine_iff.mp ⟨a, ha, rfl⟩)
  obtain ⟨w, hw⟩ := exists_variable_of_readOn (mem_ofLine_iff.mp ⟨b, hb, rfl⟩)
  have hapart : other ≠ line := fun hsame => hrows (by rw [hsame])
  have hcount := one_lt_useCount hs hline hother v w (hw.trans (hname.symm.trans hv.symm))
    (.inl hapart)
  rwa [hv] at hcount

/-- Candidates have different names. -/
theorem nodup_candidates : ((candidates s).map Prod.fst).Nodup := by
  rw [List.Nodup, List.pairwise_map, candidates, List.pairwise_filterMap]
  refine (pairwise_assignments hs).imp ?_
  intro a b htwice pair hpair pair' hpair' hsame
  split at hpair
  · cases hpair
  · rename_i htest
    split at hpair'
    · cases hpair'
    · cases hpair
      cases hpair'
      exact htest (by simp [htwice hsame])

/-- No candidate is left out. -/
theorem firstPerKey_candidates :
    firstPerKey [] (candidates s) = (candidates s).map Prod.snd :=
  firstPerKey_eq_map (nodup_candidates hs) fun _ _ => List.not_mem_nil

/-- The names can be read off the issues, so that these are about different variables. -/
theorem nodup_variableOf? : (((candidates s).map Prod.snd).map variableOf?).Nodup := by
  have hnames : ((candidates s).map Prod.snd).map variableOf? =
      ((candidates s).map Prod.fst).map fun name => some (String.ofList name) := by
    rw [List.map_map, List.map_map]
    refine List.map_congr_left fun pair hpair => ?_
    obtain ⟨line, -, -, -, -, hissue⟩ := mem_candidates_iff.mp hpair
    rw [Function.comp_apply, hissue]
    rfl
  rw [hnames, List.Nodup, List.pairwise_map]
  refine (nodup_candidates hs).imp fun hne hsame => hne ?_
  exact String.ofList_injective (Option.some.inj hsame)

/-- What is reported about local variables. -/
theorem unusedLocals_eq_map :
    unusedLocals s = if computesNames s then [] else (candidates s).map Prod.snd := by
  rw [unusedLocals_eq, firstPerKey_candidates hs]

/-- An assignment to a variable that is used once is reported. -/
theorem mem_unusedLocals (hnames : computesNames s = false) {line : SourceLine}
    (hline : line ∈ s.codeLines) {name : List Char} (hread : ReadOn name line)
    (hspared : isSpared s name = false) (hcount : useCount s name ≤ 1) :
    unusedIssue s name line.row ∈ unusedLocals s := by
  rw [unusedLocals_eq_map hs, hnames]
  exact List.mem_map.mpr ⟨(name, _),
    mem_candidates_iff.mpr ⟨line, hline, hread, hspared, hcount, rfl⟩, rfl⟩

end Places

/-- Is the line the only one of the file with the variable, and does it have the variable once? -/
def OccursOnce (s : Subject) (line : SourceLine) (name : List Char) : Prop :=
  ∃ v : VariableAt line.code, v.name = name ∧ ∀ other ∈ s.codeLines,
    ∀ w : VariableAt other.code, w.name = name → other = line ∧ w.before = v.before

/-- Whether a variable of a line is used once. -/
theorem useCount_le_one_iff {s : Subject} (hs : s.IsNumbered) {line : SourceLine}
    (hline : line ∈ s.codeLines) (v : VariableAt line.code) :
    useCount s v.name ≤ 1 ↔
      OccursOnce s line v.name ∧ ∀ other ∈ s.codeLines, v.name ∉ takenNames other.code := by
  rw [useCount, count_used_le_one_iff hs hline]
  refine and_congr_left fun _ => ⟨fun hsame => ⟨v, rfl, hsame⟩, ?_⟩
  rintro ⟨v', hv', hsame⟩ other hother w hw
  obtain ⟨hline', hbefore⟩ := hsame other hother w hw
  exact ⟨hline', hbefore.trans (hsame line hline v rfl).2.symm⟩

end Check

open Check Check.Practice in
/-- Each local variable that is reported is assigned on the line of the report and stands nowhere
    else in the code of the file, in strings or outside. No call of `compact` names it before the
    first closing parenthesis, unless a word stands right before the quote. No name is reported
    twice, and none is left out because it was reported before. Unless the file computes names of
    variables, an assignment is reported if its variable stands nowhere else, is not spared, and no
    call names it before the first closing parenthesis. -/
theorem unused_local_occurs_once (path : String) (source : ParsedSource) (role : Role)
    (radius : Nat) :
    (∀ issue ∈ unusedLocals (.ofSource path source role radius),
      ∃ line ∈ (Subject.ofSource path source role radius).codeLines, ∃ name,
        issue = unusedIssue (.ofSource path source role radius) name line.row ∧
        issue.line = line.row ∧ ReadOn name line ∧
        OccursOnce (.ofSource path source role radius) line name ∧
        ∀ other ∈ (Subject.ofSource path source role radius).codeLines,
          ∀ use : CompactUse other.code name, use.IsWithin → ¬ use.IsApart) ∧
    ((unusedLocals (.ofSource path source role radius)).map variableOf?).Nodup ∧
    (unusedLocals (.ofSource path source role radius) =
      if computesNames (.ofSource path source role radius) then []
      else (candidates (.ofSource path source role radius)).map Prod.snd) ∧
    (computesNames (.ofSource path source role radius) = false →
      ∀ line ∈ (Subject.ofSource path source role radius).codeLines, ∀ name, ReadOn name line →
        isSpared (.ofSource path source role radius) name = false →
        OccursOnce (.ofSource path source role radius) line name →
        (∀ other ∈ (Subject.ofSource path source role radius).codeLines,
          ∀ use : CompactUse other.code name, ¬ use.IsWithin) →
        unusedIssue (.ofSource path source role radius) name line.row ∈
          unusedLocals (.ofSource path source role radius)) := by
  have hs := Subject.isNumbered_ofSource path source role radius
  generalize Subject.ofSource path source role radius = s at hs ⊢
  have hall := unusedLocals_eq_map hs
  refine ⟨fun issue hissue => ?_, ?_, hall, ?_⟩
  · rw [hall] at hissue
    split at hissue
    · cases hissue
    obtain ⟨⟨name, _⟩, hpair, rfl⟩ := List.mem_map.mp hissue
    obtain ⟨line, hline, hread, -, hcount, rfl⟩ := mem_candidates_iff.mp hpair
    obtain ⟨v, rfl⟩ := exists_variable_of_readOn hread
    obtain ⟨honce, hfree⟩ := (useCount_le_one_iff hs hline v).mp hcount
    refine ⟨line, hline, v.name, rfl, Nat.max_eq_left (hs.one_le_row hline), hread, honce, ?_⟩
    exact fun other hother use hwithin hapart =>
      hfree other hother (use.mem_takenNames hwithin hapart v.named v.chars)
  · rw [hall]
    split
    · exact .nil
    · exact nodup_variableOf? hs
  · intro hnames line hline name hread hspared honce hfree
    obtain ⟨v, rfl⟩ := exists_variable_of_readOn hread
    have hcount : useCount s v.name ≤ 1 := by
      refine (useCount_le_one_iff hs hline v).mpr ⟨honce, fun other hother htaken => ?_⟩
      obtain ⟨use, hwithin⟩ := CompactUse.exists_of_mem htaken
      exact hfree other hother use hwithin
    exact mem_unusedLocals hs hnames hline hread hspared hcount

/-- A line that assigns to a variable. -/
def assigningLine : SourceLine := ⟨1, "$b = 1;".toList, false⟩

open Check in
theorem readOn_assigningLine : ReadOn ['b'] assigningLine :=
  ⟨by decide +kernel, ⟨[], ['b'], [' '], " 1;".toList, by decide, by decide,
    List.all_eq_true.mp (by decide), by rintro c ⟨⟩; decide⟩, ⟨0, chained_nil, rfl⟩, rfl⟩

/-- A file with such a line only. -/
def assigningFile : Subject :=
  .ofSource "app/A.php" ⟨.php, assigningLine.text, none, none⟩ .plain 0

open Check Check.Practice in
/-- The variable is reported, and it occurs once. -/
theorem lone_assignment_reported :
    unusedIssue assigningFile ['b'] 1 ∈ unusedLocals assigningFile ∧
      ∃ line ∈ assigningFile.codeLines, ∃ name, OccursOnce assigningFile line name := by
  have hissue : unusedIssue assigningFile ['b'] 1 ∈ unusedLocals assigningFile :=
    mem_unusedLocals (Subject.isNumbered_ofSource _ _ _ _) (by decide +kernel)
      (List.mem_singleton.mpr rfl) readOn_assigningLine (by decide +kernel) (by decide +kernel)
  obtain ⟨line, hline, name, -, -, -, honce, -⟩ := (unused_local_occurs_once "app/A.php"
    ⟨.php, assigningLine.text, none, none⟩ .plain 0).1 _ hissue
  exact ⟨hissue, line, hline, name, honce⟩

/-- A line with a call that names the variable behind the parenthesis of another call. -/
def nestingLine : SourceLine := ⟨2, "f(compact(array('a'), 'b'));".toList, false⟩

/-- A file with both lines. -/
def nestingFile : Subject :=
  .ofSource "app/Support/A.php"
    ⟨.php, assigningLine.text ++ '\n' :: (nestingLine.text ++ ['\n']), none, none⟩ .plain 0

open Check Check.Practice in
/-- The variable is reported, although a call of `compact` names it. -/
theorem name_behind_parenthesis_unseen :
    nestingLine ∈ nestingFile.codeLines ∧
      (∃ use : CompactUse nestingLine.code ['b'], use.args = "array('a'), ".toList) ∧
      unusedIssue nestingFile ['b'] 1 ∈ unusedLocals nestingFile := by
  have hline : nestingLine ∈ nestingFile.codeLines := by
    have hmem : (2, nestingLine.text, false) ∈
        nestingFile.codeLines.map fun line => (line.row, line.text, line.isComment) := by
      decide +kernel
    obtain ⟨⟨row, text, isComment⟩, hline, hsame⟩ := List.mem_map.mp hmem
    cases hsame
    exact hline
  refine ⟨hline, ⟨⟨"f(".toList, [], "array('a'), ".toList, '\'', '\'', "));".toList,
    by decide, by decide, List.forall_mem_nil _, .inl rfl, .inl rfl⟩, rfl⟩, ?_⟩
  exact mem_unusedLocals (Subject.isNumbered_ofSource _ _ _ _) (by decide +kernel) (.head _)
    readOn_assigningLine (by decide +kernel) (by decide +kernel)

end CodeAudit
