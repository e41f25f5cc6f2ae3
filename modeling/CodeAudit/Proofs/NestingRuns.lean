import CodeAudit.Proofs.ReportedLines

/-!
# Runs of lines that are nested too deep

The check of complexity goes through the lines of a file, passes over those that are blank or
comment, and remembers whether the last of the others was nested too deep. It reports a line that
is, if the one before was not. So there is one issue for each run of such lines that cannot be made
longer, at its first line. Blank lines and comment neither end a run nor begin one. The suite runs
the check on program texts only, and the results below hold of the check on any file.

Results:
* `deepRunStarts_eq_runStarts`: passing over blank lines and comment is leaving them out first.
* `mem_runStarts_iff`: the lines at which the check begins a run.
* `startsRun_iff_head`: they are the first lines of the longest runs.
* `getLast?_eq_some_iff_precedes`: the line before a line, by the numbers of lines.
* `IsLongestRun.row_of_startsRun`: no run starts inside another.
* `deep_runs_reported`: the lines of a file that are reported.
-/

namespace CodeAudit

open Text Source SyntaxTree

deriving instance DecidableEq for SourceLine

namespace Check.Complexity

/-! ## Runs -/

/-- Is the line nested deeper than is accepted? -/
def isDeep (line : SourceLine) : Bool := decide (maxNesting < nesting line)

/-- The first line of every run of lines that are nested too deep, of lines that all count. -/
def runStarts (inRun : Bool) : List SourceLine → List SourceLine
  | [] => []
  | line :: rest =>
    (if isDeep line && !inRun then [line] else []) ++ runStarts (isDeep line) rest

/-- A line of a list that is nested too deep while the line before it is not. `inRun` tells about
    the line before the list. -/
def StartsRun (inRun : Bool) (lines : List SourceLine) (line : SourceLine) : Prop :=
  isDeep line = true ∧ ∃ above below, lines = above ++ line :: below ∧
    (above.getLast?.map isDeep).getD inRun = false

/-- A run of lines of a list that are all nested too deep, and that cannot be made longer: the lines
    right above and right below it are not. -/
def IsLongestRun (lines block : List SourceLine) : Prop :=
  block ≠ [] ∧ (∀ line ∈ block, isDeep line = true) ∧ ∃ above below,
    lines = above ++ (block ++ below) ∧ (∀ last ∈ above.getLast?, isDeep last = false) ∧
      ∀ next ∈ below.head?, isDeep next = false

section Runs

variable {inRun : Bool} {first line : SourceLine} {lines rest : List SourceLine}

/-- What is known about the line before the rest of a list is what its first line shows. -/
theorem startsRun_cons : StartsRun inRun (first :: rest) line ↔
    (line = first ∧ isDeep first = true ∧ inRun = false) ∨
      StartsRun (isDeep first) rest line := by
  have hlast : ∀ above : List SourceLine, ((first :: above).getLast?.map isDeep).getD inRun =
      (above.getLast?.map isDeep).getD (isDeep first) := by
    intro above
    rw [List.getLast?_cons]
    cases above.getLast? <;> rfl
  constructor
  · rintro ⟨hdeep, above, below, hlines, hbefore⟩
    cases above with
    | nil =>
      obtain ⟨rfl, rfl⟩ := List.cons.inj hlines
      exact .inl ⟨rfl, hdeep, hbefore⟩
    | cons top above =>
      obtain ⟨rfl, rfl⟩ := List.cons.inj hlines
      exact .inr ⟨hdeep, above, below, rfl, by rwa [hlast] at hbefore⟩
  · rintro (⟨rfl, hdeep, hbefore⟩ | ⟨hdeep, above, below, rfl, hbefore⟩)
    · exact ⟨hdeep, [], rest, rfl, hbefore⟩
    · exact ⟨hdeep, first :: above, below, rfl, by rwa [hlast]⟩

/-- The lines at which the check begins a run. -/
theorem mem_runStarts_iff : line ∈ runStarts inRun lines ↔ StartsRun inRun lines line := by
  induction lines generalizing inRun with
  | nil =>
    refine iff_of_false List.not_mem_nil ?_
    rintro ⟨-, above, below, hlines, -⟩
    exact List.append_ne_nil_of_right_ne_nil _ (List.cons_ne_nil _ _) hlines.symm
  | cons first rest ih =>
    rw [runStarts, startsRun_cons, List.mem_append, ih]
    refine or_congr_left ?_
    cases inRun <;> cases isDeep first <;> simp

theorem runStarts_sublist : (runStarts inRun lines).Sublist lines := by
  induction lines generalizing inRun with
  | nil => exact List.Sublist.refl _
  | cons first rest ih =>
    rw [runStarts]
    split
    · exact ih.cons_cons first
    · exact ih.cons first

/-- A line starts a run exactly if it is the first line of a longest one. -/
theorem startsRun_iff_head :
    StartsRun false lines line ↔ ∃ block, IsLongestRun lines block ∧ block.head? = some line := by
  have hbefore : ∀ above : List SourceLine, (above.getLast?.map isDeep).getD false = false ↔
      ∀ last ∈ above.getLast?, isDeep last = false := by
    intro above
    cases above.getLast? <;> simp
  constructor
  · rintro ⟨hdeep, above, below, rfl, habove⟩
    refine ⟨line :: below.takeWhile isDeep, ⟨List.cons_ne_nil _ _, ?_, above,
      below.dropWhile isDeep, ?_, (hbefore above).mp habove, ?_⟩, rfl⟩
    · intro other hother
      rcases List.mem_cons.mp hother with rfl | hother
      · exact hdeep
      · exact List.all_eq_true.mp List.all_takeWhile other hother
    · rw [List.cons_append, List.takeWhile_append_dropWhile]
    · intro next hnext
      have hnot := List.head?_dropWhile_not isDeep below
      rw [hnext] at hnot
      exact hnot
  · rintro ⟨block, ⟨-, hblock, above, below, rfl, habove, -⟩, hhead⟩
    obtain ⟨rest, rfl⟩ := List.head?_eq_some_iff.mp hhead
    exact ⟨hblock line List.mem_cons_self, above, rest ++ below, rfl, (hbefore above).mpr habove⟩

end Runs

/-! ## Lines that are neither blank nor comment -/

/-- Is the line neither blank nor comment? -/
def isPlain (line : SourceLine) : Bool := !isBlankLine line.text && !line.isComment

/-- The lines of a file that are neither blank nor comment. -/
def plainLines (s : Subject) : List SourceLine := s.lines.filter isPlain

/-- The lines at which the check begins a run are those at which one begins when blank lines and
    comment are left out first. -/
theorem deepRunStarts_eq_runStarts (inRun : Bool) (lines : List SourceLine) :
    deepRunStarts inRun lines = runStarts inRun (lines.filter isPlain) := by
  fun_induction deepRunStarts inRun lines with
  | case1 => rfl
  | case2 inRun line rest hblank ih =>
    rw [List.filter_cons_of_neg (by simp [isPlain, hblank]), ih]
  | case3 inRun line rest hblank hcomment ih =>
    rw [List.filter_cons_of_neg (by simp [isPlain, hcomment]), ih]
  | case4 inRun line rest hblank hcomment hnesting ih =>
    have hdeep : isDeep line = false := decide_eq_false (by omega)
    rw [List.filter_cons_of_pos (by simp [isPlain, hblank, hcomment]), runStarts, hdeep, ih]
    rfl
  | case5 line rest hblank hcomment hnesting ih =>
    have hdeep : isDeep line = true := decide_eq_true (by omega)
    rw [List.filter_cons_of_pos (by simp [isPlain, hblank, hcomment]), runStarts, hdeep, ih]
    rfl
  | case6 inRun line rest hblank hcomment hnesting hrun ih =>
    have hdeep : isDeep line = true := decide_eq_true (by omega)
    rw [List.filter_cons_of_pos (by simp [isPlain, hblank, hcomment]), runStarts, hdeep, ih,
      Bool.eq_false_iff.mpr hrun]
    rfl

/-- `previous` is the last line above a line of the file that is neither blank nor comment. -/
def Precedes (lines : List SourceLine) (previous line : SourceLine) : Prop :=
  previous ∈ lines ∧ isPlain previous = true ∧ previous.row < line.row ∧
    ∀ between ∈ lines, previous.row < between.row → between.row < line.row →
      isPlain between = false

section Plain

variable {lines above below : List SourceLine} {line previous : SourceLine}

/-- The last of lines in the order of their numbers has the greatest number. -/
theorem getLast?_eq_some_iff_greatest
    (habove : above.Pairwise fun line below => line.row < below.row) :
    above.getLast? = some previous ↔
      previous ∈ above ∧ ∀ other ∈ above, other.row ≤ previous.row := by
  cases hlast : above.getLast? with
  | none =>
    rw [List.getLast?_eq_none_iff.mp hlast]
    simp
  | some last =>
    obtain ⟨top, rfl⟩ := List.getLast?_eq_some_iff.mp hlast
    have htop : ∀ other ∈ top, other.row < last.row := fun other hother =>
      (List.pairwise_append.mp habove).2.2 other hother last List.mem_cons_self
    simp only [List.mem_append, List.mem_singleton, Option.some.injEq]
    constructor
    · rintro rfl
      refine ⟨.inr rfl, fun other hother => ?_⟩
      rcases hother with hother | rfl
      · exact (htop other hother).le
      · exact le_rfl
    · rintro ⟨hprevious | rfl, hgreatest⟩
      · have := htop previous hprevious
        have := hgreatest last (.inr rfl)
        omega
      · rfl

/-- The lines above a line are those with a smaller number. -/
theorem mem_above_iff
    (hlines : (above ++ line :: below).Pairwise fun line below => line.row < below.row)
    {other : SourceLine} :
    other ∈ above ↔ other ∈ above ++ line :: below ∧ other.row < line.row := by
  obtain ⟨-, hbelow, hacross⟩ := List.pairwise_append.mp hlines
  constructor
  · intro hother
    exact ⟨List.mem_append_left _ hother, hacross other hother line List.mem_cons_self⟩
  · rintro ⟨hother, hrow⟩
    rcases List.mem_append.mp hother with hother | hother
    · exact hother
    rcases List.mem_cons.mp hother with rfl | hother
    · omega
    · have := (List.pairwise_cons.mp hbelow).1 other hother
      omega

variable (hlines : lines.Pairwise fun line below => line.row < below.row)

include hlines

/-- The line before a line among the plain ones, by the numbers of lines. -/
theorem getLast?_eq_some_iff_precedes
    (hplain : lines.filter isPlain = above ++ line :: below) :
    above.getLast? = some previous ↔ Precedes lines previous line := by
  have hsorted := hlines.filter isPlain
  rw [hplain] at hsorted
  have hmem : ∀ other, other ∈ above ↔
      (other ∈ lines ∧ isPlain other = true) ∧ other.row < line.row := by
    intro other
    rw [mem_above_iff hsorted, ← hplain, List.mem_filter]
  rw [getLast?_eq_some_iff_greatest (List.pairwise_append.mp hsorted).1, hmem, Precedes]
  constructor
  · rintro ⟨⟨⟨hfile, hkind⟩, hrow⟩, hgreatest⟩
    refine ⟨hfile, hkind, hrow, fun between hbetween hafter hbefore => ?_⟩
    refine Bool.eq_false_iff.mpr fun hplainToo => ?_
    have := hgreatest between ((hmem between).mpr ⟨⟨hbetween, hplainToo⟩, hbefore⟩)
    omega
  · rintro ⟨hfile, hkind, hrow, hnone⟩
    refine ⟨⟨⟨hfile, hkind⟩, hrow⟩, fun other hother => ?_⟩
    obtain ⟨⟨hotherFile, hotherKind⟩, hotherRow⟩ := (hmem other).mp hother
    by_contra hafter
    have hnot := hnone other hotherFile (by omega) hotherRow
    rw [hotherKind] at hnot
    cases hnot

/-- A line starts a run of plain lines exactly if it is plain and nested too deep, and the plain
    line before it is not. -/
theorem startsRun_filter_iff (hline : line ∈ lines) :
    StartsRun false (lines.filter isPlain) line ↔
      isPlain line = true ∧ isDeep line = true ∧
        ∀ previous, Precedes lines previous line → isDeep previous = false := by
  constructor
  · rintro ⟨hdeep, above, below, hplain, habove⟩
    have hin : line ∈ lines.filter isPlain := by
      rw [hplain]
      exact List.mem_append_right _ List.mem_cons_self
    refine ⟨(List.mem_filter.mp hin).2, hdeep, fun previous hprevious => ?_⟩
    rw [(getLast?_eq_some_iff_precedes hlines hplain).mpr hprevious] at habove
    exact habove
  · rintro ⟨hkind, hdeep, hbefore⟩
    obtain ⟨above, below, hplain⟩ := List.append_of_mem (List.mem_filter.mpr ⟨hline, hkind⟩)
    refine ⟨hdeep, above, below, hplain, ?_⟩
    cases hlast : above.getLast? with
    | none => rfl
    | some previous =>
      exact hbefore previous ((getLast?_eq_some_iff_precedes hlines hplain).mp hlast)

/-- No run starts between the first and the last line of another, whatever lies there. -/
theorem IsLongestRun.row_of_startsRun {block : List SourceLine}
    (hblock : IsLongestRun (lines.filter isPlain) block) {first last : SourceLine}
    (hfirst : block.head? = some first) (hlast : block.getLast? = some last)
    (hstarts : StartsRun false (lines.filter isPlain) line) (hafter : first.row < line.row) :
    last.row < line.row := by
  obtain ⟨-, hdeep, above, below, hplain, -, -⟩ := hblock
  have hin : line ∈ lines.filter isPlain := runStarts_sublist.subset (mem_runStarts_iff.mpr hstarts)
  have hsorted := hlines.filter isPlain
  rw [hplain] at hin hsorted
  obtain ⟨-, hrest, hacross⟩ := List.pairwise_append.mp hsorted
  rcases List.mem_append.mp hin with habove | hin
  · have := hacross line habove first (List.mem_append_left _ (List.mem_of_head? hfirst))
    omega
  rcases List.mem_append.mp hin with hinside | hbelow
  · obtain ⟨rest, rfl⟩ := List.head?_eq_some_iff.mp hfirst
    rcases List.mem_cons.mp hinside with rfl | hinside
    · omega
    -- The line above it in the run is nested too deep as well.
    obtain ⟨upper, lower, rfl⟩ := List.append_of_mem hinside
    have hfile : line ∈ lines := by
      have := List.mem_append_right above hin
      rw [← hplain] at this
      exact (List.mem_filter.mp this).1
    have hbefore := ((startsRun_filter_iff hlines hfile).mp hstarts).2.2
    have hsplit : lines.filter isPlain = (above ++ first :: upper) ++ line :: (lower ++ below) := by
      simp [hplain]
    have hprevious : (above ++ first :: upper).getLast? =
        some ((first :: upper).getLast (List.cons_ne_nil _ _)) := by
      rw [List.getLast?_append_of_ne_nil _ (List.cons_ne_nil _ _),
        List.getLast?_eq_getLast_of_ne_nil]
    have hnot := hbefore _ ((getLast?_eq_some_iff_precedes hlines hsplit).mp hprevious)
    have hyes := hdeep ((first :: upper).getLast (List.cons_ne_nil _ _))
      (List.mem_append_left (line :: lower) (List.getLast_mem _))
    rw [hyes] at hnot
    cases hnot
  · exact (List.pairwise_append.mp hrest).2.2 last (List.mem_of_getLast? hlast) line hbelow

end Plain

/-! ## What is reported -/

section Reported

variable (s : Subject)

theorem ruleName_deepNesting :
    ∀ issue ∈ deepNesting s, issue.ruleName = Rule.deepNesting.name := by
  intro issue hissue
  obtain ⟨line, -, rfl⟩ := List.mem_map.mp hissue
  rfl

theorem ruleName_busyConditions :
    ∀ issue ∈ busyConditions s, issue.ruleName = Rule.complexConditional.name := by
  intro issue hissue
  obtain ⟨line, -, hline⟩ := List.mem_filterMap.mp hissue
  dsimp only at hline
  split at hline
  · cases hline
  · cases hline
    rfl

theorem ruleName_longParameters :
    ∀ issue ∈ longParameters s, issue.ruleName = Rule.longParameterList.name := by
  intro issue hissue
  obtain ⟨line, -, hline⟩ := List.mem_filterMap.mp hissue
  obtain ⟨found, -, hfound⟩ := Option.bind_eq_some_iff.mp hline
  dsimp only at hfound
  split at hfound
  · cases hfound
  · cases hfound
    rfl

theorem ruleName_functionIssues (node : Node) : ∀ issue ∈ functionIssues s node,
    issue.ruleName = Rule.highCyclomaticComplexity.name ∨
      issue.ruleName = Rule.longMethod.name := by
  intro issue hissue
  rw [functionIssues] at hissue
  rcases List.mem_append.mp hissue with hbranching | hsize
  · split at hbranching
    · cases hbranching
    · rw [List.mem_singleton.mp hbranching]
      exact .inl rfl
  · split at hsize
    · cases hsize
    · dsimp only at hsize
      split at hsize
      · cases hsize
      · rw [List.mem_singleton.mp hsize]
        exact .inr rfl

theorem among_deepNesting : Rule.deepNesting.among (run s) = deepNesting s := by
  have hfunctions : Rule.deepNesting.among (functions s) = [] := by
    rw [functions]
    split
    · rfl
    · rw [Rule.among_flatMap, List.flatMap_eq_nil_iff]
      intro node _
      rw [Rule.among, List.filter_eq_nil_iff]
      intro issue hissue
      rcases ruleName_functionIssues s node issue hissue with hname | hname <;>
        rw [hname] <;> decide
  rw [run, Rule.among_append, Rule.among_append, Rule.among_append, hfunctions,
    Rule.among_of_forall (ruleName_deepNesting s),
    Rule.among_of_other (by decide) (ruleName_busyConditions s),
    Rule.among_of_other (by decide) (ruleName_longParameters s)]
  simp only [List.append_nil]

variable {s}

/-- The issues stand on the lines at which a run of plain lines starts. -/
theorem map_line_deepNesting (hs : s.IsNumbered) :
    (deepNesting s).map Issue.line = (runStarts false (plainLines s)).map SourceLine.row := by
  rw [deepNesting, deepRunStarts_eq_runStarts, List.map_map]
  refine List.map_congr_left fun line hline => ?_
  have hfile := (List.mem_filter.mp (runStarts_sublist.subset hline)).1
  rw [hs] at hfile
  exact Nat.max_eq_left (row_of_mem_number hfile).1

theorem reportedOn_iff_startsRun (hs : s.IsNumbered) {row : Nat} :
    Rule.deepNesting.ReportedOn (run s) row ↔
      ∃ line, StartsRun false (plainLines s) line ∧ line.row = row := by
  have hmem : Rule.deepNesting.ReportedOn (run s) row ↔
      row ∈ (deepNesting s).map Issue.line := by
    rw [Rule.ReportedOn, among_deepNesting, List.mem_map]
  rw [hmem, map_line_deepNesting hs, List.mem_map]
  simp only [mem_runStarts_iff]

end Reported

/-- The lines of a file that are reported for their nesting. They are the first lines of the longest
    runs of lines that are neither blank nor comment and that are nested too deep, each reported
    once. A line is such a line exactly if it is plain and nested too deep and the plain line before
    it is not. From the first line of a run to its last no other line is reported, so blank lines
    and comment neither split a run nor start one. -/
theorem deep_runs_reported (path : String) (source : ParsedSource) (role : Role) (radius : Nat) :
    ((Rule.deepNesting.among (run (.ofSource path source role radius))).map
      Issue.line).Pairwise (· < ·) ∧
    (∀ row, Rule.deepNesting.ReportedOn (run (.ofSource path source role radius)) row ↔
      ∃ block, IsLongestRun (plainLines (.ofSource path source role radius)) block ∧
        block.head?.map SourceLine.row = some row) ∧
    (∀ line ∈ (Subject.ofSource path source role radius).lines,
      (Rule.deepNesting.ReportedOn (run (.ofSource path source role radius)) line.row ↔
        isPlain line = true ∧ isDeep line = true ∧ ∀ previous,
          Precedes (Subject.ofSource path source role radius).lines previous line →
            isDeep previous = false)) ∧
    ∀ block, IsLongestRun (plainLines (.ofSource path source role radius)) block →
      ∀ first ∈ block.head?, ∀ last ∈ block.getLast?, ∀ row, first.row < row → row ≤ last.row →
        ¬ Rule.deepNesting.ReportedOn (run (.ofSource path source role radius)) row := by
  have hs := Subject.isNumbered_ofSource path source role radius
  have hrows := hs.pairwise_rows
  refine ⟨?once, fun row => ?runs, fun line hline => ?lines, ?inside⟩
  case once =>
    rw [among_deepNesting, map_line_deepNesting hs, List.pairwise_map]
    exact (hrows.filter isPlain).sublist runStarts_sublist
  case runs =>
    rw [reportedOn_iff_startsRun hs]
    simp only [startsRun_iff_head]
    constructor
    · rintro ⟨line, ⟨block, hblock, hhead⟩, rfl⟩
      exact ⟨block, hblock, by rw [hhead]; rfl⟩
    · rintro ⟨block, hblock, hhead⟩
      obtain ⟨line, hline, rfl⟩ := Option.map_eq_some_iff.mp hhead
      exact ⟨line, ⟨block, hblock, hline⟩, rfl⟩
  case lines =>
    rw [reportedOn_iff_startsRun hs, ← startsRun_filter_iff hrows hline]
    constructor
    · rintro ⟨other, hother, hrow⟩
      have hin := (List.mem_filter.mp (runStarts_sublist.subset (mem_runStarts_iff.mpr hother))).1
      rwa [← hs.eq_of_row hin hline hrow]
    · exact fun hstarts => ⟨line, hstarts, rfl⟩
  case inside =>
    intro block hblock first hfirst last hlast row hafter hbefore hreported
    obtain ⟨line, hstarts, rfl⟩ := (reportedOn_iff_startsRun hs).mp hreported
    have := IsLongestRun.row_of_startsRun hrows hblock hfirst hlast hstarts hafter
    omega

/-- A run of two lines, by spaces and by tabs, with a blank line and comment between them, and a run
    of one line behind a line that is not nested. -/
def interruptedRun : Subject :=
  .ofSource "app/A.php" ⟨.php, (String.intercalate "\n" ["<?php",
    "                            a();", "  ", "// b", "\t\t\t\t\t\t\tc();", "d();",
    "\t\t\t\t\t\t\te();"]).toList, none, none⟩ .plain 0

/-- The lines of the first run. -/
def interruptedBlock : List SourceLine :=
  [⟨2, "                            a();".toList, false⟩, ⟨5, "\t\t\t\t\t\t\tc();".toList, false⟩]

/-- The line of the second run. -/
def secondStart : SourceLine := ⟨7, "\t\t\t\t\t\t\te();".toList, false⟩

/-- The second line of a run is not reported, though a blank line and comment stand before it. The
    first lines of both runs are. -/
theorem deep_runs_reported_interrupted :
    IsLongestRun (plainLines interruptedRun) interruptedBlock ∧
    Rule.deepNesting.ReportedOn (run interruptedRun) 2 ∧
    (∀ row, 2 < row → row ≤ 5 → ¬ Rule.deepNesting.ReportedOn (run interruptedRun) row) ∧
    secondStart ∈ interruptedRun.lines ∧
    Rule.deepNesting.ReportedOn (run interruptedRun) 7 := by
  have hplain : plainLines interruptedRun = [⟨1, "<?php".toList, false⟩] ++ (interruptedBlock ++
      [⟨6, "d();".toList, false⟩, secondStart]) := by
    decide +kernel
  have hblock : IsLongestRun (plainLines interruptedRun) interruptedBlock :=
    ⟨List.cons_ne_nil _ _, by decide +kernel, _, _, hplain, by decide +kernel, by decide +kernel⟩
  have hsecond : secondStart ∈ plainLines interruptedRun := by
    rw [hplain]
    simp
  obtain ⟨hfile, hkind⟩ := List.mem_filter.mp hsecond
  obtain ⟨-, hruns, hlines, hinside⟩ := deep_runs_reported "app/A.php"
    ⟨.php, interruptedRun.content, none, none⟩ .plain 0
  refine ⟨hblock, (hruns 2).mpr ⟨_, hblock, rfl⟩, hinside _ hblock _ rfl _ rfl, hfile,
    (hlines secondStart hfile).mpr ⟨hkind, by decide +kernel, fun previous hprevious => ?_⟩⟩
  have hsplit : interruptedRun.lines.filter isPlain = ([⟨1, "<?php".toList, false⟩] ++
      interruptedBlock ++ [⟨6, "d();".toList, false⟩]) ++ secondStart :: [] := hplain
  have hrows := (Subject.isNumbered_ofSource "app/A.php" ⟨.php, interruptedRun.content, none, none⟩
    .plain 0).pairwise_rows
  have hbefore := (getLast?_eq_some_iff_precedes hrows hsplit).mpr hprevious
  cases hbefore
  decide +kernel

end Check.Complexity

end CodeAudit
