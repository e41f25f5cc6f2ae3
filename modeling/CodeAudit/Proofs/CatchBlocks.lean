import CodeAudit.Proofs.ShadowedCalls

/-!
# Catch clauses that discard what they catch

The check of catch clauses reads the code of a line, and if the block of a clause is not closed
there, the first visible lines below. A comment in the block counts as content if it stands on a
line of its own. A comment behind the open brace is part neither of the code of its line nor of the
lines below, so that it does not count.

Results:
* `fits_clauseHead`: what the pattern of the head of a clause describes.
* `CatchClause.Opens.not_ends`: a line of code ends with an open brace or with a head, not both.
* `isEmptyCatch_iff`: which clauses discard what they catch.
* `discarding_clause_reported_iff`: what is reported, and which comments count.
-/

namespace CodeAudit

open Text Source

/-! ## Visible lines -/

namespace Text

/-- Is the line the first visible one of the lines, with the others below it? -/
def FirstVisible (lines : List (List Char)) (line : List Char) (below : List (List Char)) : Prop :=
  ∃ blank, lines = blank ++ line :: below ∧ (∀ other ∈ blank, isBlankLine other = true) ∧
    isBlankLine line = false

theorem firstVisible_iff {lines : List (List Char)} {line : List Char}
    {below : List (List Char)} :
    FirstVisible lines line below ↔ lines.dropWhile isBlankLine = line :: below := by
  constructor
  · rintro ⟨blank, rfl, hblank, hline⟩
    rw [List.dropWhile_append_of_pos hblank, List.dropWhile_cons_of_neg (by simp [hline])]
  · intro h
    refine ⟨lines.takeWhile isBlankLine, ?_, ?_, ?_⟩
    · rw [← h, List.takeWhile_append_dropWhile]
    · exact fun other hother => List.mem_takeWhile_imp hother
    · have hhead := List.head?_dropWhile_not isBlankLine lines
      rw [h] at hhead
      simpa using hhead

/-- The first visible line is one. -/
theorem FirstVisible.unique {lines : List (List Char)} {line line' : List Char}
    {below below' : List (List Char)} (h : FirstVisible lines line below)
    (h' : FirstVisible lines line' below') : line = line' ∧ below = below' := by
  rw [firstVisible_iff] at h h'
  exact List.cons_eq_cons.mp (h.symm.trans h')

/-- What is the last visible character of a text? -/
theorem getLast?_trimEnd {front blank : List Char} {c : Char} (hc : isBlank c = false)
    (hblank : ∀ x ∈ blank, isBlank x = true) :
    (trimEnd (front ++ c :: blank)).getLast? = some c := by
  have hreverse : ∀ x ∈ blank.reverse, isBlank x = true := by simpa using hblank
  rw [trimEnd, List.reverse_append, List.reverse_cons, List.append_assoc,
    List.dropWhile_append_of_pos hreverse]
  simp [hc]

end Text

namespace Check

/-! ## Clauses -/

/-- Is the text the head of a catch clause, from its keyword to its closing parenthesis? -/
def IsCatchHead (head : List Char) : Prop :=
  ∃ space caught, (∀ c ∈ space, isBlank c = true) ∧ ')' ∉ caught ∧
    head = "catch".toList ++ (space ++ '(' :: (caught ++ [')']))

/-- A catch clause in a line of code: what stands before it, its head, and what follows. -/
structure CatchClause (code : List Char) where
  before : List Char
  head : List Char
  rest : List Char
  code_eq : code = before ++ (head ++ rest)
  starts : before.getLast?.any isWord = false
  isHead : IsCatchHead head

namespace CatchClause

variable {code : List Char}

/-- Is the block of the clause empty, on the line itself? -/
def IsEmpty (clause : CatchClause code) : Prop :=
  ∃ space gap later, (∀ c ∈ space ++ gap, isBlank c = true) ∧
    clause.rest = space ++ '\x7b' :: (gap ++ '\x7d' :: later)

/-- Does the line of code end with the open brace of the clause? -/
def Opens (clause : CatchClause code) : Prop :=
  ∃ space gap, (∀ c ∈ space ++ gap, isBlank c = true) ∧ clause.rest = space ++ '\x7b' :: gap

/-- Does the line of code end with the head of the clause? -/
def Ends (clause : CatchClause code) : Prop :=
  ∀ c ∈ clause.rest, isBlank c = true

theorem Opens.getLast? {clause : CatchClause code} (h : clause.Opens) :
    (trimEnd code).getLast? = some '\x7b' := by
  obtain ⟨space, gap, hblank, hrest⟩ := h
  have hcode : code = (clause.before ++ (clause.head ++ space)) ++ '\x7b' :: gap := by
    conv => lhs; rw [clause.code_eq, hrest]
    simp
  rw [hcode]
  exact getLast?_trimEnd (by decide) (List.forall_mem_append.mp hblank).2

theorem Ends.getLast? {clause : CatchClause code} (h : clause.Ends) :
    (trimEnd code).getLast? = some ')' := by
  obtain ⟨space, caught, -, -, hhead⟩ := clause.isHead
  have hcode : code = (clause.before ++ ("catch".toList ++ (space ++ '(' :: caught))) ++
      ')' :: clause.rest := by
    conv => lhs; rw [clause.code_eq, hhead]
    simp
  rw [hcode]
  exact getLast?_trimEnd (by decide) h

/-- A line of code ends with an open brace or with a head, not with both. -/
theorem Opens.not_ends {clause other : CatchClause code} (h : clause.Opens) : ¬ other.Ends := by
  intro h'
  have hlast := h.getLast?.symm.trans h'.getLast?
  exact absurd hlast (by decide)

end CatchClause

/-! ## Patterns -/

/-- The pattern of the head of a clause. -/
def clauseHead : Pattern :=
  callOf (.lit "catch") ++ .many (.noneOf ")") ++ .char ')'

/-- What the pattern of the head of a clause describes. -/
theorem fits_clauseHead {previous : Option Char} {stretch rest : List Char} :
    clauseHead.Fits previous stretch rest ↔
      previous.any isWord = false ∧ IsCatchHead stretch :=
  fits_closedCall (by decide)

open Practice

/-- What the pattern of a clause with an empty block describes. -/
theorem fits_emptyCatch {previous : Option Char} {stretch rest : List Char} :
    emptyCatch.Fits previous stretch rest ↔
      previous.any isWord = false ∧ ∃ head space gap, IsCatchHead head ∧
        (∀ c ∈ space ++ gap, isBlank c = true) ∧
          stretch = head ++ (space ++ '\x7b' :: (gap ++ ['\x7d'])) := by
  have hassoc : emptyCatch.Fits previous stretch rest ↔
      (clauseHead ++ (.blanks ++ (.char '\x7b' ++ (.blanks ++ .char '\x7d')))).Fits previous stretch
        rest := by
    simp only [← Pattern.fits_seq_assoc]
    exact Iff.rfl
  rw [hassoc]
  constructor
  · rintro ⟨head, _, rfl, hhead, space, _, rfl, hspace, brace, _, rfl, hbrace, gap, last, rfl, hgap,
      hlast⟩
    obtain ⟨hprevious, hisHead⟩ := fits_clauseHead.mp hhead
    rw [Pattern.fits_char] at hbrace hlast
    rw [Pattern.fits_blanks] at hspace hgap
    subst hbrace hlast
    exact ⟨hprevious, head, space, gap, hisHead, List.forall_mem_append.mpr ⟨hspace, hgap⟩, rfl⟩
  · rintro ⟨hprevious, head, space, gap, hhead, hblank, rfl⟩
    rw [List.forall_mem_append] at hblank
    exact ⟨head, _, rfl, fits_clauseHead.mpr ⟨hprevious, hhead⟩, space, _, rfl,
      Pattern.fits_blanks.mpr hblank.1, ['\x7b'], _, rfl, Pattern.fits_char.mpr rfl, gap, _, rfl,
      Pattern.fits_blanks.mpr hblank.2, Pattern.fits_char.mpr rfl⟩

/-- Which lines hold a clause with an empty block. -/
theorem isIn_emptyCatch_iff {code : List Char} :
    emptyCatch.isIn code = true ↔ ∃ clause : CatchClause code, clause.IsEmpty := by
  rw [Pattern.isIn_iff]
  constructor
  · rintro ⟨before, stretch, rest, rfl, hfits⟩
    obtain ⟨hstarts, head, space, gap, hhead, hblank, rfl⟩ := fits_emptyCatch.mp hfits
    exact ⟨⟨before, head, space ++ '\x7b' :: (gap ++ '\x7d' :: rest), by simp, hstarts, hhead⟩,
      space, gap, rest, hblank, rfl⟩
  · rintro ⟨clause, space, gap, later, hblank, hrest⟩
    refine ⟨clause.before, clause.head ++ (space ++ '\x7b' :: (gap ++ ['\x7d'])), later, ?_,
      fits_emptyCatch.mpr ⟨clause.starts, clause.head, space, gap, clause.isHead, hblank, rfl⟩⟩
    conv => lhs; rw [clause.code_eq, hrest]
    simp

/-- Where the pattern of a clause at the end of a line matches, there is one, and the match tells
    whether its brace is there. -/
theorem exists_clause_of_openCatch {before text : List Char} {m : Match}
    (h : openCatch.matchAt? (.behind before text) = some m) :
    ∃ clause : CatchClause (before ++ text),
      if (m.group? 1).isSome then clause.Opens else clause.Ends := by
  have hassoc : (clauseHead ++ .blanks ++ .opt (.group 1 (.char '\x7b')) ++
      (.blanks ++ .textEnd) : Pattern).matchAt? (.behind before text) = some m := h
  obtain ⟨_, brace, _, rest, htext, ⟨head, space, rfl, hhead, hspace⟩, hbrace, gap, last, rfl, hgap,
    rfl, rfl⟩ := Pattern.exists_of_matchAt?_opt (by rfl) (by rfl) hassoc
  obtain ⟨hstarts, hisHead⟩ := fits_clauseHead.mp hhead
  rw [Pattern.fits_blanks] at hspace hgap
  rw [Cursor.behind_rest, List.append_nil, List.append_nil] at htext
  subst htext
  refine ⟨⟨before, head, space ++ (brace ++ gap), by simp, hstarts, hisHead⟩, ?_⟩
  have hblank : ∀ c ∈ space ++ gap, isBlank c = true := List.forall_mem_append.mpr ⟨hspace, hgap⟩
  split
  · rename_i hsome
    rw [if_pos hsome, Pattern.fits_char] at hbrace
    exact ⟨space, gap, hblank, by rw [hbrace]; rfl⟩
  · rename_i hnone
    rw [if_neg hnone] at hbrace
    rw [hbrace]
    exact hblank

/-- If a clause is at the end of a line, then the pattern is in it. -/
theorem openCatch_ne_none {code : List Char} (clause : CatchClause code)
    (h : clause.Opens ∨ clause.Ends) : openCatch.find? code ≠ none := by
  intro hnone
  rw [Pattern.find?_eq_none_iff] at hnone
  refine hnone clause.before (clause.head ++ clause.rest) [] (by simpa using clause.code_eq) ?_
  have hassoc : openCatch.Fits clause.before.getLast? (clause.head ++ clause.rest) [] ↔
      (clauseHead ++ (.blanks ++ (.opt (.group 1 (.char '\x7b')) ++ (.blanks ++ .textEnd)))).Fits
        clause.before.getLast? (clause.head ++ clause.rest) [] := by
    simp only [← Pattern.fits_seq_assoc]
    exact Iff.rfl
  rw [hassoc]
  refine ⟨clause.head, clause.rest, rfl, fits_clauseHead.mpr ⟨clause.starts, clause.isHead⟩, ?_⟩
  rcases h with ⟨space, gap, hblank, hrest⟩ | hblank
  · rw [List.forall_mem_append] at hblank
    rw [hrest]
    exact ⟨space, _, rfl, Pattern.fits_blanks.mpr hblank.1, ['\x7b'], gap, rfl,
      .inl ⟨'\x7b', rfl, by decide⟩, gap, [], (List.append_nil _).symm,
      Pattern.fits_blanks.mpr hblank.2, rfl, rfl⟩
  · exact ⟨clause.rest, [], (List.append_nil _).symm, Pattern.fits_blanks.mpr hblank, [], [], rfl,
      .inr rfl, [], [], rfl, Pattern.fits_blanks.mpr (List.forall_mem_nil _), rfl, rfl⟩

/-! ## Clauses that discard what they catch -/

/-- Is a closing brace the first visible character of the lines? -/
def ClosesFirst (lines : List (List Char)) : Prop :=
  ∃ line below, FirstVisible lines line below ∧ (trim line).head? = some '\x7d'

theorem closesFirst_iff {lines : List (List Char)} :
    closesFirst lines = true ↔ ClosesFirst lines := by
  have hbrace : ∀ text, beginsWith "\x7d" text = true ↔ text.head? = some '\x7d' := by
    intro text
    cases text with
    | nil => decide
    | cons c text =>
      change ('\x7d' == c && [].isPrefixOf text) = true ↔ _
      rw [List.isPrefixOf_nil_left, Bool.and_true, beq_iff_eq, List.head?_cons, Option.some_inj,
        eq_comm]
  simp only [ClosesFirst, firstVisible_iff, closesFirst]
  split
  · rename_i hnil
    simp [hnil]
  · rename_i line below hline
    simp [hline, hbrace]

/-- Does a clause at the end of a line, without its brace, have an empty block on the lines
    below? -/
def BlockBelow (below : List (List Char)) : Prop :=
  ∃ line further, FirstVisible below line further ∧
    ("\x7b\x7d".toList <+: trim line ∨ trim line = ['\x7b'] ∧ ClosesFirst further)

/-- Does a line of code, given the lines below it, hold a clause that discards what it catches? -/
inductive Discards (code : List Char) (below : List (List Char)) : Prop where
  /-- The block is empty on the line itself. -/
  | here (clause : CatchClause code) (h : clause.IsEmpty)
  /-- The block is open at the end of the line. -/
  | opened (clause : CatchClause code) (h : clause.Opens) (closes : ClosesFirst below)
  /-- The block begins below. -/
  | below (clause : CatchClause code) (h : clause.Ends) (empty : BlockBelow below)

section

variable {code : List Char} {below : List (List Char)}
  (hempty : ∀ clause : CatchClause code, ¬ clause.IsEmpty)

include hempty

/-- If the block is open at the end of the line, then the lines below decide. -/
theorem CatchClause.Opens.discards_iff {clause : CatchClause code} (h : clause.Opens) :
    Discards code below ↔ ClosesFirst below := by
  refine ⟨fun hdiscards => ?_, .opened clause h⟩
  cases hdiscards with
  | here other hother => exact absurd hother (hempty other)
  | opened _ _ closes => exact closes
  | below _ hother => exact absurd hother h.not_ends

theorem CatchClause.Ends.discards_iff {clause : CatchClause code} (h : clause.Ends) :
    Discards code below ↔ BlockBelow below := by
  refine ⟨fun hdiscards => ?_, .below clause h⟩
  cases hdiscards with
  | here other hother => exact absurd hother (hempty other)
  | opened _ hother => exact absurd h hother.not_ends
  | below _ _ empty => exact empty

end

/-- Which clauses discard what they catch. -/
theorem isEmptyCatch_iff {code : List Char} {below : List (List Char)} :
    isEmptyCatch code below = true ↔ Discards code below := by
  rw [isEmptyCatch]
  split
  · rename_i hempty
    obtain ⟨clause, hclause⟩ := isIn_emptyCatch_iff.mp hempty
    exact iff_of_true rfl (.here clause hclause)
  rename_i hempty
  have hfree : ∀ clause : CatchClause code, ¬ clause.IsEmpty := fun clause hclause =>
    hempty (isIn_emptyCatch_iff.mpr ⟨clause, hclause⟩)
  split
  · rename_i hnone
    refine iff_of_false Bool.false_ne_true fun h => ?_
    cases h with
    | here clause h => exact hfree clause h
    | opened clause h => exact openCatch_ne_none clause (.inl h) hnone
    | below clause h => exact openCatch_ne_none clause (.inr h) hnone
  · rename_i m hm
    obtain ⟨before, text, rfl, hmatch, -⟩ := Pattern.exists_first_of_find? hm
    obtain ⟨clause, hclause⟩ := exists_clause_of_openCatch hmatch
    -- The match tells how the line ends, and all clauses at its end agree on that.
    split
    · rename_i hbrace
      rw [if_pos hbrace] at hclause
      rw [closesFirst_iff, hclause.discards_iff hfree]
    · rename_i hbrace
      rw [if_neg hbrace] at hclause
      rw [hclause.discards_iff hfree]
      simp only [BlockBelow, firstVisible_iff]
      split
      · rename_i hnil
        simp [hnil]
      · rename_i line further hline
        simp [hline, beginsWith, closesFirst_iff, List.isPrefixOf_iff_prefix]

/-! ## Comments in blocks -/

/-- Does the first visible line begin with a comment? -/
def CommentFirst (lines : List (List Char)) : Prop :=
  ∃ line below, FirstVisible lines line below ∧ opensComment (trim line) = true

/-- Does the block of a clause that begins below begin with a comment, behind its brace or on the
    next visible line? -/
def CommentBelow (below : List (List Char)) : Prop :=
  ∃ line further, FirstVisible below line further ∧
    (trim line = ['\x7b'] ∧ CommentFirst further ∨
      ∃ gap comment, (∀ c ∈ gap, isBlank c = true) ∧ opensComment comment = true ∧
        trim line = '\x7b' :: (gap ++ comment))

/-- A comment does not begin with a closing brace. -/
theorem not_brace_of_opensComment {text : List Char} (h : opensComment text = true) :
    text.head? ≠ some '\x7d' := by
  intro hhead
  obtain ⟨rest, rfl⟩ := List.head?_eq_some_iff.mp hhead
  cases h

theorem CommentFirst.not_closesFirst {lines : List (List Char)} (h : CommentFirst lines) :
    ¬ ClosesFirst lines := by
  obtain ⟨line, below, hline, hcomment⟩ := h
  rintro ⟨line', below', hline', hbrace⟩
  rw [← (hline.unique hline').1] at hbrace
  exact not_brace_of_opensComment hcomment hbrace

theorem CommentBelow.not_blockBelow {below : List (List Char)} (h : CommentBelow below) :
    ¬ BlockBelow below := by
  obtain ⟨line, further, hline, hcomment⟩ := h
  rintro ⟨line', further', hline', hblock⟩
  obtain ⟨rfl, rfl⟩ := hline.unique hline'
  rcases hcomment with ⟨hbrace, hfirst⟩ | ⟨gap, comment, hgap, hcomment, hbrace⟩
  · rcases hblock with hpair | ⟨-, hcloses⟩
    · rw [hbrace] at hpair
      exact absurd hpair (by decide)
    · exact hfirst.not_closesFirst hcloses
  · rcases hblock with hpair | ⟨halone, -⟩
    · -- What stands behind the brace is white space or begins the comment.
      obtain ⟨rest, hrest⟩ := hpair
      rw [hbrace] at hrest
      have htail : '\x7d' :: rest = gap ++ comment := (List.cons.inj hrest).2
      cases gap with
      | nil =>
        rw [List.nil_append] at htail
        exact not_brace_of_opensComment hcomment (by rw [← htail]; rfl)
      | cons c gap =>
        have hc := hgap c List.mem_cons_self
        rw [← (List.cons.inj htail).1] at hc
        exact absurd hc (by decide)
    · rw [hbrace] at halone
      have hnil : gap ++ comment = [] := (List.cons.inj halone).2
      rw [(List.append_eq_nil_iff.mp hnil).2] at hcomment
      cases hcomment

/-! ## What is reported -/

theorem reportedOn_emptyCatch {s : Subject} (hs : s.IsNumbered) {line : SourceLine}
    (hline : line ∈ s.codeLines) :
    Rule.emptyCatchBlock.ReportedOn (Practice.run s) line.row ↔
      Discards line.code (s.texts.drop line.row) := by
  have hrun := among_emptyCatches s
  rw [emptyCatches, List.filterMap_eq_flatMap_toList] at hrun
  rw [Rule.reportedOn_iff hs hrun (fun line => ?_) hline, ← isEmptyCatch_iff]
  · split
    · rename_i hcatch
      exact iff_of_true (List.cons_ne_nil _ _) hcatch
    · rename_i hcatch
      exact iff_of_false (fun hne => hne rfl) hcatch
  · intro issue hissue
    split at hissue
    · rw [List.mem_singleton.mp hissue]
      exact ⟨rfl, rfl⟩
    · cases hissue

end Check

open Check in
/-- A line of code is reported exactly if it holds a catch clause that discards what it catches. If
    no block is empty on the line itself, then a clause whose block is open at its end is reported
    exactly if the first visible line below closes the block, whatever comment follows the brace,
    and a clause at its end exactly if the block below is empty. A comment on the first visible line
    of a block, or behind a brace below the clause, counts as content. -/
theorem discarding_clause_reported_iff (path : String) (source : ParsedSource) (role : Role)
    (radius : Nat) {line : SourceLine}
    (hline : line ∈ (Subject.ofSource path source role radius).codeLines) :
    (Rule.emptyCatchBlock.ReportedOn (Practice.run (.ofSource path source role radius)) line.row ↔
      Discards line.code ((Subject.ofSource path source role radius).texts.drop line.row)) ∧
    ((∀ clause : CatchClause line.code, ¬ clause.IsEmpty) →
      (∀ clause : CatchClause line.code, clause.Opens →
        (Rule.emptyCatchBlock.ReportedOn (Practice.run (.ofSource path source role radius))
            line.row ↔
          ClosesFirst ((Subject.ofSource path source role radius).texts.drop line.row)) ∧
        (CommentFirst ((Subject.ofSource path source role radius).texts.drop line.row) →
          ¬ Rule.emptyCatchBlock.ReportedOn (Practice.run (.ofSource path source role radius))
            line.row)) ∧
      ∀ clause : CatchClause line.code, clause.Ends →
        (Rule.emptyCatchBlock.ReportedOn (Practice.run (.ofSource path source role radius))
            line.row ↔
          BlockBelow ((Subject.ofSource path source role radius).texts.drop line.row)) ∧
        (CommentBelow ((Subject.ofSource path source role radius).texts.drop line.row) →
          ¬ Rule.emptyCatchBlock.ReportedOn (Practice.run (.ofSource path source role radius))
            line.row)) := by
  have hreported := reportedOn_emptyCatch (Subject.isNumbered_ofSource path source role radius)
    hline
  refine ⟨hreported, fun hempty => ⟨fun clause h => ?_, fun clause h => ?_⟩⟩
  · rw [hreported, h.discards_iff hempty]
    exact ⟨Iff.rfl, CommentFirst.not_closesFirst⟩
  · rw [hreported, h.discards_iff hempty]
    exact ⟨Iff.rfl, CommentBelow.not_blockBelow⟩

/-- A line with a clause whose block is open at its end. -/
def openedCatch : SourceLine := ⟨1, "try \x7b f(); \x7d catch (E $e) \x7b".toList, false⟩

/-- A file with such a line, and with a comment on the next. -/
def commentInBlock : List Char :=
  openedCatch.text ++ "\n  // offline\n\x7d\n".toList

open Check in
/-- The clause is not reported. -/
theorem comment_in_block_counts :
    openedCatch ∈
        (Subject.ofSource "app/A.php" ⟨.php, commentInBlock, none, none⟩ .plain 0).codeLines ∧
      ¬ Rule.emptyCatchBlock.ReportedOn (Practice.run
        (.ofSource "app/A.php" ⟨.php, commentInBlock, none, none⟩ .plain 0)) 1 := by
  have hline : openedCatch ∈
      (Subject.ofSource "app/A.php" ⟨.php, commentInBlock, none, none⟩ .plain 0).codeLines :=
    .head _
  have hclosed : Practice.emptyCatch.isIn openedCatch.code = false := by decide +kernel
  have hempty : ∀ clause : CatchClause openedCatch.code, ¬ clause.IsEmpty := by
    intro clause hclause
    rw [isIn_emptyCatch_iff.mpr ⟨clause, hclause⟩] at hclosed
    cases hclosed
  have hcode : openedCatch.code = "try \x7b f(); \x7d ".toList ++ ("catch (E $e)".toList ++
      " \x7b".toList) := by decide
  have hhead : IsCatchHead "catch (E $e)".toList :=
    ⟨[' '], "E $e".toList, List.all_eq_true.mp (by decide), by decide, rfl⟩
  have hcomment : CommentFirst ((Subject.ofSource "app/A.php" ⟨.php, commentInBlock, none, none⟩
      .plain 0).texts.drop 1) :=
    ⟨"  // offline".toList, ["\x7d".toList], ⟨[], by decide, List.forall_mem_nil _, by decide⟩,
      by decide⟩
  refine ⟨hline, ?_⟩
  exact (((discarding_clause_reported_iff "app/A.php" ⟨.php, commentInBlock, none, none⟩ .plain 0
    hline).2 hempty).1 ⟨_, _, _, hcode, by decide, hhead⟩
      ⟨[' '], [], List.all_eq_true.mp (by decide), rfl⟩).2 hcomment

/-- The same line with a comment behind the brace. -/
def commentedCatch : SourceLine := ⟨1, openedCatch.text ++ " // offline".toList, false⟩

open Check in
/-- The clause is reported, although its block holds the comment. -/
theorem comment_behind_brace_ignored :
    opensComment "// offline".toList = true ∧
      commentedCatch.text = openedCatch.text ++ ' ' :: "// offline".toList ∧
      (∃ clause : CatchClause commentedCatch.code, clause.Opens) ∧
      Rule.emptyCatchBlock.ReportedOn (Practice.run (.ofSource "app/Support/A.php"
        ⟨.php, commentedCatch.text ++ "\n\x7d\n".toList, none, none⟩ .plain 0)) 1 := by
  have hline : commentedCatch ∈ (Subject.ofSource "app/Support/A.php"
      ⟨.php, commentedCatch.text ++ "\n\x7d\n".toList, none, none⟩ .plain 0).codeLines := .head _
  have hcode : commentedCatch.code = "try \x7b f(); \x7d ".toList ++ ("catch (E $e)".toList ++
      " \x7b ".toList) := by decide
  have hhead : IsCatchHead "catch (E $e)".toList :=
    ⟨[' '], "E $e".toList, List.all_eq_true.mp (by decide), by decide, rfl⟩
  have hopens : ∃ clause : CatchClause commentedCatch.code, clause.Opens :=
    ⟨⟨_, _, _, hcode, by decide, hhead⟩, [' '], [' '], List.all_eq_true.mp (by decide), rfl⟩
  refine ⟨by decide, rfl, hopens, ?_⟩
  obtain ⟨clause, hclause⟩ := hopens
  refine (reportedOn_emptyCatch (Subject.isNumbered_ofSource _ _ _ _) hline).mpr ?_
  exact .opened clause hclause
    ⟨"\x7d".toList, [], ⟨[], by decide, List.forall_mem_nil _, by decide⟩, by decide⟩

end CodeAudit
