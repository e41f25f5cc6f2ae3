import CodeAudit.Proofs.CataloguedIssues
import CodeAudit.Proofs.DirectiveTokens
import CodeAudit.Proofs.FirstPerKey
import Mathlib.Tactic.ByContra

/-!
# Paired directives

The check of directives reads the block tokens of a template with a stack of the blocks that are
open. The end of a block is looked for in the whole stack: the blocks above it are given up and
reported, and an end without a beginning is reported and forgotten. Of each sort of block only the
first report is kept.

Although it recovers from errors and keeps silent about repeated ones, the check is silent only
where nothing is wrong: exactly on well-nested words of block tokens. And what it gives up for one
sort of block never balances another: a sort that is opened and closed a different number of times
is always reported.

Results:
* `unpaired_close`: what the end of a block does.
* `unpaired_eq_nil_iff`: nothing is reported exactly for well-nested words.
* `count_eq_of_paired`: a sort of block that is not reported is opened and closed equally often.
* `run_eq_nil_iff_nested`, `run_reports_kinds`: the same for templates.
-/

namespace CodeAudit

namespace Check.Directive

/-! ## Words of block tokens -/

/-- Well-nested words of block tokens: every block that is opened is closed, after what is opened in
    it is closed. -/
inductive Nested : List Mark → Prop
  | nil : Nested []
  | block {opener closer : Mark} {inner after : List Mark} :
    opener.opens = true → closer.opens = false → closer.block = opener.block → Nested inner →
      Nested after → Nested (opener :: (inner ++ closer :: after))

theorem Nested.append {a b : List Mark} (ha : Nested a) (hb : Nested b) : Nested (a ++ b) := by
  induction ha with
  | nil => exact hb
  | block hopener hcloser hblock hinner _ _ ih =>
    rw [List.cons_append, List.append_assoc]
    exact .block hopener hcloser hblock hinner ih

/-! ## One step -/

section Steps

variable (stack : List (String × Nat)) (later : List Mark) {mark : Mark}

theorem unpaired_open (h : mark.opens = true) :
    unpaired stack (mark :: later) = unpaired ((mark.block, mark.row) :: stack) later := by
  rw [unpaired, if_pos h]

/-- The end of a block that was not opened is reported and changes nothing else. Any other gives up
    the blocks that are open in the innermost one of its sort, and closes that. -/
theorem unpaired_close (h : mark.opens = false) :
    ((∀ entry ∈ stack, entry.1 ≠ mark.block) ∧
      unpaired stack (mark :: later) =
        ⟨mark.block, mark.row, "is closed without being opened"⟩ :: unpaired stack later) ∨
    ∃ inner entry outer, stack = inner ++ entry :: outer ∧ entry.1 = mark.block ∧
      (∀ entry ∈ inner, entry.1 ≠ mark.block) ∧
      unpaired stack (mark :: later) =
        (inner.map Unpaired.neverClosed).reverse ++ unpaired outer later := by
  have hsplit : (stack.takeWhile fun entry => entry.1 != mark.block) ++
      (stack.dropWhile fun entry => entry.1 != mark.block) = stack :=
    List.takeWhile_append_dropWhile
  have hdrop :=
    congrArg (List.drop (stack.takeWhile fun entry => entry.1 != mark.block).length) hsplit
  rw [List.drop_left] at hdrop
  have hinner : ∀ entry ∈ stack.takeWhile fun entry => entry.1 != mark.block,
      entry.1 ≠ mark.block := fun entry hentry =>
    bne_iff_ne.mp (List.all_eq_true.mp List.all_takeWhile entry hentry)
  rw [unpaired, if_neg (by rw [h]; exact Bool.false_ne_true)]
  simp only [← hdrop]
  cases hrest : stack.dropWhile fun entry => entry.1 != mark.block with
  | nil =>
    rw [hrest, List.append_nil] at hsplit
    rw [hsplit] at hinner
    exact .inl ⟨hinner, rfl⟩
  | cons entry outer =>
    rw [hrest] at hsplit
    have hentry :=
      List.head?_dropWhile_not (fun entry : String × Nat => entry.1 != mark.block) stack
    rw [hrest] at hentry
    exact .inr ⟨_, entry, outer, hsplit.symm, by simpa using hentry, hinner, rfl⟩

end Steps

/-- The end of the innermost open block. -/
theorem unpaired_close_top {stack : List (String × Nat)} {entry : String × Nat} {mark : Mark}
    (h : mark.opens = false) (hblock : entry.1 = mark.block) (later : List Mark) :
    unpaired (entry :: stack) (mark :: later) = unpaired stack later := by
  rcases unpaired_close (entry :: stack) later h with ⟨hnone, -⟩ |
    ⟨inner, found, outer, hstack, -, hinner, hlater⟩
  · exact absurd hblock (hnone entry List.mem_cons_self)
  · cases inner with
    | nil =>
      cases hstack
      exact hlater
    | cons first inner =>
      cases hstack
      exact absurd hblock (hinner entry List.mem_cons_self)

/-! ## Well-nested words -/

/-- A well-nested word leaves the stack as it finds it and reports nothing. -/
theorem Nested.unpaired_append {word : List Mark} (h : Nested word) (stack : List (String × Nat))
    (later : List Mark) : unpaired stack (word ++ later) = unpaired stack later := by
  induction h generalizing stack later with
  | nil => rfl
  | block hopener hcloser hblock _ _ ihinner ihafter =>
    rw [List.cons_append, List.append_assoc, unpaired_open _ _ hopener, ihinner, List.cons_append,
      unpaired_close_top hcloser hblock.symm, ihafter]

/-- Words that close the blocks of a stack one by one, with well-nested words in between. -/
inductive Unwinds : List String → List Mark → Prop
  | done {word : List Mark} : Nested word → Unwinds [] word
  | close {block : String} {blocks : List String} {word later : List Mark} {closer : Mark} :
    Nested word → closer.opens = false → closer.block = block → Unwinds blocks later →
      Unwinds (block :: blocks) (word ++ closer :: later)

theorem Unwinds.prepend {blocks : List String} {word later : List Mark} (hword : Nested word)
    (h : Unwinds blocks later) : Unwinds blocks (word ++ later) := by
  cases h with
  | done hlater => exact .done (hword.append hlater)
  | close hfirst hcloser hblock hlater =>
    rw [← List.append_assoc]
    exact .close (hword.append hfirst) hcloser hblock hlater

/-- A word that reports nothing unwinds the stack. -/
theorem unwinds_of_unpaired_eq_nil {stack : List (String × Nat)} {marks : List Mark}
    (h : unpaired stack marks = []) : Unwinds (stack.map Prod.fst) marks := by
  induction marks generalizing stack with
  | nil =>
    have hstack : stack = [] := by simpa [unpaired] using h
    rw [hstack]
    exact .done .nil
  | cons mark later ih =>
    cases hopens : mark.opens with
    | true =>
      rw [unpaired_open stack later hopens] at h
      -- the word that follows closes the block just opened and then unwinds the rest
      have hunwinds := ih h
      cases hunwinds with
      | close hword hcloser hblock hlater =>
        rename_i word rest closer
        have hnested : Nested (mark :: (word ++ [closer])) :=
          .block hopens hcloser hblock hword .nil
        have := hlater.prepend hnested
        rw [List.cons_append, List.append_assoc, List.singleton_append] at this
        exact this
    | false =>
      rcases unpaired_close stack later hopens with ⟨-, hreport⟩ |
        ⟨inner, entry, outer, hstack, hentry, -, hreport⟩
      · rw [hreport] at h
        cases h
      · rw [hreport, List.append_eq_nil_iff, List.reverse_eq_nil_iff, List.map_eq_nil_iff] at h
        rw [hstack, h.1, List.nil_append, List.map_cons]
        exact .close .nil hopens hentry.symm (ih h.2)

/-- Nothing is reported exactly for well-nested words. -/
theorem unpaired_eq_nil_iff {marks : List Mark} : unpaired [] marks = [] ↔ Nested marks := by
  constructor
  · intro h
    cases unwinds_of_unpaired_eq_nil h with
    | done hword => exact hword
  · intro h
    have hword := h.unpaired_append [] []
    rw [List.append_nil] at hword
    exact hword

/-! ## Counts -/

/-- How often a sort of block is opened. -/
def openings (block : String) (marks : List Mark) : Nat :=
  marks.countP fun mark => mark.opens && mark.block == block

/-- How often a sort of block is closed. -/
def closings (block : String) (marks : List Mark) : Nat :=
  marks.countP fun mark => !mark.opens && mark.block == block

theorem openings_cons (block : String) (mark : Mark) (later : List Mark) :
    openings block (mark :: later) =
      (if mark.opens = true then if mark.block = block then 1 else 0 else 0) +
        openings block later := by
  cases h : mark.opens <;> simp [openings, List.countP_cons, h, Nat.add_comm]

theorem closings_cons (block : String) (mark : Mark) (later : List Mark) :
    closings block (mark :: later) =
      (if mark.opens = true then 0 else if mark.block = block then 1 else 0) +
        closings block later := by
  cases h : mark.opens <;> simp [closings, List.countP_cons, h, Nat.add_comm]

/-- A sort of block that is not reported is closed as often as it is opened, those on the stack
    included. -/
theorem count_eq_of_paired {block : String} {stack : List (String × Nat)} {marks : List Mark}
    (h : ∀ u ∈ unpaired stack marks, u.block ≠ block) :
    stack.countP (·.1 == block) + openings block marks = closings block marks := by
  induction marks generalizing stack with
  | nil =>
    have hstack : ∀ entry ∈ stack, entry.1 ≠ block := fun entry hentry =>
      h (.neverClosed entry) (List.mem_reverse.mpr (List.mem_map_of_mem hentry))
    rw [List.countP_eq_zero.mpr fun entry hentry => by simpa using hstack entry hentry]
    rfl
  | cons mark later ih =>
    cases hopens : mark.opens with
    | true =>
      rw [unpaired_open stack later hopens] at h
      have hlater := ih h
      rw [List.countP_cons] at hlater
      rw [openings_cons, closings_cons, hopens]
      simp only [beq_iff_eq, if_true] at hlater ⊢
      omega
    | false =>
      rw [openings_cons, closings_cons, hopens]
      rcases unpaired_close stack later hopens with ⟨hnone, hreport⟩ |
        ⟨inner, entry, outer, hstack, hentry, -, hreport⟩
      · -- an end without a beginning is reported, so it is of another sort
        rw [hreport, List.forall_mem_cons] at h
        have hne : mark.block ≠ block := h.1
        have hlater := ih h.2
        simp only [hne]
        simp
        omega
      · rw [hreport] at h
        have hgiven : ∀ given ∈ inner, given.1 ≠ block := fun given hmem =>
          h (.neverClosed given)
            (List.mem_append_left _ (List.mem_reverse.mpr (List.mem_map_of_mem hmem)))
        have hlater := ih fun u hu => h u (List.mem_append_right _ hu)
        have hinner : inner.countP (·.1 == block) = 0 :=
          List.countP_eq_zero.mpr fun given hmem => by simpa using hgiven given hmem
        rw [hstack, List.countP_append, List.countP_cons, hinner, hentry]
        simp
        omega

/-! ## Templates -/

/-- The sort of block that an issue is about. -/
def blockOf? (issue : Issue) : Option String :=
  match issue.metadata.lookup "directive" with
  | some (.str block) => some block
  | _ => none

@[simp] theorem blockOf?_issue (s : Subject) (u : Unpaired) : blockOf? (issue s u) = some u.block :=
  rfl

theorem run_eq (s : Subject) :
    run s = (firstPerKey [] ((unpaired [] (blockTokens s)).map fun u =>
      (u.block, issue s u))).mergeSort fun a b => a.line ≤ b.line := by
  rw [← filterMap_mark?_eq]
  rfl

/-- What is reported is a block without its other half. -/
theorem exists_of_mem_run {s : Subject} {i : Issue} (h : i ∈ run s) :
    ∃ u ∈ unpaired [] (blockTokens s), i = issue s u := by
  rw [run_eq, List.mem_mergeSort] at h
  obtain ⟨key, hpair⟩ := mem_of_mem_firstPerKey h
  obtain ⟨u, hu, heq⟩ := List.mem_map.mp hpair
  cases heq
  exact ⟨u, hu, rfl⟩

/-- Each sort of block without its other half is reported. -/
theorem mem_map_blockOf?_run {s : Subject} {u : Unpaired} (h : u ∈ unpaired [] (blockTokens s)) :
    some u.block ∈ (run s).map blockOf? := by
  have hpair : (u.block, issue s u) ∈ (unpaired [] (blockTokens s)).map fun u =>
      (u.block, issue s u) := List.mem_map_of_mem h
  obtain ⟨first, hfirst, hmem⟩ := exists_mem_firstPerKey hpair (List.not_mem_nil (a := u.block))
  obtain ⟨u', -, heq⟩ := List.mem_map.mp hmem
  rw [Prod.mk.injEq] at heq
  rw [run_eq]
  refine List.mem_map.mpr ⟨first, List.mem_mergeSort.mpr hfirst, ?_⟩
  rw [← heq.2, blockOf?_issue, heq.1]

theorem pos_of_mem_blockTokens {s : Subject} {token : Mark} (h : token ∈ blockTokens s) :
    1 ≤ token.row := by
  rw [← filterMap_mark?_eq] at h
  obtain ⟨o, ho, hmark⟩ := List.mem_filterMap.mp h
  obtain ⟨entry, hentry, hline⟩ := List.mem_flatMap.mp (mem_of_mem_outsideVerbatim ho)
  rw [row_of_mark? hmark, row_of_mem_occurrences hline]
  exact (Subject.row_of_mem_templateLines hentry).1

/-- The check of directives is silent about a template exactly if its block tokens are well
    nested. -/
theorem run_eq_nil_iff_nested (s : Subject) : run s = [] ↔ Nested (blockTokens s) := by
  rw [← unpaired_eq_nil_iff]
  constructor
  · intro h
    rw [List.eq_nil_iff_forall_not_mem]
    intro u hu
    have hmem := mem_map_blockOf?_run hu
    rw [h] at hmem
    cases hmem
  · intro h
    rw [List.eq_nil_iff_forall_not_mem]
    intro i hi
    obtain ⟨u, hu, -⟩ := exists_of_mem_run hi
    rw [h] at hu
    cases hu

/-- Each sort of block is reported once at most, reports are in the order of the lines, each names a
    line with a token of its sort, and a sort that is opened and closed a different number of times
    is reported. -/
theorem run_reports_kinds (s : Subject) :
    ((run s).map blockOf?).Nodup ∧
      (run s).Pairwise (fun a b => a.line ≤ b.line) ∧
      (∀ i ∈ run s, ∃ token ∈ blockTokens s,
        token.row = i.line ∧ blockOf? i = some token.block) ∧
      ∀ block, openings block (blockTokens s) ≠ closings block (blockTokens s) →
        some block ∈ (run s).map blockOf? := by
  refine ⟨?_, ?_, ?_, ?_⟩
  · have hperm := List.mergeSort_perm (firstPerKey [] ((unpaired [] (blockTokens s)).map fun u =>
      (u.block, issue s u))) fun a b => a.line ≤ b.line
    rw [run_eq, (hperm.map blockOf?).nodup_iff, List.Nodup, List.pairwise_map]
    refine pairwise_firstPerKey [] _ fun p hp q hq hne => ?_
    obtain ⟨u, -, rfl⟩ := List.mem_map.mp hp
    obtain ⟨v, -, rfl⟩ := List.mem_map.mp hq
    simpa using hne
  · rw [run_eq]
    refine (List.pairwise_mergeSort (fun a b c hab hbc => ?_) (fun a b => ?_) _).imp
      fun h => of_decide_eq_true h
    · simp only [decide_eq_true_eq] at hab hbc ⊢
      omega
    · simp only [Bool.or_eq_true, decide_eq_true_eq]
      omega
  · intro i hi
    obtain ⟨u, hu, rfl⟩ := exists_of_mem_run hi
    have hmarked := forall_mem_unpaired
      (fun block row => ∃ token ∈ blockTokens s, token.row = row ∧ token.block = block)
      (List.forall_mem_nil _) (fun mark hmark => ⟨mark, hmark, rfl, rfl⟩) u hu
    obtain ⟨token, htoken, hrow, hblock⟩ := hmarked
    refine ⟨token, htoken, ?_, by rw [blockOf?_issue, hblock]⟩
    have hpos := pos_of_mem_blockTokens htoken
    change token.row = max u.row 1
    omega
  · intro block hcounts
    by_contra hsilent
    apply hcounts
    have hpaired : ∀ u ∈ unpaired [] (blockTokens s), u.block ≠ block := by
      rintro u hu rfl
      exact hsilent (mem_map_blockOf?_run hu)
    simpa using count_eq_of_paired hpaired

end Check.Directive

end CodeAudit
