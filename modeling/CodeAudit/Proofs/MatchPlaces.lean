import CodeAudit.Proofs.PatternMatches
import CodeAudit.Text.Find

/-!
# Where matches stand and what they hold

`Pattern.Fits` says which stretches a pattern describes. This module adds what checks go on to use
of a match: that it is the first one of the text, what its groups hold, and that it is not made of
white space alone.

Results:
* `exists_first_of_find?`: no match begins before the one that is found.
* `exists_fits_of_group`: what a group holds, the body of the group fits.
* `exists_of_matchAt?_tail`: a group at the end of a pattern takes all characters that it can.
* `exists_visible_of_fits`: patterns that find nothing in white space, by a test of the pattern.
* `notMem_of_fits`: characters that a pattern never takes, by another test.
* `fits_congr`: what a pattern sees of the text around a stretch.
-/

namespace CodeAudit

open Text

theorem Cursor.start_past (text before rest : List Char) :
    (Cursor.start text).past before rest = ⟨before.getLast?, byteLength before, rest⟩ := by
  simp [Cursor.start, Cursor.past]

/-- The stretch between two places, the second of which follows the first. -/
theorem Span.text_between {a b : Cursor} {stretch : List Char} (h : a.rest = stretch ++ b.rest) :
    (Span.between a b).text = stretch := by
  rw [Span.between, h, List.length_append, Nat.add_sub_cancel, List.take_left]

namespace Pattern

/-! ## The first match -/

theorem exists_first_of_searchFrom {p : Pattern} {previous : Option Char} {offset : Nat}
    {text : List Char} {m : Match} (h : p.searchFrom previous offset text = some m) :
    ∃ before rest, text = before ++ rest ∧
      p.matchAt? (Cursor.past ⟨previous, offset, text⟩ before rest) = some m ∧
      ∀ b r, text = b ++ r → (p.matchAt? (Cursor.past ⟨previous, offset, text⟩ b r)).isSome →
        before.length ≤ b.length := by
  induction text generalizing previous offset with
  | nil => exact ⟨[], [], rfl, h, fun _ _ _ _ => Nat.zero_le _⟩
  | cons x text ih =>
    rw [searchFrom, Option.orElse_eq_or] at h
    rcases Option.or_eq_some_iff.mp h with hhere | ⟨hnone, hlater⟩
    · exact ⟨[], x :: text, rfl, hhere, fun _ _ _ _ => Nat.zero_le _⟩
    · have hpast : ∀ b r, Cursor.past ⟨previous, offset, x :: text⟩ (x :: b) r =
          Cursor.past ⟨some x, offset + x.utf8Size, text⟩ b r := fun b r =>
        (Cursor.past_past _ [x] b text r).symm
      obtain ⟨before, rest, htext, hmatch, hfirst⟩ := ih hlater
      refine ⟨x :: before, rest, by rw [htext]; rfl, by rw [hpast]; exact hmatch, ?_⟩
      intro b r hbr hsome
      cases b with
      | nil =>
        rw [Cursor.past_nil hbr, hnone] at hsome
        cases hsome
      | cons y b =>
        cases hbr
        rw [hpast] at hsome
        exact Nat.succ_le_succ (hfirst b r rfl hsome)

/-- No match begins before the one that is found. -/
theorem exists_first_of_find? {p : Pattern} {text : List Char} {m : Match}
    (h : p.find? text = some m) :
    ∃ before rest, text = before ++ rest ∧
      p.matchAt? ⟨before.getLast?, byteLength before, rest⟩ = some m ∧
      ∀ b stretch r, text = b ++ (stretch ++ r) → p.Fits b.getLast? stretch r →
        before.length ≤ b.length := by
  obtain ⟨before, rest, htext, hmatch, hfirst⟩ := exists_first_of_searchFrom h
  refine ⟨before, rest, htext, by rw [← hmatch, ← Cursor.start, Cursor.start_past], ?_⟩
  intro b stretch r hbr hfits
  refine hfirst b (stretch ++ r) hbr (isSome_matchAt?_iff.mpr ⟨stretch, r, rfl, ?_⟩)
  rw [← Cursor.start, Cursor.start_past]
  exact hfits

theorem find?_eq_none_iff {p : Pattern} {text : List Char} :
    p.find? text = none ↔ ∀ before stretch rest, text = before ++ (stretch ++ rest) →
      ¬ p.Fits before.getLast? stretch rest := by
  rw [← Option.not_isSome_iff_eq_none]
  change ¬ p.isIn text = true ↔ _
  rw [isIn_iff]
  grind

/-! ## Groups -/

/-- The places between which a group was matched. -/
theorem exists_fits_of_lookup {p : Pattern} {c : Cursor} {m : Match} (h : p.matchAt? c = some m)
    {index : Nat} {places : Cursor × Cursor} (hlookup : m.groups.lookup index = some places) :
    ∃ body ∈ p.bodies index, ∃ stretch, places.1.rest = stretch ++ places.2.rest ∧
      body.Fits places.1.previous stretch places.2.rest := by
  obtain ⟨before, after, hgroups, -⟩ := List.lookup_eq_some_iff.mp hlookup
  have hentry : (index, places) ∈ m.groups := by
    rw [hgroups]
    exact List.mem_append_right _ List.mem_cons_self
  obtain ⟨body, hbody, stretch, rest, hrest, hlast, hfits⟩ := holds_of_matchAt? h _ hentry
  have hplace : places.2.rest = rest := congrArg Cursor.rest hlast
  exact ⟨body, hbody, stretch, by rw [hplace]; exact hrest, by rw [hplace]; exact hfits⟩

/-- What a group holds, the body of the group fits. -/
theorem exists_fits_of_group {p : Pattern} {c : Cursor} {m : Match} (h : p.matchAt? c = some m)
    (index : Nat) :
    m.text index = [] ∨ ∃ body ∈ p.bodies index, ∃ previous rest,
      body.Fits previous (m.text index) rest := by
  rw [Match.text, Match.group?]
  cases hlookup : m.groups.lookup index with
  | none => exact .inl rfl
  | some places =>
    obtain ⟨body, hbody, stretch, hrest, hfits⟩ := exists_fits_of_lookup h hlookup
    refine .inr ⟨body, hbody, places.1.previous, places.2.rest, ?_⟩
    rw [Option.map_some, Option.map_some, Option.getD_some, Span.text_between hrest]
    exact hfits

/-- A group at the end of a pattern takes all characters that it can. -/
theorem exists_of_matchAt?_tail {keyword : Pattern} {accepts : Char → Bool} {index : Nat}
    {c : Cursor} {m : Match}
    (h : (keyword ++ group index (many (one accepts))).matchAt? c = some m) :
    ∃ stretch rest, c.rest = stretch ++ rest ∧ keyword.Fits c.previous stretch rest ∧
      m.text index = rest.takeWhile accepts := by
  obtain ⟨stretch, rest, added, hrest, hfits, -, hm⟩ := exists_fits_of_run keyword c [] _ m h
  refine ⟨stretch, rest, hrest, hfits, ?_⟩
  change rounds (one accepts).run true (c.past stretch rest).rest _ _ _ = some m at hm
  rw [rounds_one_greedy (fun _ _ => rfl) _ (Nat.le_refl _)] at hm
  cases hm
  rw [Match.text, Match.group?, List.lookup_cons, beq_self_eq_true]
  exact Span.text_between List.takeWhile_append_dropWhile.symm

/-! ## White space -/

/-- The white-space characters. -/
def blankChars : List Char :=
  [9, 10, 11, 12, 13, 0x20, 0x85, 0xA0, 0x1680, 0x2000, 0x2001, 0x2002, 0x2003, 0x2004, 0x2005,
    0x2006, 0x2007, 0x2008, 0x2009, 0x200A, 0x2028, 0x2029, 0x202F, 0x205F, 0x3000].map Char.ofNat

theorem mem_blankChars {c : Char} (h : isBlank c = true) : c ∈ blankChars := by
  refine List.mem_map.mpr ⟨c.toNat, ?_, Char.ofNat_toNat c⟩
  simp only [isBlank, Bool.or_eq_true, Bool.and_eq_true, decide_eq_true_eq, beq_iff_eq] at h
  simp only [List.mem_cons, List.not_mem_nil, or_false]
  omega

/-- Is there a part of the pattern, in each of its branches, that takes no white space? -/
def isVisible : Pattern → Bool
  | one accepts => blankChars.all (!accepts ·)
  | seq first second => second.isVisible || first.isVisible
  | choice first second => first.isVisible && second.isVisible
  | group _ body => body.isVisible
  | _ => false

theorem exists_visible_of_fits {p : Pattern} (hp : p.isVisible = true) {previous : Option Char}
    {stretch rest : List Char} (h : p.Fits previous stretch rest) :
    ∃ c ∈ stretch, isBlank c = false := by
  induction p generalizing previous stretch rest with
  | one accepts =>
    obtain ⟨x, rfl, hx⟩ := h
    refine ⟨x, List.mem_singleton_self x, Bool.eq_false_iff.mpr fun hblank => ?_⟩
    have hnot := List.all_eq_true.mp hp x (mem_blankChars hblank)
    rw [hx] at hnot
    cases hnot
  | seq first second ihfirst ihsecond =>
    obtain ⟨a, b, rfl, hfirst, hsecond⟩ := h
    rcases Bool.or_eq_true_iff.mp hp with hp | hp
    · obtain ⟨c, hc, hvisible⟩ := ihsecond hp hsecond
      exact ⟨c, List.mem_append_right _ hc, hvisible⟩
    · obtain ⟨c, hc, hvisible⟩ := ihfirst hp hfirst
      exact ⟨c, List.mem_append_left _ hc, hvisible⟩
  | choice first second ihfirst ihsecond =>
    have hboth := Bool.and_eq_true_iff.mp hp
    exact h.elim (ihfirst hboth.1) (ihsecond hboth.2)
  | group index body ih => exact ih hp h
  | empty => cases hp
  | textStart => cases hp
  | lineStart => cases hp
  | textEnd => cases hp
  | wordEdge => cases hp
  | repeated greedy body _ => cases hp

/-- Such a pattern finds nothing in white space. -/
theorem find?_of_isBlankLine {p : Pattern} (hp : p.isVisible = true) {text : List Char}
    (h : isBlankLine text = true) : p.find? text = none := by
  rw [find?_eq_none_iff]
  rintro before stretch rest rfl hfits
  obtain ⟨c, hc, hvisible⟩ := exists_visible_of_fits hp hfits
  have hblank := List.all_eq_true.mp h c (by simp [hc])
  rw [hvisible] at hblank
  cases hblank

theorem isIn_of_isBlankLine {p : Pattern} (hp : p.isVisible = true) {text : List Char}
    (h : isBlankLine text = true) : p.isIn text = false := by
  rw [isIn, find?_of_isBlankLine hp h]
  rfl

theorem findAll_of_isBlankLine {p : Pattern} (hp : p.isVisible = true) {text : List Char}
    (h : isBlankLine text = true) : p.findAll text = [] := by
  have hnone : p.searchFrom none 0 text = none := find?_of_isBlankLine hp h
  simp only [findAll, matchesFrom, Cursor.start, hnone]

/-! ## Surroundings -/

/-- Does no part of the pattern take the character? -/
def avoids (c : Char) : Pattern → Bool
  | one accepts => !accepts c
  | seq first second => first.avoids c && second.avoids c
  | choice first second => first.avoids c && second.avoids c
  | repeated _ body => body.avoids c
  | group _ body => body.avoids c
  | _ => true

theorem notMem_of_fits {p : Pattern} {c : Char} (hp : p.avoids c = true) {previous : Option Char}
    {stretch rest : List Char} (h : p.Fits previous stretch rest) : c ∉ stretch := by
  induction p generalizing previous stretch rest with
  | one accepts =>
    obtain ⟨x, rfl, hx⟩ := h
    rw [List.mem_singleton]
    rintro rfl
    rw [avoids, hx] at hp
    cases hp
  | seq first second ihfirst ihsecond =>
    obtain ⟨a, b, rfl, hfirst, hsecond⟩ := h
    have hboth := Bool.and_eq_true_iff.mp hp
    rw [List.mem_append, not_or]
    exact ⟨ihfirst hboth.1 hfirst, ihsecond hboth.2 hsecond⟩
  | choice first second ihfirst ihsecond =>
    have hboth := Bool.and_eq_true_iff.mp hp
    exact h.elim (ihfirst hboth.1) (ihsecond hboth.2)
  | repeated greedy body ih =>
    change Rounds _ previous stretch rest at h
    induction h with
    | stop => exact List.not_mem_nil
    | round _ hfirst _ ihmore =>
      rw [List.mem_append, not_or]
      exact ⟨ih hp hfirst, ihmore⟩
  | group index body ih => exact ih hp h
  | empty => rw [h]; exact List.not_mem_nil
  | textStart => rw [h.1]; exact List.not_mem_nil
  | lineStart => rw [h.1]; exact List.not_mem_nil
  | textEnd => rw [h.1]; exact List.not_mem_nil
  | wordEdge => rw [h.1]; exact List.not_mem_nil

/-- Does the pattern ask nowhere for the start of a text or of a line? -/
def isFree : Pattern → Bool
  | textStart | lineStart => false
  | seq first second => first.isFree && second.isFree
  | choice first second => first.isFree && second.isFree
  | repeated _ body => body.isFree
  | group _ body => body.isFree
  | _ => true

/-- Such a pattern sees of the text around a stretch whether a word ends there, and what comes
    next. -/
theorem fits_congr {p : Pattern} (hp : p.isFree = true) {previous previous' : Option Char}
    {stretch rest rest' : List Char} (hprevious : previous.any isWord = previous'.any isWord)
    (hrest : rest.head? = rest'.head?) (h : p.Fits previous stretch rest) :
    p.Fits previous' stretch rest' := by
  have hlast : ∀ (a : List Char) {previous previous' : Option Char},
      previous.any isWord = previous'.any isWord →
      (a.getLast?.or previous).any isWord = (a.getLast?.or previous').any isWord := by
    intro a previous previous' h
    cases a.getLast? <;> simp [h]
  have hhead : ∀ (b : List Char) {rest rest' : List Char}, rest.head? = rest'.head? →
      (b ++ rest).head? = (b ++ rest').head? := by
    intro b rest rest' h
    rw [List.head?_append, List.head?_append, h]
  induction p generalizing previous previous' stretch rest rest' with
  | empty => exact h
  | one accepts => exact h
  | textStart => cases hp
  | lineStart => cases hp
  | textEnd =>
    refine ⟨h.1, ?_⟩
    rw [h.2] at hrest
    exact List.head?_eq_none_iff.mp hrest.symm
  | wordEdge => exact ⟨h.1, by rw [← hprevious, ← hrest]; exact h.2⟩
  | seq first second ihfirst ihsecond =>
    obtain ⟨a, b, hstretch, hfirst, hsecond⟩ := h
    have hboth := Bool.and_eq_true_iff.mp hp
    exact ⟨a, b, hstretch, ihfirst hboth.1 hprevious (hhead b hrest) hfirst,
      ihsecond hboth.2 (hlast a hprevious) hrest hsecond⟩
  | choice first second ihfirst ihsecond =>
    have hboth := Bool.and_eq_true_iff.mp hp
    exact h.imp (ihfirst hboth.1 hprevious hrest) (ihsecond hboth.2 hprevious hrest)
  | repeated greedy body ih =>
    change Rounds _ previous stretch rest at h
    change Rounds _ previous' stretch rest'
    induction h generalizing previous' with
    | stop => exact .stop
    | @round previous first more rest hne hfirst _ ihmore =>
      exact .round hne (ih hp hprevious (hhead more hrest) hfirst)
        (ihmore (hlast first hprevious) hrest)
  | group index body ih => exact ih hp hprevious hrest h

end Pattern

end CodeAudit
