import CodeAudit.Proofs.CataloguedIssues
import CodeAudit.Proofs.PostedForms

/-!
# Forms apart from each other

The check of forms goes through a template line by line and, on each line, from the start of a form
to its end and on to the next start. Between two forms nothing is handed on: where no form and no
comment is open, a template may be taken apart, and what is reported about it is what is reported
about its parts. This holds between two lines, and within a line after a closing bracket, since
neither the start nor the end of a form reaches over one, nor does a marker of comments.

Results:
* `scans_iff`: the scan of a line ends, with what `readLine` gives.
* `Scans.append`: a scan that ends outside of forms goes on as a new one.
* `readLines_append`, `readLines_split`: what is reported about two parts of a template.
* `apart_bodies`: the forms of a template do not overlap.
* `run_separates_forms`: all of it together, with the lines and rules that are reported.
-/

namespace CodeAudit

open Text

/-! ## Cuts in two texts -/

namespace Text

/-- Is a text empty, or ends it in a closing bracket? -/
def Bracketed (text : List Char) : Prop := ∀ c ∈ text.getLast?, c = '>'

theorem Bracketed.of_append {before text : List Char} (h : Bracketed (before ++ text)) :
    Bracketed text := by
  intro c hc
  apply h c
  rw [Option.mem_def] at hc
  rw [List.getLast?_append, hc]
  rfl

theorem Bracketed.tail {c : Char} {text : List Char} (h : Bracketed (c :: text)) :
    Bracketed text := by
  rw [← List.singleton_append] at h
  exact h.of_append

theorem bracketed_of_getLast? {text : List Char} (h : text.getLast? = some '>') :
    Bracketed text := by
  intro c hc
  rw [h] at hc
  exact (Option.some.inj hc).symm

theorem Bracketed.exists_eq {text : List Char} (h : Bracketed text) (hne : text ≠ []) :
    ∃ before, text = before ++ ['>'] := by
  have hlast : text.getLast hne = '>' := h _ (List.getLast?_eq_some_getLast hne)
  exact ⟨text.dropLast, by rw [← hlast, List.dropLast_concat_getLast hne]⟩

/-- The first occurrence of a word is the first one whatever follows. -/
theorem cut?_append_of_some {word text : List Char} {parts : List Char × List Char}
    (h : cut? word text = some parts) (tail : List Char) :
    cut? word (text ++ tail) = some (parts.1, parts.2 ++ tail) := by
  induction text generalizing parts with
  | nil =>
    rw [cut?] at h
    split at h
    · rename_i hword
      cases h
      rw [List.isEmpty_iff.mp hword]
      cases tail <;> rfl
    · cases h
  | cons c text ih =>
    rw [cut?] at h
    rw [List.cons_append, cut?]
    split at h
    · rename_i hinit
      rw [List.isPrefixOf_iff_prefix] at hinit
      have hlonger : word.isPrefixOf (c :: (text ++ tail)) = true :=
        List.isPrefixOf_iff_prefix.mpr (hinit.trans (List.prefix_append (c :: text) tail))
      cases h
      rw [if_pos hlonger, ← List.cons_append, List.drop_append_of_le_length hinit.length_le]
    · rename_i hinit
      obtain ⟨later, hlater, rfl⟩ := Option.map_eq_some_iff.mp h
      have hlength := congrArg List.length (Source.append_of_cut? hlater)
      simp only [List.length_append] at hlength
      -- the word is shorter than the text, so it would begin the text
      have hshort : ¬ word.isPrefixOf (c :: (text ++ tail)) = true := by
        rw [List.isPrefixOf_iff_prefix] at hinit ⊢
        intro hlonger
        have htext : c :: text <+: c :: (text ++ tail) := List.prefix_append (c :: text) tail
        refine hinit (List.prefix_of_prefix_length_le hlonger htext ?_)
        rw [List.length_cons]
        omega
      rw [if_neg hshort, ih hlater]
      rfl

/-- A word without a closing bracket does not reach over one. -/
theorem cut?_append_of_none {word text : List Char} (hword : '>' ∉ word) (htext : Bracketed text)
    (h : cut? word text = none) (tail : List Char) :
    cut? word (text ++ tail) = (cut? word tail).map fun parts => (text ++ parts.1, parts.2) := by
  induction text with
  | nil => simp
  | cons c text ih =>
    rw [cut?] at h
    split at h
    · cases h
    · rename_i hinit
      rw [List.isPrefixOf_iff_prefix] at hinit
      obtain ⟨before, hbefore⟩ := htext.exists_eq (List.cons_ne_nil _ _)
      have hlonger : ¬ word.isPrefixOf (c :: (text ++ tail)) = true := by
        rw [List.isPrefixOf_iff_prefix, ← List.cons_append, hbefore, List.append_assoc]
        intro hover
        have hshort : word <+: before := isPrefix_of_isPrefix_append (by simpa using hword) hover
        apply hinit
        rw [hbefore]
        exact hshort.trans (List.prefix_append _ _)
      have hlater := ih htext.tail (Option.map_eq_none_iff.mp h)
      rw [List.cons_append, cut?, if_neg hlonger, hlater, Option.map_map]
      rfl

end Text

namespace Pattern

/-- Does `after?` lead from a place to another without reaching over a closing bracket? -/
def WithinBracket (after? : List Char → Option (List Char)) : Prop :=
  after? [] = none ∧ ∀ before tail,
    after? (before ++ '>' :: tail) = (after? (before ++ ['>'])).map (· ++ tail)

section Within

variable {after? : List Char → Option (List Char)} {text : List Char}

theorem WithinBracket.append (h : WithinBracket after?) (htext : Bracketed text) (hne : text ≠ [])
    (tail : List Char) : after? (text ++ tail) = (after? text).map (· ++ tail) := by
  obtain ⟨before, rfl⟩ := htext.exists_eq hne
  rw [List.append_assoc]
  exact h.2 before tail

theorem cutWhere_append_of_some (hwithin : WithinBracket after?) (htext : Bracketed text)
    {parts : List Char × List Char} (h : cutWhere after? text = some parts) (tail : List Char) :
    cutWhere after? (text ++ tail) = some (parts.1, parts.2 ++ tail) := by
  induction text generalizing parts with
  | nil =>
    rw [cutWhere, hwithin.1] at h
    cases h
  | cons c text ih =>
    have hhere := hwithin.append htext (List.cons_ne_nil _ _) tail
    rw [cutWhere] at h
    rw [List.cons_append, cutWhere, ← List.cons_append, hhere]
    cases hafter : after? (c :: text) with
    | some rest =>
      rw [hafter] at h
      cases h
      rfl
    | none =>
      rw [hafter] at h
      obtain ⟨later, hlater, rfl⟩ := Option.map_eq_some_iff.mp h
      rw [Option.map_none, ih htext.tail hlater]
      rfl

theorem cutWhere_append_of_none (hwithin : WithinBracket after?) (htext : Bracketed text)
    (h : cutWhere after? text = none) (tail : List Char) :
    cutWhere after? (text ++ tail) =
      (cutWhere after? tail).map fun parts => (text ++ parts.1, parts.2) := by
  induction text with
  | nil => simp
  | cons c text ih =>
    have hhere := hwithin.append htext (List.cons_ne_nil _ _) tail
    rw [cutWhere] at h
    rw [List.cons_append, cutWhere, ← List.cons_append, hhere]
    cases hafter : after? (c :: text) with
    | some rest =>
      rw [hafter] at h
      cases h
    | none =>
      rw [hafter] at h
      have hlater := ih htext.tail (Option.map_eq_none_iff.mp h)
      rw [Option.map_none, hlater, Option.map_map]
      rfl

end Within

end Pattern

/-! ## Comments -/

namespace Source

/-- A marker of comments holds no closing bracket. -/
theorem bracket_notMem_templateMarker (inside : Bool) : '>' ∉ templateMarker inside := by
  cases inside <;> decide

theorem blanked_append (before after : List Char) :
    blanked (before ++ after) = blanked before ++ blanked after := by
  rw [blanked, byteLength_append, ← List.replicate_append_replicate]
  rfl

theorem blankComments_of_none {inside : Bool} {line : List Char}
    (h : cut? (templateMarker inside) line = none) :
    blankComments inside line = (if inside then blanked line else line, inside) := by
  rw [blankComments]
  split <;> simp_all

theorem blankComments_of_some {inside : Bool} {line : List Char} {parts : List Char × List Char}
    (h : cut? (templateMarker inside) line = some parts) :
    blankComments inside line =
      ((if inside then blanked parts.1 else parts.1) ++ List.replicate 4 ' ' ++
        (blankComments (!inside) parts.2).1, (blankComments (!inside) parts.2).2) := by
  rw [blankComments]
  split
  · simp_all
  · rename_i before rest hcut
    obtain rfl : (before, rest) = parts := Option.some.inj (hcut.symm.trans h)
    rfl

/-- Comments may be blanked in two parts of a line, one after the other. -/
theorem blankComments_append {inside : Bool} {line : List Char} (hline : Bracketed line)
    (rest : List Char) :
    blankComments inside (line ++ rest) =
      ((blankComments inside line).1 ++ (blankComments (blankComments inside line).2 rest).1,
        (blankComments (blankComments inside line).2 rest).2) := by
  fun_induction blankComments inside line with
  | case1 inside line hcut =>
    have hboth := cut?_append_of_none (bracket_notMem_templateMarker inside) hline hcut rest
    cases hrest : cut? (templateMarker inside) rest with
    | none =>
      rw [hrest] at hboth
      rw [blankComments_of_none hboth, blankComments_of_none hrest, blanked_append]
      cases inside <;> rfl
    | some parts =>
      rw [hrest] at hboth
      rw [blankComments_of_some hboth, blankComments_of_some hrest, blanked_append]
      cases inside <;> simp
  | case2 inside line before after hcut later ih =>
    have hboth := cut?_append_of_some hcut rest
    have hafter : Bracketed after := by
      rw [← append_of_cut? hcut] at hline
      exact hline.of_append.of_append
    rw [blankComments_of_some hboth, ih hafter]
    simp only [List.append_assoc, later]

/-- A closing bracket outside of comments stays. -/
theorem getLast?_blankComments {inside : Bool} {line : List Char}
    (houtside : (blankComments inside line).2 = false) (hline : line.getLast? = some '>') :
    (blankComments inside line).1.getLast? = some '>' := by
  fun_induction blankComments inside line with
  | case1 inside line hcut =>
    cases inside with
    | true => cases houtside
    | false => exact hline
  | case2 inside line before after hcut later ih =>
    have hafter : after.getLast? = some '>' := by
      rw [← append_of_cut? hcut, ← List.append_assoc, List.getLast?_append] at hline
      cases hlast : after.getLast? with
      | some c => rwa [hlast, Option.some_or] at hline
      | none =>
        -- else it would be the end of the marker
        have hmarker : ∃ c, (templateMarker inside).getLast? = some c ∧ c ≠ '>' := by
          cases inside
          · exact ⟨'-', rfl, by decide⟩
          · exact ⟨'\x7d', rfl, by decide⟩
        obtain ⟨c, hc, hne⟩ := hmarker
        rw [hlast, Option.none_or, List.getLast?_append, hc, Option.some_or] at hline
        exact absurd (Option.some.inj hline) hne
    rw [List.getLast?_append, ih houtside hafter]
    rfl

/-- Is a comment open after lines, if one is open before them or not? -/
def commentAfter (inside : Bool) : List (List Char) → Bool
  | [] => inside
  | line :: rest => commentAfter (blankComments inside line).2 rest

theorem blankTemplateFrom_append (inside : Bool) (before after : List (List Char)) :
    blankTemplateFrom inside (before ++ after) =
      blankTemplateFrom inside before ++ blankTemplateFrom (commentAfter inside before) after := by
  induction before generalizing inside with
  | nil => rfl
  | cons line before ih =>
    simp only [List.cons_append, blankTemplateFrom, commentAfter, ih]

theorem commentAfter_append (inside : Bool) (before after : List (List Char)) :
    commentAfter inside (before ++ after) = commentAfter (commentAfter inside before) after := by
  induction before generalizing inside with
  | nil => rfl
  | cons line before ih =>
    simp only [List.cons_append, commentAfter, ih]

end Source

namespace Check.Form

open Pattern Source

/-! ## Starts and ends of forms -/

theorem afterWord?_bracket {word : List Char} (hword : '>' ∉ word) (before tail : List Char) :
    afterWord? word (before ++ '>' :: tail) =
      (afterWord? word (before ++ ['>'])).map (· ++ tail) := by
  by_cases hlength : word.length ≤ before.length
  · simp only [afterWord?, List.take_append_of_le_length hlength,
      List.drop_append_of_le_length hlength]
    split
    · simp
    · rfl
  · -- the bracket would be part of the word
    have hover : ∀ tail, afterWord? word (before ++ '>' :: tail) = none := by
      intro tail
      rw [afterWord?, if_neg]
      intro hmap
      apply hword
      rw [← hmap]
      have hmem : '>' ∈ (before ++ '>' :: tail).take word.length := by
        rw [List.take_append, List.mem_append]
        obtain ⟨n, hn⟩ := Nat.exists_eq_succ_of_ne_zero
          (show word.length - before.length ≠ 0 by omega)
        rw [hn, List.take_succ_cons]
        exact .inr List.mem_cons_self
      exact List.mem_map.mpr ⟨'>', hmem, by decide⟩
    rw [hover, hover]
    rfl

/-- What follows a word that holds no closing bracket ends with the bracket that the text ends
    with. -/
theorem exists_of_afterWord?_bracket {word before rest : List Char} (hword : '>' ∉ word)
    (h : afterWord? word (before ++ ['>']) = some rest) : ∃ gap, rest = gap ++ ['>'] := by
  obtain ⟨stretch, htext, hmap⟩ := afterWord?_eq_some_iff.mp h
  have hbracketed : Bracketed (stretch ++ rest) := by
    rw [← htext]
    simp [Bracketed]
  apply hbracketed.of_append.exists_eq
  rintro rfl
  rw [List.append_nil] at htext
  apply hword
  rw [← hmap, ← htext]
  exact List.mem_map.mpr ⟨'>', by simp, by decide⟩

theorem withinBracket_afterStart? : WithinBracket afterStart? := by
  refine ⟨rfl, fun before tail => ?_⟩
  have hword : '>' ∉ "<form".toList := by decide
  rw [afterStart?, afterStart?, afterWord?_bracket hword]
  cases hafter : afterWord? "<form".toList (before ++ ['>']) with
  | none => rfl
  | some rest =>
    obtain ⟨gap, rfl⟩ := exists_of_afterWord?_bracket hword hafter
    have hhead : (gap ++ ['>'] ++ tail).head? = (gap ++ ['>']).head? := by
      cases gap <;> rfl
    rw [Option.map_some, Option.filter_some, Option.filter_some, hhead]
    split <;> rfl

theorem afterBracket?_bracket (gap tail : List Char) :
    afterBracket? (gap ++ ['>'] ++ tail) = (afterBracket? (gap ++ ['>'])).map (· ++ tail) := by
  induction gap with
  | nil => rfl
  | cons c gap ih =>
    simp only [List.cons_append, afterBracket?] at ih ⊢
    by_cases hblank : isBlank c = true
    · rw [List.dropWhile_cons_of_pos hblank, List.dropWhile_cons_of_pos hblank]
      exact ih
    · rw [List.dropWhile_cons_of_neg hblank, List.dropWhile_cons_of_neg hblank]
      by_cases hc : c = '>'
      · subst hc
        rfl
      · simp [hc]

theorem withinBracket_afterEnd? : WithinBracket afterEnd? := by
  refine ⟨rfl, fun before tail => ?_⟩
  have hword : '>' ∉ "</form".toList := by decide
  rw [afterEnd?, afterEnd?, afterWord?_bracket hword]
  cases hafter : afterWord? "</form".toList (before ++ ['>']) with
  | none => rfl
  | some rest =>
    obtain ⟨gap, rfl⟩ := exists_of_afterWord?_bracket hword hafter
    exact afterBracket?_bracket gap tail

/-! ## The scan of a line -/

/-- The scan of a line, from one start or end of a form to the next: the form that is open before
    it, the line, the findings, and the form that stays open. -/
inductive Scans (s : Subject) (row : Nat) :
    Option OpenForm → List Char → List Issue → Option OpenForm → Prop
  | outside {text : List Char} (hstart : cutWhere afterStart? text = none) :
    Scans s row none text [] none
  | enters {text : List Char} {parts : List Char × List Char} {issues : List Issue}
    {last : Option OpenForm} (hstart : cutWhere afterStart? text = some parts)
    (hform : Scans s row (some ((OpenForm.entered row).extendTag parts.2)) parts.2 issues last) :
    Scans s row none text issues last
  | inside {form : OpenForm} {text : List Char} (hend : cutWhere afterEnd? text = none) :
    Scans s row (some form) text [] (some (form.readBody text))
  | leaves {form : OpenForm} {text : List Char} {parts : List Char × List Char}
    {issues : List Issue} {last : Option OpenForm} (hend : cutWhere afterEnd? text = some parts)
    (hlater : Scans s row none parts.2 issues last) :
    Scans s row (some form) text ((form.readBody parts.1).issues s ++ issues) last

section Scans

variable {s : Subject} {row : Nat} {form : Option OpenForm} {text : List Char}

theorem scans_readLine (s : Subject) (row : Nat) (form : Option OpenForm) (text : List Char) :
    Scans s row form text (readLine s row (text.length + 1) form text).1
      (readLine s row (text.length + 1) form text).2 := by
  cases form with
  | none =>
    cases hstart : cutWhere afterStart? text with
    | none =>
      rw [readLine_none, hstart]
      exact .outside hstart
    | some parts =>
      have hshorter := length_of_cutWhere_afterStart? hstart
      rw [readLine_enter s hstart]
      exact .enters hstart (scans_readLine s row _ parts.2)
  | some form =>
    cases hend : cutWhere afterEnd? text with
    | none =>
      rw [readLine_some, hend]
      exact .inside hend
    | some parts =>
      have hshorter := length_of_cutWhere_afterEnd? hend
      rw [readLine_leave s hend]
      exact .leaves hend (scans_readLine s row none parts.2)
termination_by text.length

/-- The scan of a line ends in one way. -/
theorem scans_iff {issues : List Issue} {last : Option OpenForm} :
    Scans s row form text issues last ↔
      readLine s row (text.length + 1) form text = (issues, last) := by
  constructor
  · intro h
    induction h with
    | outside hstart => rw [readLine_none, hstart]
    | enters hstart _ ih => rw [readLine_enter s hstart, ih]
    | inside hend => rw [readLine_some, hend]
    | leaves hend _ ih => rw [readLine_leave s hend, ih]
  · intro h
    have hscan := scans_readLine s row form text
    rwa [h] at hscan

/-- A form that is left ends in a closing bracket. -/
theorem Scans.bracket_mem {form : OpenForm} {issues : List Issue}
    (h : Scans s row (some form) text issues none) : '>' ∈ text := by
  cases h with
  | leaves hend _ =>
    obtain ⟨stop, rfl⟩ := exists_of_cutWhere_afterEnd? hend
    simp

theorem extendTag_append (form : OpenForm) (h : '>' ∈ text) (tail : List Char) :
    form.extendTag (text ++ tail) = form.extendTag text := by
  obtain ⟨before, after, rfl, hbefore⟩ := List.eq_append_cons_of_mem h
  rw [OpenForm.extendTag, OpenForm.extendTag, List.append_assoc, List.cons_append,
    cut?_append_cons hbefore, cut?_append_cons hbefore]

/-- A scan that ends outside of forms, after a closing bracket, goes on as if it began there. -/
theorem Scans.append {tail : List Char} {issues later : List Issue} {last : Option OpenForm}
    (htext : Bracketed text) (h : Scans s row form text issues none)
    (htail : Scans s row none tail later last) :
    Scans s row form (text ++ tail) (issues ++ later) last := by
  generalize hclosed : (none : Option OpenForm) = closed at h
  induction h with
  | @outside text hstart =>
    have hboth := cutWhere_append_of_none withinBracket_afterStart? htext hstart tail
    cases htail with
    | outside hnone =>
      rw [hnone] at hboth
      exact .outside hboth
    | enters hsome hform =>
      rw [hsome] at hboth
      exact .enters hboth hform
  | @enters text parts issues _ hstart hform ih =>
    subst hclosed
    have hboth := cutWhere_append_of_some withinBracket_afterStart? htext hstart tail
    refine .enters hboth ?_
    rw [extendTag_append _ hform.bracket_mem]
    refine ih ?_ rfl
    obtain ⟨start, rfl, -⟩ := exists_of_cutWhere_afterStart? hstart
    exact htext.of_append
  | inside => cases hclosed
  | @leaves form text parts issues _ hend hlater ih =>
    have hboth := cutWhere_append_of_some withinBracket_afterEnd? htext hend tail
    have hrest : Bracketed parts.2 := by
      obtain ⟨stop, rfl⟩ := exists_of_cutWhere_afterEnd? hend
      rw [List.append_cons] at htext
      exact htext.of_append
    have hleft : Scans s row (some form) (text ++ tail) _ last := .leaves hboth (ih hrest hclosed)
    rw [List.append_assoc]
    exact hleft

end Scans

/-! ## Lines one after the other -/

section Lines

variable (s : Subject) {form : Option OpenForm}

/-- The form that is open after lines, given the one that is open before them. -/
def formAfter (form : Option OpenForm) : List Piece → Option OpenForm
  | [] => form
  | (row, line) :: rest =>
    formAfter (readLine s row (line.length + 1) (form.map fun form => form.extendTag line) line).2
      rest

/-- Where no form is open, a template may be taken apart. -/
theorem readLines_append {before : List Piece} (h : formAfter s form before = none)
    (later : List Piece) :
    readLines s form (before ++ later) = readLines s form before ++ readLines s none later := by
  induction before generalizing form with
  | nil =>
    obtain rfl : form = none := h
    rfl
  | cons piece before ih =>
    rw [formAfter] at h
    simp only [List.cons_append, readLines, ih h, List.append_assoc]

/-- So may a line, after a closing bracket. -/
theorem readLines_split {before : List Piece} {row : Nat} {text : List Char}
    (hbracket : text.getLast? = some '>')
    (h : formAfter s form (before ++ [(row, text)]) = none) (tail : List Char)
    (later : List Piece) :
    readLines s form (before ++ (row, text ++ tail) :: later) =
      readLines s form (before ++ [(row, text)]) ++ readLines s none ((row, tail) :: later) := by
  induction before generalizing form with
  | nil =>
    have hmem : '>' ∈ text := List.mem_of_getLast? hbracket
    have htag : (form.map fun form => form.extendTag (text ++ tail)) =
        form.map fun form => form.extendTag text := by
      cases form with
      | none => rfl
      | some form => rw [Option.map_some, extendTag_append form hmem]; rfl
    have hfirst := scans_readLine s row (form.map fun form => form.extendTag text) text
    rw [List.nil_append, formAfter, formAfter] at h
    rw [h] at hfirst
    have hscan := scans_readLine s row none tail
    have hboth := scans_iff.mp (hfirst.append (bracketed_of_getLast? hbracket) hscan)
    simp only [List.nil_append, readLines, htag, hboth, h, Option.map_none, List.append_nil,
      List.append_assoc]
  | cons piece before ih =>
    rw [List.cons_append, formAfter] at h
    simp only [List.cons_append, readLines, ih h, List.append_assoc]

end Lines

/-! ## Numbers of lines -/

/-- Lines with their numbers, from a given one on. -/
def numbered (first : Nat) (lines : List (List Char)) : List Piece :=
  (lines.zipIdx first).map fun entry => (entry.2, entry.1)

theorem numbered_append (first : Nat) (before later : List (List Char)) :
    numbered first (before ++ later) =
      numbered first before ++ numbered (first + before.length) later := by
  rw [numbered, List.zipIdx_append, List.map_append]
  rfl

theorem le_of_mem_numbered {first : Nat} {lines : List (List Char)} {piece : Piece}
    (h : piece ∈ numbered first lines) : first ≤ piece.1 := by
  obtain ⟨entry, hentry, rfl⟩ := List.mem_map.mp h
  exact List.le_snd_of_mem_zipIdx hentry

/-- A piece as many lines further down. -/
def lowerPiece (n : Nat) (piece : Piece) : Piece := (piece.1 + n, piece.2)

theorem numbered_add (first n : Nat) (lines : List (List Char)) :
    numbered (first + n) lines = (numbered first lines).map (lowerPiece n) := by
  induction lines generalizing first with
  | nil => rfl
  | cons line lines ih =>
    have hnext := ih (first + 1)
    rw [Nat.add_right_comm] at hnext
    exact congrArg (List.cons (first + n, line)) hnext

/-- A form as many lines further down. -/
def FormText.lower (n : Nat) (f : FormText) : FormText := { f with row := f.row + n }

section Rows

variable {pieces later : List Piece} {first : Piece}

theorem enterForm_map_lower (n : Nat) (pieces : List Piece) :
    enterForm (pieces.map (lowerPiece n)) = (enterForm pieces).map fun entered =>
      (lowerPiece n entered.1, entered.2.map (lowerPiece n)) := by
  fun_induction enterForm pieces with
  | case1 => rfl
  | case2 row text later parts hcut => simp [lowerPiece, enterForm, hcut]
  | case3 row text later hcut ih =>
    rw [← ih]
    simp [lowerPiece, enterForm, hcut]

theorem leaveForm_map_lower (n : Nat) (pieces : List Piece) :
    leaveForm (pieces.map (lowerPiece n)) =
      ((leaveForm pieces).1, (leaveForm pieces).2.map (lowerPiece n)) := by
  fun_induction leaveForm pieces with
  | case1 => rfl
  | case2 row text later parts hcut => simp [lowerPiece, leaveForm, hcut]
  | case3 row text later hcut ih => simp [lowerPiece, leaveForm, hcut, ih]

/-- Forms further down are the same forms. -/
theorem formTexts_map_lower (n : Nat) (pieces : List Piece) :
    formTexts (pieces.map (lowerPiece n)) = (formTexts pieces).map (FormText.lower n) := by
  fun_induction formTexts pieces with
  | case1 pieces henter =>
    have hlower := enterForm_map_lower n pieces
    rw [henter] at hlower
    exact formTexts_of_none hlower
  | case2 pieces first later henter ih =>
    have hlower := enterForm_map_lower n pieces
    have hleave := leaveForm_map_lower n (first :: later)
    rw [henter] at hlower
    rw [List.map_cons] at hleave
    rw [formTexts_of_some hlower, hleave, ih, List.map_cons, formBefore, hleave, List.map_cons,
      List.map_map]
    rfl

/-- A form starts on a line of the template. -/
theorem forall_row_enterForm {P : Nat → Prop} (h : ∀ piece ∈ pieces, P piece.1)
    (henter : enterForm pieces = some (first, later)) : ∀ piece ∈ first :: later, P piece.1 := by
  fun_induction enterForm pieces with
  | case1 => cases henter
  | case2 row text later parts hcut =>
    cases henter
    rw [List.forall_mem_cons] at h ⊢
    exact h
  | case3 row text later hcut ih => exact ih (List.forall_mem_cons.mp h).2 henter

theorem forall_row_leaveForm {P : Nat → Prop} (h : ∀ piece ∈ pieces, P piece.1) :
    ∀ piece ∈ (leaveForm pieces).2, P piece.1 := by
  fun_induction leaveForm pieces with
  | case1 => exact h
  | case2 row text later parts hcut =>
    rw [List.forall_mem_cons] at h ⊢
    exact h
  | case3 row text later hcut ih => exact ih (List.forall_mem_cons.mp h).2

theorem forall_row_formTexts {P : Nat → Prop} (h : ∀ piece ∈ pieces, P piece.1) :
    ∀ f ∈ formTexts pieces, P f.row := by
  fun_induction formTexts pieces with
  | case1 => exact List.forall_mem_nil _
  | case2 pieces first later henter ih =>
    have hrows := forall_row_enterForm h henter
    exact List.forall_mem_cons.mpr ⟨hrows first List.mem_cons_self, ih (forall_row_leaveForm hrows)⟩

end Rows

/-! ## What is reported where -/

/-- The line of an issue, and the name of its rule. -/
def spot (i : Issue) : Nat × String := (i.line, i.ruleName)

/-- A line and a rule, as many lines further down. -/
def lowerSpot (n : Nat) (place : Nat × String) : Nat × String := (place.1 + n, place.2)

/-- The lines and the rules that are reported depend on the pieces only. -/
theorem map_spot_readLines (s : Subject) (pieces : List Piece) :
    (readLines s none pieces).map spot = ((formTexts pieces).filter fun f =>
      f.Unprotected ∧ CarriesPost (untilBracket f.tag)).map fun f =>
        (max f.row 1, Rule.missingCsrf.name) := by
  rw [readLines_none_eq, List.map_map]
  rfl

theorem map_spot_readLines_lower (s : Subject) {pieces : List Piece}
    (hrows : ∀ piece ∈ pieces, 1 ≤ piece.1) (n : Nat) :
    (readLines s none (pieces.map (lowerPiece n))).map spot =
      ((readLines s none pieces).map spot).map (lowerSpot n) := by
  rw [map_spot_readLines, map_spot_readLines, formTexts_map_lower, List.filter_map, List.map_map,
    List.map_map]
  refine List.map_congr_left fun f hf => ?_
  have hrow := forall_row_formTexts hrows f (List.mem_filter.mp hf).1
  show (max (f.row + n) 1, _) = (max f.row 1 + n, _)
  congr 1
  omega

/-- The subject with other lines. -/
def withTexts (s : Subject) (texts : List (List Char)) : Subject := { s with texts }

theorem templateLines_withTexts (s : Subject) (texts : List (List Char)) :
    (withTexts s texts).templateLines = numbered 1 (blankTemplateFrom false texts) := rfl

/-- The lines and the rules that are reported about lines. -/
def spots (s : Subject) (texts : List (List Char)) : List (Nat × String) :=
  (run (withTexts s texts)).map spot

theorem spots_eq (s : Subject) (texts : List (List Char)) :
    spots s texts = (readLines s none (numbered 1 (blankTemplateFrom false texts))).map spot := by
  rw [map_spot_readLines, ← map_spot_readLines (withTexts s texts)]
  rfl

theorem map_spot_readLines_numbered (s : Subject) (n : Nat) (lines : List (List Char)) :
    (readLines s none (numbered (1 + n) lines)).map spot =
      ((readLines s none (numbered 1 lines)).map spot).map (lowerSpot n) := by
  rw [numbered_add]
  exact map_spot_readLines_lower s (fun _ hpiece => le_of_mem_numbered hpiece) n

section Parts

variable {s : Subject} {before : List (List Char)}

/-- Lines after which neither a form nor a comment is open may be taken apart from those that
    follow. -/
theorem spots_append (hcomment : commentAfter false before = false)
    (hform : formAfter s none (withTexts s before).templateLines = none)
    (later : List (List Char)) :
    spots s (before ++ later) =
      spots s before ++ (spots s later).map (lowerSpot before.length) := by
  rw [templateLines_withTexts] at hform
  rw [spots_eq, spots_eq, spots_eq, blankTemplateFrom_append, hcomment, numbered_append,
    length_blankTemplateFrom, readLines_append s hform, List.map_append,
    map_spot_readLines_numbered]

/-- So may the rest of a line, after a closing bracket. -/
theorem spots_split {line : List Char} (hbracket : line.getLast? = some '>')
    (hcomment : commentAfter false (before ++ [line]) = false)
    (hform : formAfter s none (withTexts s (before ++ [line])).templateLines = none)
    (rest : List Char) (later : List (List Char)) :
    spots s (before ++ (line ++ rest) :: later) =
      spots s (before ++ [line]) ++ (spots s (rest :: later)).map (lowerSpot before.length) := by
  rw [commentAfter_append, commentAfter, commentAfter] at hcomment
  -- the last line, with its comments blanked
  generalize hkept : blankComments (commentAfter false before) line = kept at hcomment
  have hlast : kept.1.getLast? = some '>' := by
    rw [← hkept]
    exact getLast?_blankComments (by rw [hkept, hcomment]) hbracket
  have hfirst : blankTemplateFrom false (before ++ [line]) =
      blankTemplateFrom false before ++ [kept.1] := by
    rw [blankTemplateFrom_append, blankTemplateFrom, blankTemplateFrom, hkept]
  have hline : Bracketed line := bracketed_of_getLast? hbracket
  have hboth : blankTemplateFrom false (before ++ (line ++ rest) :: later) =
      blankTemplateFrom false before ++ (kept.1 ++ (blankComments false rest).1) ::
        blankTemplateFrom (blankComments false rest).2 later := by
    rw [blankTemplateFrom_append, blankTemplateFrom, blankComments_append hline, hkept, hcomment]
  rw [templateLines_withTexts, hfirst, numbered_append, length_blankTemplateFrom] at hform
  have hsplit := readLines_split s hlast hform (blankComments false rest).1
    (numbered (1 + before.length + 1) (blankTemplateFrom (blankComments false rest).2 later))
  have hrest := map_spot_readLines_numbered s before.length
    (blankTemplateFrom false (rest :: later))
  rw [spots_eq, hboth, numbered_append, length_blankTemplateFrom, spots_eq, hfirst,
    numbered_append, length_blankTemplateFrom, spots_eq, ← hrest, ← List.map_append]
  exact congrArg (List.map spot) hsplit

end Parts

/-! ## Forms do not overlap -/

/-- Do stretches of a text stand in it one after the other? -/
inductive Apart : List (List Char) → List Char → Prop
  | nil (text : List Char) : Apart [] text
  | cons (before : List Char) {stretch text : List Char} {stretches : List (List Char)}
    (hlater : Apart stretches text) : Apart (stretch :: stretches) (before ++ (stretch ++ text))

theorem Apart.append_left {stretches : List (List Char)} {text : List Char}
    (h : Apart stretches text) (before : List Char) : Apart stretches (before ++ text) := by
  cases h with
  | nil => exact .nil _
  | cons more hlater =>
    rw [← List.append_assoc]
    exact .cons (before ++ more) hlater

/-- What stands between the start and the end of a form, on one line. -/
def FormText.stretch (f : FormText) : List Char := [' '].intercalate f.body

/-- The text of pieces, on one line. -/
def textOf (pieces : List Piece) : List Char := spaced (pieces.map Prod.snd)

theorem textOf_cons (piece : Piece) (pieces : List Piece) :
    textOf (piece :: pieces) = piece.2 ++ ' ' :: textOf pieces := spaced_cons _ _

theorem textOf_enterForm {pieces later : List Piece} {first : Piece}
    (h : enterForm pieces = some (first, later)) :
    ∃ before, textOf pieces = before ++ textOf (first :: later) := by
  fun_induction enterForm pieces with
  | case1 => cases h
  | case2 row text later parts hcut =>
    cases h
    obtain ⟨start, rfl, -⟩ := exists_of_cutWhere_afterStart? hcut
    exact ⟨parts.1 ++ start, by rw [textOf_cons, textOf_cons, List.append_assoc]⟩
  | case3 row text pieces hcut ih =>
    obtain ⟨before, hbefore⟩ := ih h
    exact ⟨text ++ ' ' :: before, by rw [textOf_cons, hbefore, List.append_assoc]; rfl⟩

theorem textOf_leaveForm (pieces : List Piece) :
    ∃ between, textOf pieces =
      [' '].intercalate (leaveForm pieces).1 ++ (between ++ textOf (leaveForm pieces).2) := by
  fun_induction leaveForm pieces with
  | case1 => exact ⟨[], rfl⟩
  | case2 row text later parts hcut =>
    obtain ⟨stop, rfl⟩ := exists_of_cutWhere_afterEnd? hcut
    exact ⟨stop ++ ['>'], by simp [textOf_cons]⟩
  | case3 row text later hcut ih =>
    obtain ⟨between, hbetween⟩ := ih
    rw [textOf_cons, hbetween]
    cases (leaveForm later).1 with
    | nil => exact ⟨' ' :: between, by simp⟩
    | cons line lines => exact ⟨between, by simp [List.intercalate_cons_cons]⟩

/-- The forms of a template stand one after the other. -/
theorem apart_bodies (pieces : List Piece) :
    Apart ((formTexts pieces).map FormText.stretch) (textOf pieces) := by
  fun_induction formTexts pieces with
  | case1 => exact .nil _
  | case2 pieces first later henter ih =>
    obtain ⟨before, hbefore⟩ := textOf_enterForm henter
    obtain ⟨between, hbetween⟩ := textOf_leaveForm (first :: later)
    rw [hbefore, hbetween]
    exact .cons before (ih.append_left between)

/-! ## All of it -/

/-- Where neither a form nor a comment is open, what is reported about a template is what is
    reported about its parts, between two lines and within a line after a closing bracket. A form is
    reported because of what stands in it, forms do not overlap, and the scan of a line ends. -/
theorem run_separates_forms (s : Subject) {before : List (List Char)}
    (hcomment : commentAfter false before = false)
    (hform : formAfter s none (withTexts s before).templateLines = none) :
    (∀ later, spots s (before ++ later) =
      spots s before ++ (spots s later).map (lowerSpot before.length)) ∧
    (∀ above line, before = above ++ [line] → line.getLast? = some '>' → ∀ rest later,
      spots s (above ++ (line ++ rest) :: later) =
        spots s before ++ (spots s (rest :: later)).map (lowerSpot above.length)) ∧
    run s = ((formTexts s.templateLines).filter fun f =>
      f.Unprotected ∧ CarriesPost (untilBracket f.tag)).map (missingToken s) ∧
    Apart ((formTexts s.templateLines).map FormText.stretch) (textOf s.templateLines) ∧
    ∀ row form text issues last, Scans s row form text issues last ↔
      readLine s row (text.length + 1) form text = (issues, last) := by
  refine ⟨spots_append hcomment hform, ?_, readLines_none_eq s _, apart_bodies _,
    fun _ _ _ _ _ => scans_iff⟩
  rintro above line rfl hbracket rest later
  exact spots_split hbracket hcomment hform rest later

/-- A form that posts, with a token. -/
def protectedForm : List Char := "<form method=\"POST\">@csrf</form>".toList

/-- A form that posts, without a token. -/
def plainForm : List Char := "<form method=\"POST\"></form>".toList

/-- A template with both forms on one line. -/
def twoForms : Subject :=
  .ofSource "resources/views/a.blade.php" ⟨.blade, protectedForm ++ plainForm, none, none⟩ .view
    Subject.defaultRadius

/-- The token of the first form does not protect the second one. -/
theorem run_separates_forms_on_line :
    commentAfter false [protectedForm] = false ∧
      formAfter twoForms none (withTexts twoForms [protectedForm]).templateLines = none ∧
      spots twoForms [protectedForm ++ plainForm] = [(1, "missing_csrf")] := by
  have hprotected : blankComments false protectedForm = (protectedForm, false) :=
    blankComments_of_none (by decide +kernel)
  have hplain : blankComments false plainForm = (plainForm, false) :=
    blankComments_of_none (by decide +kernel)
  have hcomment : commentAfter false [protectedForm] = false := by
    rw [commentAfter, hprotected, commentAfter]
  have hclosed : (formAfter twoForms none (numbered 1 [protectedForm])).isNone = true := by
    decide +kernel
  have hform : formAfter twoForms none (withTexts twoForms [protectedForm]).templateLines =
      none := by
    rw [templateLines_withTexts, blankTemplateFrom, hprotected, blankTemplateFrom]
    exact Option.isNone_iff_eq_none.mp hclosed
  refine ⟨hcomment, hform, ?_⟩
  have hsplit := (run_separates_forms twoForms hcomment hform).2.1 [] protectedForm rfl
    (by decide +kernel) plainForm []
  rw [List.nil_append] at hsplit
  rw [hsplit, spots_eq, spots_eq, blankTemplateFrom, hprotected, blankTemplateFrom,
    blankTemplateFrom, hplain, blankTemplateFrom]
  decide +kernel

end Check.Form

end CodeAudit
