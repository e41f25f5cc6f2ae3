import CodeAudit.Proofs.LexedComments
import CodeAudit.Source.TemplateComment

/-!
# Template comments in one pass

`blankTemplateComments` takes the lines of a template one by one and cuts each at one marker after
the other. What it gives is what a single pass over the bytes of the whole text gives:
`commentBytes` looks at every byte once, for the marker that opens a comment or, inside of one, for
the marker that closes it.

A cut finds the first place of a marker among the characters, and the pass finds it among the bytes.
The two places are the same because the markers are ASCII, and no marker reaches over a line end.
Between two comments there are blanks only where a comment was, so what is kept of a line never
makes a new marker.

Results:
* `cut?_first`, `cut?_eq_none_iff`: a cut is at the first occurrence, if there is one.
* `commentBytes_line`: the pass over one line.
* `map_utf8_blankTemplateFrom`: the pass over all lines.
* `not_isInfix_blankComments`: no marker that opens a comment is left.
* `blankTemplateComments_onePass`: all of it together.
-/

namespace CodeAudit.Text

/-! ## First occurrences -/

/-- A word that begins a text begins what stands before a character that it does not hold. -/
theorem isPrefix_of_isPrefix_append {word text tail : List Char}
    (htail : ∀ c ∈ tail.head?, c ∉ word) (h : word <+: text ++ tail) : word <+: text := by
  rcases List.prefix_or_prefix_of_prefix h (List.prefix_append text tail) with hle | ⟨more, rfl⟩
  · exact hle
  · cases more with
    | nil => simp
    | cons c more =>
      obtain ⟨rest, rfl⟩ := (List.prefix_append_right_inj text).mp h
      exact absurd (by simp) (htail c rfl)

/-- A word that occurs around a character that it does not hold occurs on one of its sides. -/
theorem isInfix_or_isInfix_of_append {word before after : List Char} {c : Char} (hc : c ∉ word)
    (h : word <:+: before ++ c :: after) : word <:+: before ∨ word <:+: after := by
  induction before with
  | nil =>
    rw [List.nil_append, List.infix_cons_iff] at h
    refine .inr (h.elim (fun hinit => ?_) id)
    have hnil : word <+: [] := isPrefix_of_isPrefix_append (by simpa using hc) hinit
    rw [List.prefix_nil.mp hnil]
    exact List.nil_infix
  | cons d before ih =>
    rw [List.cons_append, List.infix_cons_iff] at h
    rcases h with hinit | hlater
    · have hstart : word <+: d :: before :=
        isPrefix_of_isPrefix_append (by simpa using hc) hinit
      exact .inl hstart.isInfix
    · exact (ih hlater).imp_left fun hin => List.infix_cons hin

/-- Copies of a character that a word does not hold may be left off in front. -/
theorem isInfix_of_isInfix_replicate_append {word text : List Char} {c : Char} (hc : c ∉ word)
    {n : Nat} (h : word <:+: List.replicate n c ++ text) : word <:+: text := by
  induction n with
  | zero => exact h
  | succ n ih =>
    have hcons : word <:+: [] ++ c :: (List.replicate n c ++ text) := h
    rcases isInfix_or_isInfix_of_append hc hcons with hnil | hlater
    · rw [List.infix_nil.mp hnil]
      exact List.nil_infix
    · exact ih hlater

theorem cut?_eq_none_iff {word text : List Char} (hword : word ≠ []) :
    cut? word text = none ↔ ¬ word <:+: text := by
  induction text with
  | nil => simp [cut?, hword]
  | cons c rest ih =>
    rw [cut?, List.infix_cons_iff, ← List.isPrefixOf_iff_prefix]
    split <;> simp_all

/-- A cut is at the first occurrence of the word. -/
theorem cut?_first {word text before after : List Char} (h : cut? word text = some (before, after))
    {pre post : List Char} (hbefore : before = pre ++ post) (hpost : post ≠ []) :
    ¬ word <+: post ++ (word ++ after) := by
  induction text generalizing before pre with
  | nil =>
    rw [cut?] at h
    split at h
    · cases h
      exact absurd (List.append_eq_nil_iff.mp hbefore.symm).2 hpost
    · cases h
  | cons c rest ih =>
    rw [cut?] at h
    split at h
    · cases h
      exact absurd (List.append_eq_nil_iff.mp hbefore.symm).2 hpost
    · rename_i hinit
      obtain ⟨parts, hparts, heq⟩ := Option.map_eq_some_iff.mp h
      cases heq
      cases pre with
      | cons d pre =>
        rw [List.cons_append, List.cons.injEq] at hbefore
        exact ih hparts hbefore.2
      | nil =>
        -- the word would begin the text, where the cut did not find it
        rw [List.nil_append] at hbefore
        rw [← hbefore, List.cons_append, Source.append_of_cut? hparts, ← List.isPrefixOf_iff_prefix]
        exact hinit

end CodeAudit.Text

namespace CodeAudit.Source

open Text

/-! ## One pass over the bytes -/

/-- Which bytes of a text lie in a comment, markers included, where the text begins inside of a
    comment or not. At each byte the pass looks for the marker that ends the present state. -/
def commentBytes (inside : Bool) (bytes : List UInt8) : List Bool :=
  match bytes with
  | [] => []
  | b :: rest =>
    if utf8 (templateMarker inside) <+: b :: rest then
      List.replicate 4 true ++ commentBytes (!inside) (rest.drop 3)
    else inside :: commentBytes inside rest
termination_by bytes.length
decreasing_by all_goals (simp only [List.length_cons, List.length_drop]; omega)

/-- Bytes with a space in the place of each that is marked. -/
def blankMarked (bytes : List UInt8) (marks : List Bool) : List UInt8 :=
  bytes.zipWith (fun b marked => if marked then ' '.toUInt8 else b) marks

/-- The bytes of a text with everything from the opener of a comment to the next closer blanked, or
    to the end of the text if there is none. All other bytes stay where they are. -/
def blankedBytes (bytes : List UInt8) : List UInt8 :=
  blankMarked bytes (commentBytes false bytes)

/-- The bytes of the lines of a text, given how many each line has. Between two lines there is one
    byte that belongs to neither. -/
def bytesOfLines : List Nat → List UInt8 → List (List UInt8)
  | [], _ => []
  | n :: lengths, bytes => bytes.take n :: bytesOfLines lengths (bytes.drop (n + 1))

theorem templateMarker_ne_nil (inside : Bool) : templateMarker inside ≠ [] := by
  cases inside <;> decide

@[simp] theorem byteLength_templateMarker (inside : Bool) :
    byteLength (templateMarker inside) = 4 := by
  cases inside <;> rfl

theorem notMem_templateMarker {c : Char} (hc : c = ' ' ∨ c = '\n') (inside : Bool) :
    c ∉ templateMarker inside := by
  rcases hc with rfl | rfl <;> cases inside <;> decide

theorem commentBytes_cons {inside : Bool} {b : UInt8} {rest : List UInt8}
    (h : ¬ utf8 (templateMarker inside) <+: b :: rest) :
    commentBytes inside (b :: rest) = inside :: commentBytes inside rest := by
  rw [commentBytes, if_neg h]

theorem commentBytes_marker (inside : Bool) (text : List Char) :
    commentBytes inside (utf8 (templateMarker inside ++ text)) =
      List.replicate 4 true ++ commentBytes (!inside) (utf8 text) := by
  have hinit : utf8 (templateMarker inside) <+: utf8 (templateMarker inside ++ text) :=
    utf8_prefix_iff.mpr (List.prefix_append _ _)
  cases inside <;> exact (commentBytes.eq_2 ..).trans (if_pos hinit)

/-- No byte of a character beyond ASCII is the first of a marker. -/
theorem commentBytes_beyond {inside : Bool} {bytes : List UInt8} (h : ∀ b ∈ bytes, 128 ≤ b)
    (rest : List UInt8) :
    commentBytes inside (bytes ++ rest) =
      List.replicate bytes.length inside ++ commentBytes inside rest := by
  induction bytes with
  | nil => rfl
  | cons b bytes ih =>
    rw [List.forall_mem_cons] at h
    have hfirst : ¬ utf8 (templateMarker inside) <+: b :: (bytes ++ rest) := by
      intro hinit
      have hhigh := h.1
      cases inside <;> rw [(List.cons_prefix_cons.mp hinit).1.symm] at hhigh <;>
        exact absurd hhigh (by decide)
    rw [List.cons_append, commentBytes_cons hfirst, ih h.2]
    rfl

theorem commentBytes_char {inside : Bool} {c : Char} {text : List Char}
    (h : ¬ templateMarker inside <+: c :: text) :
    commentBytes inside (utf8 (c :: text)) =
      List.replicate c.utf8Size inside ++ commentBytes inside (utf8 text) := by
  by_cases hsize : c.utf8Size = 1
  · rw [← utf8_prefix_iff, utf8_cons_ascii hsize] at h
    rw [utf8_cons_ascii hsize, commentBytes_cons h, hsize]
    rfl
  · rw [utf8_cons, commentBytes_beyond (le_of_mem_utf8EncodeChar hsize),
      String.length_utf8EncodeChar]

/-- The pass goes over what stands before the first marker. -/
theorem commentBytes_before {inside : Bool} {before text : List Char}
    (h : ∀ pre post, before = pre ++ post → post ≠ [] → ¬ templateMarker inside <+: post ++ text) :
    commentBytes inside (utf8 (before ++ text)) =
      List.replicate (byteLength before) inside ++ commentBytes inside (utf8 text) := by
  induction before with
  | nil => rfl
  | cons c before ih =>
    have hhere : ¬ templateMarker inside <+: c :: (before ++ text) :=
      h [] (c :: before) rfl (List.cons_ne_nil _ _)
    have hlater : ∀ pre post, before = pre ++ post → post ≠ [] →
        ¬ templateMarker inside <+: post ++ text := by
      intro pre post hsplit
      exact h (c :: pre) post (by rw [hsplit]; rfl)
    rw [List.cons_append, commentBytes_char hhere, ih hlater, byteLength_cons,
      ← List.append_assoc, List.replicate_append_replicate]

/-! ## One line -/

theorem blankMarked_append {bytes more : List UInt8} {marks others : List Bool}
    (h : marks.length = bytes.length) :
    blankMarked (bytes ++ more) (marks ++ others) =
      blankMarked bytes marks ++ blankMarked more others :=
  List.zipWith_append h.symm

theorem length_blankMarked {bytes : List UInt8} {marks : List Bool}
    (h : marks.length = bytes.length) : (blankMarked bytes marks).length = bytes.length := by
  rw [blankMarked, List.length_zipWith, h, Nat.min_self]

theorem blankMarked_replicate (bytes : List UInt8) (inside : Bool) :
    blankMarked bytes (List.replicate bytes.length inside) =
      if inside then List.replicate bytes.length ' '.toUInt8 else bytes := by
  induction bytes with
  | nil => cases inside <;> rfl
  | cons b bytes ih => cases inside <;> simpa [blankMarked, List.replicate_succ] using ih

/-- What is kept of a stretch without a marker. -/
theorem utf8_ite_blanked (inside : Bool) (text : List Char) :
    utf8 (if inside then blanked text else text) =
      blankMarked (utf8 text) (List.replicate (byteLength text) inside) := by
  rw [← length_utf8, blankMarked_replicate, length_utf8]
  cases inside
  · rfl
  · exact utf8_replicate_space _

/-- The pass over a line, whatever follows on the next one: it marks as many bytes as the line has,
    the marked bytes are those that are blanked, and at the end of the line the pass stands inside
    of a comment exactly if the cuts do. -/
theorem commentBytes_line (inside : Bool) (line tail : List Char)
    (htail : ∀ c ∈ tail.head?, c = '\n') :
    ∃ marks : List Bool, marks.length = byteLength line ∧
      commentBytes inside (utf8 (line ++ tail)) =
        marks ++ commentBytes (blankComments inside line).2 (utf8 tail) ∧
      utf8 (blankComments inside line).1 = blankMarked (utf8 line) marks := by
  -- The induction is on the cuts. Each adds the marks of what it takes off the line.
  fun_induction blankComments inside line with
  | case1 inside line hcut =>
    refine ⟨List.replicate (byteLength line) inside, List.length_replicate, ?_,
      utf8_ite_blanked inside line⟩
    apply commentBytes_before
    rintro pre post rfl - hinit
    rw [cut?_eq_none_iff (templateMarker_ne_nil inside)] at hcut
    apply hcut
    -- a marker does not reach over the line end
    have hpost : templateMarker inside <+: post := by
      apply isPrefix_of_isPrefix_append _ hinit
      intro c hc
      exact notMem_templateMarker (.inr (htail c hc)) inside
    exact hpost.isInfix.trans (List.suffix_append pre post).isInfix
  | case2 inside line before rest hcut later ih =>
    obtain ⟨marks, hlength, hmarks, hblanked⟩ := ih
    have hline := append_of_cut? hcut
    refine ⟨List.replicate (byteLength before) inside ++ (List.replicate 4 true ++ marks), ?_, ?_,
      ?_⟩
    · simp only [← hline, List.length_append, List.length_replicate, byteLength_append,
        byteLength_templateMarker, hlength]
    · have hfirst : ∀ pre post, before = pre ++ post → post ≠ [] →
          ¬ templateMarker inside <+: post ++ (templateMarker inside ++ (rest ++ tail)) := by
        intro pre post hsplit hpost hinit
        apply cut?_first hcut hsplit hpost
        rw [← List.append_assoc (templateMarker inside), ← List.append_assoc post] at hinit
        refine List.prefix_of_prefix_length_le hinit (List.prefix_append _ tail) ?_
        simp only [List.length_append]
        omega
      rw [← hline, List.append_assoc, List.append_assoc, commentBytes_before hfirst,
        commentBytes_marker, hmarks, List.append_assoc, List.append_assoc]
    · have hmarker : utf8 (List.replicate 4 ' ') =
          blankMarked (utf8 (templateMarker inside)) (List.replicate 4 true) := by
        cases inside <;> rfl
      rw [← hline, utf8_append, utf8_append, utf8_append, utf8_append,
        blankMarked_append (by simp), blankMarked_append (by simp), utf8_ite_blanked, hmarker,
        hblanked, List.append_assoc]

theorem byteLength_blankComments (inside : Bool) (line : List Char) :
    byteLength (blankComments inside line).1 = byteLength line := by
  obtain ⟨marks, hlength, -, hblanked⟩ := commentBytes_line inside line [] (by simp)
  rw [← length_utf8, hblanked, length_blankMarked (by rw [hlength, length_utf8]), length_utf8]

/-! ## All lines -/

theorem map_byteLength_blankTemplateFrom (inside : Bool) (lines : List (List Char)) :
    (blankTemplateFrom inside lines).map byteLength = lines.map byteLength := by
  induction lines generalizing inside with
  | nil => rfl
  | cons line lines ih =>
    rw [blankTemplateFrom, List.map_cons, List.map_cons, byteLength_blankComments, ih]

/-- The first line of a text, and what the pass leaves for the others. -/
theorem take_blankMarked_line (inside : Bool) (line tail : List Char)
    (htail : ∀ c ∈ tail.head?, c = '\n') :
    blankMarked (utf8 (line ++ tail)) (commentBytes inside (utf8 (line ++ tail))) =
      utf8 (blankComments inside line).1 ++
        blankMarked (utf8 tail) (commentBytes (blankComments inside line).2 (utf8 tail)) := by
  obtain ⟨marks, hlength, hmarks, hblanked⟩ := commentBytes_line inside line tail htail
  rw [hmarks, utf8_append, blankMarked_append (by rw [hlength, length_utf8]), hblanked]

/-- The pass over the text that the lines make gives the lines that the cuts give. -/
theorem map_utf8_blankTemplateFrom (inside : Bool) (lines : List (List Char)) :
    (blankTemplateFrom inside lines).map utf8 =
      bytesOfLines (lines.map byteLength)
        (blankMarked (utf8 (['\n'].intercalate lines))
          (commentBytes inside (utf8 (['\n'].intercalate lines)))) := by
  induction lines generalizing inside with
  | nil => rfl
  | cons line lines ih =>
    have hlength : (utf8 (blankComments inside line).1).length = byteLength line := by
      rw [length_utf8, byteLength_blankComments]
    rw [blankTemplateFrom, List.map_cons, List.map_cons, bytesOfLines]
    cases lines with
    | nil =>
      have hline := take_blankMarked_line inside line [] (by simp)
      rw [List.append_nil] at hline
      rw [List.intercalate_singleton, hline, List.take_left' hlength]
      rfl
    | cons next lines =>
      -- the line feed goes to no line, and the pass leaves its state as it is
      have hline := take_blankMarked_line inside line
        ('\n' :: ['\n'].intercalate (next :: lines)) (by simp)
      have hfeed : ¬ templateMarker (blankComments inside line).2 <+:
          '\n' :: ['\n'].intercalate (next :: lines) := by
        intro hinit
        have hnil : templateMarker (blankComments inside line).2 <+: [] :=
          isPrefix_of_isPrefix_append (by simpa using notMem_templateMarker (.inr rfl) _) hinit
        exact templateMarker_ne_nil _ (List.prefix_nil.mp hnil)
      rw [commentBytes_char hfeed] at hline
      rw [List.intercalate_cons_cons, List.append_assoc, List.singleton_append, hline,
        List.take_left' hlength, ← List.drop_drop, List.drop_left' hlength, ih,
        utf8_cons_ascii rfl]
      rfl

/-! ## No marker is left -/

theorem not_isInfix_spaces (n : Nat) (inside : Bool) :
    ¬ templateMarker inside <:+: List.replicate n ' ' := by
  intro h
  obtain ⟨c, hc⟩ := List.exists_mem_of_ne_nil _ (templateMarker_ne_nil inside)
  have hspace : c = ' ' := List.eq_of_mem_replicate (h.subset hc)
  exact notMem_templateMarker (.inl hspace) inside hc

/-- What is kept of a line does not hold the marker that opens a comment: kept parts do not hold it,
    and between two of them there are spaces. -/
theorem not_isInfix_blankComments (inside : Bool) (line : List Char) :
    ¬ templateOpener <:+: (blankComments inside line).1 := by
  fun_induction blankComments inside line with
  | case1 inside line hcut =>
    cases inside
    · exact (cut?_eq_none_iff (templateMarker_ne_nil false)).mp hcut
    · exact not_isInfix_spaces _ false
  | case2 inside line before rest hcut later ih =>
    have hkept : ¬ templateOpener <:+: if inside then blanked before else before := by
      cases inside
      · rintro ⟨pre, post, hbefore⟩
        rw [List.append_assoc] at hbefore
        apply cut?_first hcut hbefore.symm (by simp [templateOpener])
        rw [List.append_assoc]
        exact List.prefix_append _ _
      · exact not_isInfix_spaces _ false
    intro h
    have hspace : ' ' ∉ templateOpener := notMem_templateMarker (.inl rfl) false
    rw [List.append_assoc] at h
    rcases isInfix_or_isInfix_of_append hspace h with hbefore | hafter
    · exact hkept hbefore
    · exact ih (isInfix_of_isInfix_replicate_append (n := 3) hspace hafter)

theorem not_isInfix_of_mem_blankTemplateFrom {inside : Bool} {lines : List (List Char)}
    {line : List Char} (h : line ∈ blankTemplateFrom inside lines) :
    ¬ templateOpener <:+: line := by
  induction lines generalizing inside with
  | nil => cases h
  | cons first lines ih =>
    rw [blankTemplateFrom, List.mem_cons] at h
    rcases h with rfl | h
    · exact not_isInfix_blankComments inside first
    · exact ih h

/-- Lines without the marker that opens a comment stay as they are. -/
theorem blankTemplateFrom_eq_self {lines : List (List Char)}
    (h : ∀ line ∈ lines, ¬ templateOpener <:+: line) : blankTemplateFrom false lines = lines := by
  induction lines with
  | nil => rfl
  | cons line lines ih =>
    rw [List.forall_mem_cons] at h
    have hcut : cut? (templateMarker false) line = none :=
      (cut?_eq_none_iff (templateMarker_ne_nil false)).mpr h.1
    have hline : blankComments false line = (line, false) := by
      rw [blankComments]
      split
      · rfl
      · simp_all
    rw [blankTemplateFrom, hline, ih h.2]

/-- Blanking the comments of a template keeps its lines and their lengths in bytes, gives what one
    pass over the whole text gives, leaves no marker that opens a comment, and changes nothing the
    second time. -/
theorem blankTemplateComments_onePass (lines : List (List Char)) :
    (blankTemplateComments lines).map byteLength = lines.map byteLength ∧
      (blankTemplateComments lines).map utf8 =
        bytesOfLines (lines.map byteLength) (blankedBytes (utf8 (['\n'].intercalate lines))) ∧
      (∀ line ∈ blankTemplateComments lines, ¬ templateOpener <:+: line) ∧
      blankTemplateComments (blankTemplateComments lines) = blankTemplateComments lines := by
  have hmarkers : ∀ line ∈ blankTemplateComments lines, ¬ templateOpener <:+: line :=
    fun line hline => not_isInfix_of_mem_blankTemplateFrom hline
  exact ⟨map_byteLength_blankTemplateFrom false lines, map_utf8_blankTemplateFrom false lines,
    hmarkers, blankTemplateFrom_eq_self hmarkers⟩

end CodeAudit.Source
