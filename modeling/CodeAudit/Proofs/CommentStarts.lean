import CodeAudit.Proofs.QuotedStrings
import CodeAudit.Source.Comment

/-!
# Where the comment of a line starts

The comment of a line starts at the first place outside of strings where one of the markers `//`,
`/*` and `#`, but not `#[`, stands. The search goes over the line with its strings blanked, looks
one byte ahead, and its result is a byte offset into the line.

`Quoting.split` cuts a line there in one pass over its characters, without blanking and without
offsets. Everything that is computed from the offset is one of the two parts.

Results:
* `openerFrom_blank`: the search in the blanked line finds the place of the cut.
* `codePart_eq`, `commentPart?_eq`: the code and the comment of a line are the two parts.
* `split_fst`: the code alone has no comment, although the cut takes away what stood behind it.
* `split_append_of_read`: behind code that leaves no string open, a line is cut as if it began
  there.
* `commentStart?_first`: all of this about a line, with places counted in bytes.
-/

namespace CodeAudit.Source

open Text

/-- Do bytes begin with what opens a comment? -/
def CommentOpens (bytes : List UInt8) : Prop :=
  utf8 ['/', '/'] <+: bytes ∨ utf8 ['/', '*'] <+: bytes ∨
    (utf8 ['#'] <+: bytes ∧ ¬ utf8 ['#', '['] <+: bytes)

/-- Does a comment open at an offset of a line, outside of strings? -/
def CommentAt (line : List Char) (n : Nat) : Prop :=
  Closed ((utf8 line).take n) ∧ CommentOpens ((utf8 line).drop n)

/-! ## Markers -/

theorem opensComment_iff (text : List Char) :
    opensComment text = true ↔ ['/', '/'] <+: text ∨ ['/', '*'] <+: text ∨
      (['#'] <+: text ∧ ¬ ['#', '['] <+: text) := by
  have hstart : ∀ word : List Char, word <+: text ↔ ∃ rest, text = word ++ rest :=
    fun word => exists_congr fun rest => eq_comm
  simp only [hstart, List.cons_append, List.nil_append]
  fun_cases opensComment text <;> simp_all

theorem commentOpens_utf8 (text : List Char) :
    CommentOpens (utf8 text) ↔ opensComment text = true := by
  rw [CommentOpens, utf8_prefix_iff, utf8_prefix_iff, utf8_prefix_iff, utf8_prefix_iff,
    opensComment_iff]

/-- A marker starts with a slash or a number sign. -/
theorem eq_of_opensComment {c : Char} {text : List Char} (h : opensComment (c :: text) = true) :
    c = '/' ∨ c = '#' := by
  rw [opensComment_iff] at h
  simp only [List.cons_prefix_cons] at h
  rcases h with h | h | h
  · exact .inl h.1.symm
  · exact .inl h.1.symm
  · exact .inr h.1.1.symm

/-- Of what follows its first character, a marker is decided by one character. -/
theorem opensComment_cons_cons (c d : Char) (text text' : List Char) :
    opensComment (c :: d :: text) = opensComment (c :: d :: text') := by
  rw [Bool.eq_iff_iff, opensComment_iff, opensComment_iff]
  simp only [List.cons_prefix_cons, List.nil_prefix]

/-- What is no marker can become one only by a cut between `#` and `[`. -/
theorem opensComment_of_isPrefix {c : Char} {start text : List Char} (hstart : start <+: text)
    (h : opensComment (c :: start) = true) :
    opensComment (c :: text) = true ∨ c = '#' ∧ start = [] ∧ ∃ rest, text = '[' :: rest := by
  obtain ⟨rest, rfl⟩ := hstart
  cases start with
  | cons d start =>
    left
    rw [List.cons_append, opensComment_cons_cons c d _ start, h]
  | nil =>
    have hc : c = '#' := by
      rcases eq_of_opensComment h with rfl | rfl
      · cases h
      · rfl
    subst hc
    rw [List.nil_append]
    cases rest with
    | nil => exact .inl rfl
    | cons d rest =>
      by_cases hd : d = '['
      · exact .inr ⟨rfl, rfl, rest, by rw [hd]⟩
      · left
        rw [opensComment_iff]
        simp [List.cons_prefix_cons, Ne.symm hd]

/-! ## Cutting a line at its comment -/

namespace Quoting

/-- The rest of a line before and from its comment on. -/
def split : Quoting → List Char → List Char × List Char
  | _, [] => ([], [])
  | s, c :: rest =>
    if s = outside ∧ opensComment (c :: rest) = true then ([], c :: rest)
    else (c :: (split (s.step c) rest).1, (split (s.step c) rest).2)

theorem split_append (s : Quoting) (text : List Char) :
    (s.split text).1 ++ (s.split text).2 = text := by
  induction text generalizing s with
  | nil => rfl
  | cons c rest ih =>
    rw [split]
    split
    · rfl
    · rw [List.cons_append, ih]

theorem split_fst_isPrefix (s : Quoting) (text : List Char) : (s.split text).1 <+: text :=
  ⟨_, s.split_append text⟩

/-- A comment opens outside of strings. -/
theorem split_opens {s : Quoting} {text : List Char} (h : (s.split text).2 ≠ []) :
    s.read (s.split text).1 = outside ∧ opensComment (s.split text).2 = true := by
  induction text generalizing s with
  | nil => exact absurd rfl h
  | cons c rest ih =>
    rw [split] at h ⊢
    split
    · rename_i hopens
      exact hopens
    · rename_i hopens
      rw [if_neg hopens] at h
      exact ih h

/-- No comment opens before the cut. -/
theorem split_first {s : Quoting} {pre post : List Char} (hread : s.read pre = outside)
    (hopens : opensComment post = true) :
    (s.split (pre ++ post)).2 ≠ [] ∧ (s.split (pre ++ post)).1 <+: pre := by
  induction pre generalizing s with
  | nil =>
    cases post with
    | nil => cases hopens
    | cons c rest =>
      rw [List.nil_append, split, if_pos ⟨hread, hopens⟩]
      exact ⟨List.cons_ne_nil _ _, List.nil_prefix⟩
  | cons c pre ih =>
    rw [List.cons_append, split]
    split
    · exact ⟨List.cons_ne_nil _ _, List.nil_prefix⟩
    · obtain ⟨hne, hinit⟩ := ih hread
      exact ⟨hne, List.cons_prefix_cons.mpr ⟨rfl, hinit⟩⟩

/-- The code before a comment has no comment of its own. A marker could only arise where the cut
    takes away the bracket behind a number sign, but no comment starts with a bracket. -/
theorem split_fst (s : Quoting) (text : List Char) : (s.split (s.split text).1).2 = [] := by
  induction text generalizing s with
  | nil => rfl
  | cons c rest ih =>
    rw [split]
    split
    · rfl
    · rename_i hopens
      rw [split, if_neg]
      · exact ih (s.step c)
      · rintro ⟨hs, hcode⟩
        rcases opensComment_of_isPrefix (split_fst_isPrefix _ rest) hcode with h | ⟨hc, hnil, r, hr⟩
        · exact hopens ⟨hs, h⟩
        · have hcomment : ((s.step c).split rest).2 = '[' :: r := by
            have := (s.step c).split_append rest
            rw [hnil, List.nil_append] at this
            rw [this, hr]
          have hopen := (split_opens (by rw [hcomment]; exact List.cons_ne_nil _ _)).2
          rw [hcomment] at hopen
          cases hopen

/-- Behind code that leaves no string open, a line is cut as if it began there. Only a slash at the
    end of the code could make a marker with what follows. -/
theorem split_append_of_read {s : Quoting} {code : List Char} (hread : s.read code = outside)
    (hnone : (s.split code).2 = []) (hslash : code.getLast? ≠ some '/') (text : List Char) :
    s.split (code ++ text) = (code ++ (outside.split text).1, (outside.split text).2) := by
  induction code generalizing s with
  | nil =>
    cases hread
    rfl
  | cons c code ih =>
    rw [split] at hnone
    split at hnone
    · cases hnone
    · rename_i hopens
      have hplain : ¬ (s = outside ∧ opensComment (c :: (code ++ text)) = true) := by
        rintro ⟨hs, hmarker⟩
        cases code with
        | cons d code =>
          rw [List.cons_append, opensComment_cons_cons c d _ code] at hmarker
          exact hopens ⟨hs, hmarker⟩
        | nil =>
          rcases eq_of_opensComment hmarker with rfl | rfl
          · exact hslash rfl
          · exact hopens ⟨hs, rfl⟩
      have hlast : code.getLast? ≠ some '/' := by
        cases code with
        | nil => simp
        | cons d code => rwa [List.getLast?_cons_cons] at hslash
      rw [List.cons_append, split, if_neg hplain, ih hread hnone hlast]
      rfl

/-! ## The search in the blanked line -/

theorem openerFrom_spaces (offset n : Nat) (text : List Char) :
    openerFrom offset (List.replicate n ' ' ++ text) = openerFrom (offset + n) text := by
  induction n generalizing offset with
  | zero => rfl
  | succ n ih =>
    have hspace : opensComment (' ' :: (List.replicate n ' ' ++ text)) = false := rfl
    rw [List.replicate_succ, List.cons_append, openerFrom, hspace, if_neg Bool.false_ne_true, ih]
    congr 1
    change offset + 1 + n = offset + (n + 1)
    omega

/-- Blanking hides nothing that is needed to tell a marker. -/
theorem opensComment_blank (c : Char) (rest : List Char) :
    opensComment (c :: (outside.step c).blank rest) = opensComment (c :: rest) := by
  by_cases hc : c = '/' ∨ c = '#'
  · have hstep : outside.step c = outside := by
      rcases hc with rfl | rfl <;> rfl
    rw [hstep]
    cases rest with
    | nil => rfl
    | cons d rest =>
      rw [blank]
      exact opensComment_cons_cons c d _ _
  · have hnone : ∀ text, opensComment (c :: text) = false := fun text =>
      Bool.eq_false_iff.mpr fun h => hc (eq_of_opensComment h)
    rw [hnone, hnone]

/-- The search in the blanked line finds the place of the cut. -/
theorem openerFrom_blank {s : Quoting} (h : s.Proper) (offset : Nat) (text : List Char) :
    openerFrom offset (s.blank text) =
      if (s.split text).2 = [] then none else some (offset + byteLength (s.split text).1) := by
  induction text generalizing s offset with
  | nil => rfl
  | cons c rest ih =>
    have hrest := ih (h.step c) (offset + c.utf8Size)
    cases s with
    | outside =>
      have hkeeps : outside.keeps c = true := rfl
      rw [blank, if_pos hkeeps, openerFrom, opensComment_blank, split]
      by_cases hopens : opensComment (c :: rest) = true
      · simp [hopens]
      · have hclosed : ¬ (outside = outside ∧ opensComment (c :: rest) = true) :=
          fun h => hopens h.2
        rw [if_neg hopens, if_neg hclosed, hrest, byteLength_cons, Nat.add_assoc]
    | inside q escaped =>
      have hinside : ¬ (inside q escaped = outside ∧ opensComment (c :: rest) = true) :=
        fun h => Quoting.noConfusion h.1
      rw [split, if_neg hinside, byteLength_cons, ← Nat.add_assoc, ← hrest, blank]
      split
      · -- what is kept inside of a string is the quote that ends it
        rename_i hkeeps
        have hquote : c = q := by
          cases escaped with
          | true => cases hkeeps
          | false =>
            rw [keeps, Bool.and_eq_true] at hkeeps
            exact of_decide_eq_true hkeeps.2
        have hopens : ∀ text, opensComment (c :: text) = false := by
          intro text
          rw [hquote]
          rcases h with rfl | rfl <;> rfl
        rw [openerFrom, hopens, if_neg Bool.false_ne_true]
      · rw [openerFrom_spaces]

end Quoting

/-! ## The parts of a line -/

theorem takeBytes?_split (line : List Char) :
    takeBytes? (byteLength (Quoting.outside.split line).1) line =
      some (Quoting.outside.split line).1 := by
  have htake := takeBytes?_append (Quoting.outside.split line).1 (Quoting.outside.split line).2
  rw [Quoting.split_append] at htake
  exact htake

theorem dropBytes?_split (line : List Char) :
    dropBytes? (byteLength (Quoting.outside.split line).1) line =
      some (Quoting.outside.split line).2 := by
  have hdrop := dropBytes?_append (Quoting.outside.split line).1 (Quoting.outside.split line).2
  rw [Quoting.split_append] at hdrop
  exact hdrop

theorem commentStart?_eq (line : List Char) :
    commentStart? line =
      if (Quoting.outside.split line).2 = [] then none
      else some (byteLength (Quoting.outside.split line).1) := by
  rw [commentStart?, blankStrings, Quoting.openerFrom_blank Quoting.proper_outside, Nat.zero_add]

theorem codePart_eq (line : List Char) : codePart line = (Quoting.outside.split line).1 := by
  rw [codePart, commentStart?_eq]
  by_cases hcomment : (Quoting.outside.split line).2 = []
  · have hsplit := Quoting.outside.split_append line
    rw [hcomment, List.append_nil] at hsplit
    rw [if_pos hcomment]
    exact hsplit.symm
  · rw [if_neg hcomment]
    simp only [takeBytes?_split, Option.getD_some]

theorem commentPart?_eq (line : List Char) :
    commentPart? line =
      if (Quoting.outside.split line).2 = [] then none
      else some (Quoting.outside.split line).2 := by
  rw [commentPart?, commentStart?_eq]
  split
  · rfl
  · rw [Option.bind_some, dropBytes?_split]

theorem afterBlockOpener?_eq_some_iff {line rest : List Char} :
    afterBlockOpener? line = some rest ↔ (Quoting.outside.split line).2 = '/' :: '*' :: rest := by
  rw [afterBlockOpener?, commentPart?_eq]
  by_cases hnil : (Quoting.outside.split line).2 = []
  · simp [hnil]
  · rw [if_neg hnil]
    constructor
    · intro h
      split at h
      · rename_i hsome
        cases h
        exact Option.some.inj hsome
      · cases h
    · intro h
      rw [h]
      rfl

theorem codePart_append (line : List Char) :
    codePart line ++ (commentPart? line).getD [] = line := by
  have hsplit := Quoting.outside.split_append line
  rw [codePart_eq, commentPart?_eq]
  split
  · rename_i hcomment
    rw [hcomment] at hsplit
    exact hsplit
  · exact hsplit

/-- The line is cut between characters. -/
theorem cuts_of_commentStart? {line : List Char} {n : Nat} (h : commentStart? line = some n) :
    takeBytes? n line = some (codePart line) ∧
      ∃ comment, dropBytes? n line = some comment ∧ commentPart? line = some comment := by
  rw [commentStart?_eq] at h
  split at h
  · cases h
  · rename_i hne
    cases h
    refine ⟨by rw [takeBytes?_split, codePart_eq], _, dropBytes?_split line, ?_⟩
    rw [commentPart?_eq, if_neg hne]

theorem commentStart?_codePart (line : List Char) : commentStart? (codePart line) = none := by
  rw [commentStart?_eq, codePart_eq, Quoting.split_fst, if_pos rfl]

/-! ## Places in the bytes of a line -/

theorem CommentOpens.head {bytes : List UInt8} (h : CommentOpens bytes) :
    ∃ b, bytes[0]? = some b ∧ b < 128 := by
  rcases h with h | h | h
  · obtain ⟨rest, rfl⟩ := h
    exact ⟨'/'.toUInt8, rfl, by decide⟩
  · obtain ⟨rest, rfl⟩ := h
    exact ⟨'/'.toUInt8, rfl, by decide⟩
  · obtain ⟨rest, rfl⟩ := h.1
    exact ⟨'#'.toUInt8, rfl, by decide⟩

theorem commentAt_append (pre post : List Char) :
    CommentAt (pre ++ post) (byteLength pre) ↔
      Quoting.outside.read pre = .outside ∧ opensComment post = true := by
  rw [CommentAt, utf8_append, ← length_utf8, List.take_left, List.drop_left, Quoting.closed_iff,
    Quoting.readBytes_utf8 Quoting.proper_outside, commentOpens_utf8]

/-- A comment opens at the start of a character only. -/
theorem CommentAt.exists_split {line : List Char} {n : Nat} (h : CommentAt line n) :
    ∃ pre post, line = pre ++ post ∧ byteLength pre = n := by
  obtain ⟨b, hb, hlow⟩ := h.2.head
  rw [List.getElem?_drop, Nat.add_zero] at hb
  exact exists_split_of_getElem?_utf8 hb hlow

/-- If a comment opens somewhere, then the comment of the line starts there or before. -/
theorem CommentAt.commentStart? {line : List Char} {n : Nat} (h : CommentAt line n) :
    ∃ m, Source.commentStart? line = some m ∧ m ≤ n := by
  obtain ⟨pre, post, rfl, rfl⟩ := h.exists_split
  obtain ⟨hread, hopens⟩ := (commentAt_append pre post).mp h
  obtain ⟨hne, rest, hrest⟩ := Quoting.split_first hread hopens
  refine ⟨_, by rw [commentStart?_eq, if_neg hne], ?_⟩
  calc byteLength (Quoting.outside.split (pre ++ post)).1
    _ ≤ byteLength ((Quoting.outside.split (pre ++ post)).1 ++ rest) := by
      rw [byteLength_append]
      exact Nat.le_add_right _ _
    _ = byteLength pre := by rw [hrest]

theorem commentAt_of_commentStart? {line : List Char} {n : Nat} (h : commentStart? line = some n) :
    CommentAt line n := by
  rw [commentStart?_eq] at h
  split at h
  · cases h
  · rename_i hne
    cases h
    have hat := (commentAt_append _ _).mpr (Quoting.split_opens hne)
    rw [Quoting.split_append] at hat
    exact hat

theorem commentStart?_eq_some_iff {line : List Char} {n : Nat} :
    commentStart? line = some n ↔ CommentAt line n ∧ ∀ m < n, ¬ CommentAt line m := by
  constructor
  · intro h
    refine ⟨commentAt_of_commentStart? h, fun m hm hat => ?_⟩
    obtain ⟨first, hfirst, hle⟩ := hat.commentStart?
    rw [h] at hfirst
    cases hfirst
    omega
  · rintro ⟨hat, hnone⟩
    obtain ⟨first, hfirst, hle⟩ := hat.commentStart?
    rcases Nat.lt_or_eq_of_le hle with hlt | rfl
    · exact absurd (commentAt_of_commentStart? hfirst) (hnone first hlt)
    · exact hfirst

theorem commentStart?_eq_none_iff {line : List Char} :
    commentStart? line = none ↔ ∀ n, ¬ CommentAt line n := by
  constructor
  · intro h n hat
    obtain ⟨m, hm, _⟩ := hat.commentStart?
    rw [h] at hm
    cases hm
  · intro h
    cases hstart : commentStart? line with
    | none => rfl
    | some n => exact absurd (commentAt_of_commentStart? hstart) (h n)

/-- The comment of a line starts at the first marker outside of strings, which is the start of a
    character. The code before it and the comment make up the line, the code alone has no comment,
    and its strings are blanked like those of the line. -/
theorem commentStart?_first (line : List Char) :
    (∀ n, commentStart? line = some n ↔ CommentAt line n ∧ ∀ m < n, ¬ CommentAt line m) ∧
      (commentStart? line = none ↔ ∀ n, ¬ CommentAt line n) ∧
      (∀ n, commentStart? line = some n →
        takeBytes? n line = some (codePart line) ∧
          ∃ comment, dropBytes? n line = some comment ∧ commentPart? line = some comment) ∧
      codePart line ++ (commentPart? line).getD [] = line ∧
      commentStart? (codePart line) = none ∧
      codePart (codePart line) = codePart line ∧
      takeBytes? (byteLength (codePart line)) (blankStrings line) =
        some (blankStrings (codePart line)) := by
  refine ⟨fun n => commentStart?_eq_some_iff, commentStart?_eq_none_iff,
    fun n => cuts_of_commentStart?, codePart_append line, commentStart?_codePart line, ?_, ?_⟩
  · rw [codePart.eq_def (codePart line), commentStart?_codePart]
  · apply takeBytes?_blankStrings
    rw [takeBytes?_eq_some_iff]
    exact ⟨⟨_, codePart_append line⟩, rfl⟩

example : commentStart? "$url = 'http://x'; // go".toList = some 19 := by
  decide +kernel

end CodeAudit.Source
