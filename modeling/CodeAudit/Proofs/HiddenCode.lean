import CodeAudit.Proofs.LexedComments

/-!
# Which code the checks see

Checks read the code of the lines that are not marked as comment. Most code is read, but not all.
The code of a line ends where its first comment starts, also if that comment is closed on the line
and more code follows. A line that begins inside a block comment is marked although the comment may
end on it, and so is a line that begins with a star, wherever it stands.

A lexer says which bytes are outside of comments. Such a byte of a visible character is read by the
checks exactly if no comment comes before it on its line and the line does not begin with a star.

Results:
* `lt_byteLength_codePart_iff`: what is read of a line that is not marked.
* `looksLikeComment_iff_star`: a line with code before its first comment looks like a comment only
  through a star.
* `seenAt_iff`: which code is read.
* `code_after_comment_unseen`: code that is not read.
-/

namespace CodeAudit.Source

open Text

/-- Does the byte at an offset of a line belong to a character that is not white space? -/
def ShowsAt (line : List Char) (k : Nat) : Prop :=
  ∃ pre c post, line = pre ++ c :: post ∧ byteLength pre ≤ k ∧ k < byteLength pre + c.utf8Size ∧
    isBlank c = false

/-- What a lexer of all lines says of a line: whether each of its bytes lies in a comment. -/
def lexedLine (lines : List (List Char)) (i : Nat) (line : List Char) : List Bool :=
  ((modeAfter (lines.take i)).lex (utf8 line)).1

/-- Is the byte at an offset of a line code, for a lexer of all lines, and not white space? -/
def CodeAt (lines : List (List Char)) (i k : Nat) : Prop :=
  ∃ line, lines[i]? = some line ∧ (lexedLine lines i line)[k]? = some false ∧ ShowsAt line k

/-- Do checks read the byte at an offset of a line? -/
def SeenAt (lines : List (List Char)) (i k : Nat) : Prop :=
  ∃ line, lines[i]? = some line ∧ (commentMask lines)[i]? = some false ∧
    k < byteLength (codePart line)

/-! ## Comments before a byte -/

namespace LexMode

theorem lex_block_head (a : UInt8) (rest : List UInt8) :
    (blockComment.lex (a :: rest)).1[0]? = some true := by
  cases rest with
  | nil => rfl
  | cons b rest =>
    rw [lex]
    split <;> rfl

/-- On a line that begins inside a block comment, all code comes after a comment. -/
theorem lex_block_not_first {bytes : List UInt8} {k : Nat}
    (h : (blockComment.lex bytes).1[k]? = some false) :
    ¬ ∀ j < k, (blockComment.lex bytes).1[j]? = some false := by
  intro hall
  cases bytes with
  | nil => cases h
  | cons a rest =>
    have hhead := lex_block_head a rest
    cases k with
    | zero =>
      rw [h] at hhead
      cases hhead
    | succ k =>
      rw [hall 0 (Nat.succ_pos k)] at hhead
      cases hhead

theorem lex_comment_head {text : List Char} (h : opensComment text = true) :
    (code.lex (utf8 text)).1[0]? = some true := by
  rcases lex_comment h with ⟨rest, _, hlex⟩ | ⟨_, hlex⟩
  · rw [hlex]
    rfl
  · have hpos : 0 < byteLength text := byteLength_pos (by rintro rfl; cases h)
    rw [hlex, List.getElem?_replicate, if_pos hpos]

/-- Of a line that begins outside of comments, the code is what no comment comes before. -/
theorem lt_byteLength_codePart_iff {line : List Char} {k : Nat}
    (h : (code.lex (utf8 line)).1[k]? = some false) :
    k < byteLength (codePart line) ↔ ∀ j < k, (code.lex (utf8 line)).1[j]? = some false := by
  have hflags : (code.lex (utf8 line)).1 = List.replicate (byteLength (codePart line)) false ++
      ((ofQuoting (Quoting.outside.read (codePart line))).lex
        (utf8 (Quoting.outside.split line).2)).1 := by
    rw [lex_line, emit]
  constructor
  · intro hk j hj
    rw [hflags, List.getElem?_append_left (by rw [List.length_replicate]; omega),
      List.getElem?_replicate, if_pos (by omega)]
  · intro hall
    by_cases hnil : (Quoting.outside.split line).2 = []
    · rw [hflags, hnil, utf8_nil, lex_nil, List.append_nil, List.getElem?_replicate] at h
      split at h
      · assumption
      · cases h
    · -- the first byte of the comment lies in a comment
      obtain ⟨hread, hopens⟩ := Quoting.split_opens hnil
      have hstart : (code.lex (utf8 line)).1[byteLength (codePart line)]? = some true := by
        rw [hflags, List.getElem?_append_right (Nat.le_of_eq List.length_replicate),
          List.length_replicate, Nat.sub_self, codePart_eq, hread]
        exact lex_comment_head hopens
      rcases Nat.lt_trichotomy k (byteLength (codePart line)) with hlt | heq | hgt
      · exact hlt
      · rw [← heq, h] at hstart
        cases hstart
      · rw [hall _ hgt] at hstart
        cases hstart

end LexMode

/-! ## Lines that look like comments -/

theorem isBlank_quote {c : Char} (h : isBlank c = true) : Quoting.outside.step c = .outside := by
  rw [Quoting.step, if_neg]
  rintro (rfl | rfl) <;> cases h

theorem read_blanks {text : List Char} (h : ∀ c ∈ text, isBlank c = true) :
    Quoting.outside.read text = .outside := by
  induction text with
  | nil => rfl
  | cons c text ih =>
    rw [Quoting.read_cons, isBlank_quote (h c List.mem_cons_self)]
    exact ih fun c hc => h c (List.mem_cons_of_mem _ hc)

/-- A visible character stands after the white space at the start of a line. -/
theorem ShowsAt.le {blanks rest : List Char} {k : Nat} (h : ShowsAt (blanks ++ rest) k)
    (hblanks : ∀ c ∈ blanks, isBlank c = true) : byteLength blanks ≤ k := by
  obtain ⟨pre, c, post, hline, hle, -, hshown⟩ := h
  rcases List.append_eq_append_iff.mp hline with ⟨between, hpre, -⟩ | ⟨between, hblank, hrest⟩
  · rw [hpre, byteLength_append] at hle
    omega
  · cases between with
    | nil =>
      rw [List.append_nil] at hblank
      rw [hblank]
      exact hle
    | cons d between =>
      -- the character would be one of the white space
      cases hrest
      have hmem : c ∈ blanks := by
        rw [hblank]
        exact List.mem_append_right _ List.mem_cons_self
      rw [hblanks c hmem] at hshown
      cases hshown

/-- Code before the first comment of a line makes it look like a comment only through a star. -/
theorem looksLikeComment_iff_star {line : List Char} {k : Nat} (hshows : ShowsAt line k)
    (hk : k < byteLength (codePart line)) :
    LooksLikeComment (trimStart line) ↔ ['*'] <+: trimStart line := by
  have hline : line.takeWhile isBlank ++ trimStart line = line := List.takeWhile_append_dropWhile
  have hblanks : ∀ c ∈ line.takeWhile isBlank, isBlank c = true := fun c hc =>
    List.all_eq_true.mp List.all_takeWhile c hc
  -- a marker behind the white space would leave no code
  have hopens : opensComment (trimStart line) ≠ true := by
    intro hopens
    obtain ⟨-, rest, hrest⟩ := Quoting.split_first (read_blanks hblanks) hopens
    rw [hline, ← codePart_eq] at hrest
    have hle : byteLength (line.takeWhile isBlank) ≤ k := by
      rw [← hline] at hshows
      exact hshows.le hblanks
    rw [← hrest, byteLength_append] at hle
    omega
  rw [ne_eq, opensComment_iff] at hopens
  constructor
  · rintro (h | h | h | h)
    · exact absurd (.inl h) hopens
    · exact absurd (.inr (.inl h)) hopens
    · exact h
    · exact absurd (.inr (.inr h)) hopens
  · exact fun h => .inr (.inr (.inl h))

/-! ## What is read -/

theorem mask_eq_false_iff {lines : List (List Char)} {i : Nat} {line : List Char}
    (h : lines[i]? = some line) :
    (commentMask lines)[i]? = some false ↔
      modeAfter (lines.take i) = .code ∧ ¬ LooksLikeComment (trimStart line) := by
  rw [commentMask, getElem?_maskFrom, h, Option.map_some, Option.some.injEq, Bool.or_eq_false_iff,
    modeAfter_eq, ← looksLikeComment_iff, Bool.not_eq_true]
  cases (lines.take i).foldl endsInBlock false <;> simp [LexMode.ofBlock]

/-- Code is read exactly if no comment comes before it on its line and the line does not begin with
    a star. -/
theorem seenAt_iff (lines : List (List Char)) (i k : Nat) (line : List Char)
    (hline : lines[i]? = some line) (hcode : CodeAt lines i k) :
    SeenAt lines i k ↔
      (∀ j < k, (lexedLine lines i line)[j]? = some false) ∧ ¬ ['*'] <+: trimStart line := by
  obtain ⟨line', hline', hlexed, hshows⟩ := hcode
  rw [hline] at hline'
  cases hline'
  have hseen : SeenAt lines i k ↔
      (commentMask lines)[i]? = some false ∧ k < byteLength (codePart line) := by
    constructor
    · rintro ⟨line', hline', hmask, hk⟩
      rw [hline] at hline'
      cases hline'
      exact ⟨hmask, hk⟩
    · exact fun h => ⟨line, hline, h⟩
  rw [hseen, mask_eq_false_iff hline]
  rw [lexedLine] at hlexed ⊢
  cases hblock : (lines.take i).foldl endsInBlock false with
  | true =>
    -- the line begins with a comment
    have hmode : modeAfter (lines.take i) = .blockComment := by
      rw [modeAfter_eq, hblock, LexMode.ofBlock]
    rw [hmode] at hlexed ⊢
    exact iff_of_false (fun h => LexMode.noConfusion h.1.1)
      fun h => LexMode.lex_block_not_first hlexed h.1
  | false =>
    have hmode : modeAfter (lines.take i) = .code := by
      rw [modeAfter_eq, hblock, LexMode.ofBlock]
    rw [hmode] at hlexed ⊢
    rw [← LexMode.lt_byteLength_codePart_iff hlexed]
    constructor
    · rintro ⟨⟨-, hlooks⟩, hk⟩
      exact ⟨hk, mt (looksLikeComment_iff_star hshows hk).mpr hlooks⟩
    · rintro ⟨hk, hstar⟩
      exact ⟨⟨rfl, mt (looksLikeComment_iff_star hshows hk).mp hstar⟩, hk⟩

/-- Lines of which the first two are a block comment and more. -/
def mixedLines : List (List Char) :=
  ["/* a".toList, "b */ f();".toList, "  g(); // h".toList]

/-- The code of the last line is read. -/
theorem seenAt_mixedLines :
    mixedLines[2]? = some "  g(); // h".toList ∧ CodeAt mixedLines 2 2 ∧
      (SeenAt mixedLines 2 2 ↔
        (∀ j < 2, (lexedLine mixedLines 2 "  g(); // h".toList)[j]? = some false) ∧
          ¬ ['*'] <+: trimStart "  g(); // h".toList) := by
  have hline : mixedLines[2]? = some "  g(); // h".toList := rfl
  have hcode : CodeAt mixedLines 2 2 := by
    refine ⟨"  g(); // h".toList, hline, by decide +kernel, "  ".toList, 'g', "(); // h".toList, ?_⟩
    decide +kernel
  exact ⟨hline, hcode, seenAt_iff mixedLines 2 2 _ hline hcode⟩

/-! ## What is not read -/

/-- Lines with code that follows a comment or a star. -/
def unseenLines : List (List Char) :=
  ["/* a */ f();".toList, "g(); /* b */ h();".toList, "* i();".toList]

/-- Code is not read after a comment that ends on its line, whether the line begins with the comment
    or not, nor after a star at the start of a line. -/
theorem code_after_comment_unseen :
    (CodeAt unseenLines 0 8 ∧ ¬ SeenAt unseenLines 0 8) ∧
      (CodeAt unseenLines 1 13 ∧ ¬ SeenAt unseenLines 1 13) ∧
      (CodeAt unseenLines 2 2 ∧ ¬ SeenAt unseenLines 2 2) := by
  refine ⟨⟨?_, ?_⟩, ⟨?_, ?_⟩, ⟨?_, ?_⟩⟩
  · refine ⟨_, rfl, by decide +kernel, "/* a */ ".toList, 'f', "();".toList, ?_⟩
    decide +kernel
  · rintro ⟨line, -, hmask, -⟩
    cases hmask
  · refine ⟨_, rfl, by decide +kernel, "g(); /* b */ ".toList, 'h', "();".toList, ?_⟩
    decide +kernel
  · rintro ⟨line, hline, -, hlt⟩
    cases hline
    exact absurd hlt (by decide +kernel)
  · refine ⟨_, rfl, by decide +kernel, "* ".toList, 'i', "();".toList, ?_⟩
    decide +kernel
  · rintro ⟨line, hline, hmask, -⟩
    rw [mask_eq_false_iff hline] at hmask
    cases hline
    exact hmask.2 (.inr (.inr (.inl (by decide +kernel))))

end CodeAudit.Source
