import CodeAudit.Proofs.CommentStarts

/-!
# Block comments over lines

`commentMask` finds out whether a line begins inside a block comment by cutting the lines before it
again and again: at the next marker that opens a comment, with the strings of what is left blanked
afresh, or at the next marker that closes one. `LexMode.lex` reads the same lines once, byte by
byte, and never goes back. The two agree on any number of comments on a line.

What carries the proof is that a cut leaves the lexer where a fresh start would: after the code
before a comment it stands in code, and after the marker that closes a block comment it does, too.

Results:
* `lex_split`: the lexer reads the code of a line as code and then stands before its comment.
* `lex_cut`: the lexer reads a block comment up to its end.
* `endsInBlock_iff`: the cuts agree with the lexer on one line.
* `blockTurns_endsInBlock`: the cuts come to an end, and none of them is inside of a character.
* `modeAfter_eq`: the cuts agree with the lexer on all lines.
* `commentMask_lexed`: which lines are marked.
-/

namespace CodeAudit.Source

open Text

/-! ## A lexer -/

/-- Where a lexer stands. -/
inductive LexMode where
  | code
  /-- Inside a string that the quote ends, just after a backslash or not. -/
  | quoted (quote : UInt8) (escaped : Bool)
  | lineComment
  | blockComment
  deriving DecidableEq, Repr

namespace LexMode

/-- What a lexer gives for some bytes and then for more. -/
def emit (flags : List Bool) (rest : List Bool × LexMode) : List Bool × LexMode :=
  (flags ++ rest.1, rest.2)

/-- The mode after a byte of code that opens no comment. -/
def afterCode (a : UInt8) : LexMode :=
  if IsQuote a then quoted a false else code

/-- The mode after a byte of a string. -/
def afterQuoted (q a : UInt8) : LexMode :=
  if a = '\\'.toUInt8 then quoted q true else if a = q then code else quoted q false

/-- Reads the bytes of a line. The result tells for each byte whether it lies in a comment, markers
    included, and the mode after the last byte. -/
def lex : LexMode → List UInt8 → List Bool × LexMode
  | mode, [] => ([], mode)
  | code, [a] =>
    if a = '#'.toUInt8 then ([true], lineComment) else ([false], afterCode a)
  | code, a :: b :: rest =>
    if a = '/'.toUInt8 ∧ b = '*'.toUInt8 then emit [true, true] (lex blockComment rest)
    else if a = '/'.toUInt8 ∧ b = '/'.toUInt8 ∨ a = '#'.toUInt8 ∧ b ≠ '['.toUInt8 then
      emit [true] (lex lineComment (b :: rest))
    else emit [false] (lex (afterCode a) (b :: rest))
  | quoted q true, _ :: rest => emit [false] (lex (quoted q false) rest)
  | quoted q false, a :: rest => emit [false] (lex (afterQuoted q a) rest)
  | lineComment, _ :: rest => emit [true] (lex lineComment rest)
  | blockComment, [_] => ([true], blockComment)
  | blockComment, a :: b :: rest =>
    if a = '*'.toUInt8 ∧ b = '/'.toUInt8 then emit [true, true] (lex code rest)
    else emit [true] (lex blockComment (b :: rest))

/-- The mode at the start of the next line: only a block comment goes on. -/
def endLine : LexMode → LexMode
  | blockComment => blockComment
  | _ => code

/-- The mode at the start of a line, inside a block comment or not. -/
def ofBlock : Bool → LexMode
  | true => blockComment
  | false => code

end LexMode

/-- The mode after some lines. -/
def modeAfter (lines : List (List Char)) : LexMode :=
  lines.foldl (fun mode line => (mode.lex (utf8 line)).2.endLine) .code

namespace LexMode

/-! ## Markers -/

@[simp] theorem emit_emit (a b : List Bool) (rest : List Bool × LexMode) :
    emit a (emit b rest) = emit (a ++ b) rest := by
  rw [emit, emit, emit, List.append_assoc]

@[simp] theorem emit_snd (flags : List Bool) (rest : List Bool × LexMode) :
    (emit flags rest).2 = rest.2 := rfl

@[simp] theorem lex_nil (mode : LexMode) : mode.lex [] = ([], mode) := by
  cases mode <;> rfl

theorem utf8_pair_isPrefix {c d : Char} (hc : c.utf8Size = 1) (hd : d.utf8Size = 1) (a b : UInt8)
    (rest : List UInt8) :
    utf8 [c, d] <+: a :: b :: rest ↔ a = c.toUInt8 ∧ b = d.toUInt8 := by
  rw [utf8_cons_ascii hc, utf8_cons_ascii hd, utf8_nil, List.cons_prefix_cons,
    List.cons_prefix_cons, eq_comm, eq_comm (a := d.toUInt8), and_iff_left List.nil_prefix]

theorem commentOpens_singleton (a : UInt8) : CommentOpens [a] ↔ a = '#'.toUInt8 := by
  have hslash : utf8 ['/', '/'] = ['/'.toUInt8, '/'.toUInt8] := rfl
  have hstar : utf8 ['/', '*'] = ['/'.toUInt8, '*'.toUInt8] := rfl
  have hhash : utf8 ['#'] = ['#'.toUInt8] := rfl
  have hbracket : utf8 ['#', '['] = ['#'.toUInt8, '['.toUInt8] := rfl
  rw [CommentOpens, hslash, hstar, hhash, hbracket]
  simp [List.cons_prefix_cons, eq_comm]

theorem commentOpens_cons_cons (a b : UInt8) (rest : List UInt8) :
    CommentOpens (a :: b :: rest) ↔
      a = '/'.toUInt8 ∧ b = '/'.toUInt8 ∨ a = '/'.toUInt8 ∧ b = '*'.toUInt8 ∨
        a = '#'.toUInt8 ∧ b ≠ '['.toUInt8 := by
  have hhash : utf8 ['#'] <+: a :: b :: rest ↔ a = '#'.toUInt8 := by
    rw [utf8_cons_ascii rfl, utf8_nil, List.cons_prefix_cons, and_iff_left List.nil_prefix, eq_comm]
  rw [CommentOpens, utf8_pair_isPrefix rfl rfl, utf8_pair_isPrefix rfl rfl,
    utf8_pair_isPrefix rfl rfl, hhash]
  grind

theorem lex_code_singleton (a : UInt8) :
    code.lex [a] = if a = '#'.toUInt8 then ([true], lineComment) else ([false], afterCode a) := rfl

theorem lex_code_block (rest : List UInt8) :
    code.lex (utf8 ['/', '*'] ++ rest) = emit [true, true] (blockComment.lex rest) := rfl

theorem lex_code_line {a : UInt8} {rest : List UInt8} (h : CommentOpens (a :: rest))
    (hblock : ¬ utf8 ['/', '*'] <+: a :: rest) :
    code.lex (a :: rest) = emit [true] (lineComment.lex rest) := by
  cases rest with
  | nil =>
    rw [lex_code_singleton, if_pos ((commentOpens_singleton a).mp h)]
    rfl
  | cons b rest =>
    rw [commentOpens_cons_cons] at h
    rw [utf8_pair_isPrefix rfl rfl] at hblock
    rw [lex, if_neg hblock, if_pos (by grind)]

theorem lex_code_plain {a : UInt8} {rest : List UInt8} (h : ¬ CommentOpens (a :: rest)) :
    code.lex (a :: rest) = emit [false] ((afterCode a).lex rest) := by
  cases rest with
  | nil =>
    rw [lex_code_singleton, if_neg fun ha => h ((commentOpens_singleton a).mpr ha), lex_nil]
    rfl
  | cons b rest =>
    rw [commentOpens_cons_cons] at h
    rw [lex, if_neg (by grind), if_neg (by grind)]

theorem lex_lineComment (bytes : List UInt8) :
    lineComment.lex bytes = (List.replicate bytes.length true, lineComment) := by
  induction bytes with
  | nil => rfl
  | cons a rest ih =>
    rw [lex, ih, emit, List.length_cons, List.replicate_succ, List.singleton_append]

theorem lex_block_close (rest : List UInt8) :
    blockComment.lex (utf8 ['*', '/'] ++ rest) = emit [true, true] (code.lex rest) := rfl

theorem lex_block_other {a : UInt8} {rest : List UInt8} (h : ¬ utf8 ['*', '/'] <+: a :: rest) :
    blockComment.lex (a :: rest) = emit [true] (blockComment.lex rest) := by
  cases rest with
  | nil => rfl
  | cons b rest =>
    rw [utf8_pair_isPrefix rfl rfl] at h
    rw [lex, if_neg h]

/-! ## Code up to a comment -/

/-- The mode of a lexer that has met no comment. -/
def ofQuoting : Quoting → LexMode
  | .outside => code
  | .inside q escaped => quoted q.toUInt8 escaped

theorem lex_byte {s : Quoting} (h : s.Proper) {b : UInt8} {rest : List UInt8}
    (hopens : s = .outside → ¬ CommentOpens (b :: rest)) :
    (ofQuoting s).lex (b :: rest) = emit [false] ((ofQuoting (s.stepByte b)).lex rest) := by
  cases s with
  | outside =>
    have hmode : afterCode b = ofQuoting (Quoting.outside.stepByte b) := by
      rcases Quoting.stepByte_outside b with ⟨hb, hstep⟩ | ⟨hb, hstep⟩
      · rw [hstep, afterCode, if_pos hb, ofQuoting, toUInt8_ofUInt8]
      · rw [hstep, afterCode, if_neg hb, ofQuoting]
    rw [ofQuoting, lex_code_plain (hopens rfl), hmode]
  | inside q escaped =>
    cases escaped with
    | true =>
      rw [ofQuoting, lex]
      rfl
    | false =>
      have hmode : afterQuoted q.toUInt8 b = ofQuoting ((Quoting.inside q false).stepByte b) := by
        rcases Quoting.stepByte_inside h b with ⟨hb, hstep⟩ | ⟨hb, hstep⟩ | ⟨hb, hq, hstep⟩
        · rw [hstep, afterQuoted, if_pos hb, ofQuoting]
        · rw [hstep, afterQuoted, hb, if_neg h.ne_backslash, if_pos rfl, ofQuoting]
        · rw [hstep, afterQuoted, if_neg hb, if_neg hq, ofQuoting]
      rw [ofQuoting, lex, hmode]

theorem not_commentOpens_beyond {b : UInt8} (h : 128 ≤ b) (rest : List UInt8) :
    ¬ CommentOpens (b :: rest) := by
  intro hopens
  obtain ⟨b', hb', hlow⟩ := hopens.head
  cases hb'
  exact absurd hlow (UInt8.not_lt.mpr h)

theorem lex_beyond {s : Quoting} (h : s.Proper) {bytes : List UInt8}
    (hbytes : ∀ b ∈ bytes, 128 ≤ b) (rest : List UInt8) :
    (ofQuoting s).lex (bytes ++ rest) =
      emit (List.replicate bytes.length false) ((ofQuoting (s.readBytes bytes)).lex rest) := by
  induction bytes generalizing s with
  | nil => rfl
  | cons b bytes ih =>
    have hplain := not_commentOpens_beyond (hbytes b List.mem_cons_self) (bytes ++ rest)
    rw [List.cons_append, lex_byte h fun _ => hplain,
      ih (h.stepByte b) fun b hb => hbytes b (List.mem_cons_of_mem _ hb), emit_emit]
    rfl

/-- The lexer reads a character that opens no comment. -/
theorem lex_char {s : Quoting} (h : s.Proper) {c : Char} {rest : List Char}
    (hopens : ¬ (s = .outside ∧ opensComment (c :: rest) = true)) :
    (ofQuoting s).lex (utf8 (c :: rest)) =
      emit (List.replicate c.utf8Size false) ((ofQuoting (s.step c)).lex (utf8 rest)) := by
  by_cases hc : c.utf8Size = 1
  · have hplain : s = .outside → ¬ CommentOpens (utf8 (c :: rest)) := by
      intro hs hcomment
      exact hopens ⟨hs, (commentOpens_utf8 _).mp hcomment⟩
    rw [utf8_cons_ascii hc] at hplain ⊢
    rw [lex_byte h hplain, Quoting.stepByte, ofUInt8_toUInt8 hc, hc]
    rfl
  · rw [utf8_cons, lex_beyond h (le_of_mem_utf8EncodeChar hc), String.length_utf8EncodeChar,
      Quoting.readBytes_utf8EncodeChar h]

/-- The lexer reads the code of a line as code and then stands before its comment. -/
theorem lex_split {s : Quoting} (h : s.Proper) (text : List Char) :
    (ofQuoting s).lex (utf8 text) =
      emit (List.replicate (byteLength (s.split text).1) false)
        ((ofQuoting (s.read (s.split text).1)).lex (utf8 (s.split text).2)) := by
  induction text generalizing s with
  | nil => rfl
  | cons c rest ih =>
    rw [Quoting.split]
    split
    · rfl
    · rename_i hopens
      rw [lex_char h hopens, ih (h.step c), emit_emit, List.replicate_append_replicate]
      rfl

/-! ## Block comments -/

theorem lex_block_beyond {bytes : List UInt8} (hbytes : ∀ b ∈ bytes, 128 ≤ b)
    (rest : List UInt8) :
    blockComment.lex (bytes ++ rest) =
      emit (List.replicate bytes.length true) (blockComment.lex rest) := by
  induction bytes with
  | nil => rfl
  | cons b bytes ih =>
    have hb : 128 ≤ b := hbytes b List.mem_cons_self
    have hother : ¬ utf8 ['*', '/'] <+: b :: (bytes ++ rest) := by
      intro hstar
      rw [utf8_cons_ascii rfl, List.cons_prefix_cons] at hstar
      rw [← hstar.1] at hb
      exact absurd hb (by decide)
    rw [List.cons_append, lex_block_other hother,
      ih fun b hb => hbytes b (List.mem_cons_of_mem _ hb), emit_emit]
    rfl

theorem lex_block_char {c : Char} {rest : List Char} (h : ¬ ['*', '/'] <+: c :: rest) :
    blockComment.lex (utf8 (c :: rest)) =
      emit (List.replicate c.utf8Size true) (blockComment.lex (utf8 rest)) := by
  rw [← utf8_prefix_iff] at h
  by_cases hc : c.utf8Size = 1
  · rw [utf8_cons_ascii hc] at h ⊢
    rw [lex_block_other h, hc]
    rfl
  · rw [utf8_cons, lex_block_beyond (le_of_mem_utf8EncodeChar hc), String.length_utf8EncodeChar]

/-- The lexer reads a block comment up to its end. -/
theorem lex_cut (text : List Char) :
    blockComment.lex (utf8 text) =
      match cut? ['*', '/'] text with
      | none => (List.replicate (byteLength text) true, blockComment)
      | some (before, rest) =>
        emit (List.replicate (byteLength before + 2) true) (code.lex (utf8 rest)) := by
  induction text with
  | nil => rfl
  | cons c rest ih =>
    by_cases hclose : ['*', '/'].isPrefixOf (c :: rest) = true
    · obtain ⟨after, hafter⟩ := List.isPrefixOf_iff_prefix.mp hclose
      rw [cut?, if_pos hclose, ← hafter, List.drop_left, utf8_append, lex_block_close]
      rfl
    · have hother : ¬ ['*', '/'] <+: c :: rest := fun h =>
        hclose (List.isPrefixOf_iff_prefix.mpr h)
      rw [cut?, if_neg hclose, lex_block_char hother, ih]
      cases cut? ['*', '/'] rest with
      | none => rw [Option.map_none, emit, List.replicate_append_replicate, byteLength_cons]
      | some parts =>
        simp only [Option.map_some, emit_emit, List.replicate_append_replicate, byteLength_cons,
          Nat.add_assoc]

/-! ## One line -/

theorem ofQuoting_ne_blockComment (s : Quoting) : ofQuoting s ≠ blockComment := by
  cases s <;> exact LexMode.noConfusion

/-- The lexer at the start of a comment. -/
theorem lex_comment {text : List Char} (h : opensComment text = true) :
    (∃ rest, text = '/' :: '*' :: rest ∧
        code.lex (utf8 text) = emit [true, true] (blockComment.lex (utf8 rest))) ∨
      (¬ ['/', '*'] <+: text ∧
        code.lex (utf8 text) = (List.replicate (byteLength text) true, lineComment)) := by
  by_cases hblock : ['/', '*'] <+: text
  · obtain ⟨rest, rfl⟩ := hblock
    refine .inl ⟨rest, rfl, ?_⟩
    rw [utf8_append, lex_code_block]
  · refine .inr ⟨hblock, ?_⟩
    have hopens := (commentOpens_utf8 text).mpr h
    rw [← utf8_prefix_iff] at hblock
    rw [← length_utf8]
    cases hbytes : utf8 text with
    | nil =>
      rw [hbytes] at hopens
      obtain ⟨b, hb, _⟩ := hopens.head
      cases hb
    | cons a rest =>
      rw [hbytes] at hopens hblock
      rw [lex_code_line hopens hblock, lex_lineComment]
      rfl

/-- The lexer on a line that begins in code, by what its comment is. -/
theorem lex_line (line : List Char) :
    code.lex (utf8 line) =
      emit (List.replicate (byteLength (codePart line)) false)
        ((ofQuoting (Quoting.outside.read (codePart line))).lex
          (utf8 (Quoting.outside.split line).2)) := by
  rw [codePart_eq, ← lex_split Quoting.proper_outside]
  rfl

/-- The cuts agree with the lexer on one line. -/
theorem endsInBlock_iff (inBlock : Bool) (line : List Char) :
    endsInBlock inBlock line = true ↔ ((ofBlock inBlock).lex (utf8 line)).2 = blockComment := by
  fun_induction endsInBlock inBlock line with
  | case1 line hcut =>
    rw [ofBlock, lex_cut, hcut]
    exact iff_of_true rfl rfl
  | case2 line before rest hcut ih =>
    rw [ih, ofBlock, ofBlock, lex_cut, hcut]
    rfl
  | case3 inBlock line hout hopener =>
    rw [Bool.eq_false_iff.mpr hout]
    refine iff_of_false Bool.false_ne_true ?_
    rw [ofBlock, lex_line, emit_snd]
    by_cases hnil : (Quoting.outside.split line).2 = []
    · rw [hnil, utf8_nil, lex_nil]
      exact ofQuoting_ne_blockComment _
    · obtain ⟨hread, hopens⟩ := Quoting.split_opens hnil
      rw [codePart_eq, hread, ofQuoting]
      rcases lex_comment hopens with ⟨rest, hrest, _⟩ | ⟨_, hlex⟩
      · rw [afterBlockOpener?_eq_some_iff.mpr hrest] at hopener
        cases hopener
      · rw [hlex]
        exact LexMode.noConfusion
  | case4 inBlock line hout rest hopener ih =>
    have hrest := afterBlockOpener?_eq_some_iff.mp hopener
    have hread := (Quoting.split_opens (hrest ▸ List.cons_ne_nil _ _)).1
    rw [Bool.eq_false_iff.mpr hout, ih, ofBlock, ofBlock, lex_line, emit_snd, codePart_eq, hread,
      hrest]
    rfl

end LexMode

/-! ## The cuts come to an end -/

/-- Byte offset of the first occurrence of a word. -/
def offset? (word text : List Char) : Option Nat :=
  (cut? word text).map fun parts => byteLength parts.1

/-- The cuts on a line, one after the other: whether the line begins inside a block comment, the
    line, the number of turns, and whether the line ends inside a block comment. All offsets are in
    bytes, and every cut has a result. -/
inductive BlockTurns : Bool → List Char → Nat → Bool → Prop where
  | unclosed {line : List Char} : offset? ['*', '/'] line = none → BlockTurns true line 1 true
  | close {line rest : List Char} {n turns : Nat} {answer : Bool} :
    offset? ['*', '/'] line = some n → dropBytes? (n + 2) line = some rest →
      BlockTurns false rest turns answer → BlockTurns true line (turns + 1) answer
  | plain {line : List Char} : commentStart? line = none → BlockTurns false line 1 false
  | lineComment {line comment : List Char} {n : Nat} :
    commentStart? line = some n → dropBytes? n line = some comment → ¬ ['/', '*'] <+: comment →
      BlockTurns false line 1 false
  | openBlock {line comment rest : List Char} {n turns : Nat} {answer : Bool} :
    commentStart? line = some n → dropBytes? n line = some comment → ['/', '*'] <+: comment →
      dropBytes? (n + 2) line = some rest → BlockTurns true rest turns answer →
        BlockTurns false line (turns + 1) answer

theorem append_of_cut? {word text before after : List Char}
    (h : cut? word text = some (before, after)) : before ++ (word ++ after) = text := by
  induction text generalizing before with
  | nil =>
    rw [cut?] at h
    split at h
    · rename_i hempty
      cases h
      rw [List.isEmpty_iff.mp hempty]
      rfl
    · cases h
  | cons c rest ih =>
    rw [cut?] at h
    split at h
    · rename_i hinit
      cases h
      rw [List.isPrefixOf_iff_prefix, List.prefix_iff_eq_append] at hinit
      exact hinit
    · obtain ⟨parts, hparts, heq⟩ := Option.map_eq_some_iff.mp h
      cases heq
      rw [List.cons_append, ih hparts]

/-- The cuts on a line come to an end: each but the last takes two characters or more away. None of
    them is inside of a character. -/
theorem blockTurns_endsInBlock (inBlock : Bool) (line : List Char) :
    ∃ turns, BlockTurns inBlock line turns (endsInBlock inBlock line) ∧
      2 * turns ≤ line.length + 2 := by
  fun_induction endsInBlock inBlock line with
  | case1 line hcut => exact ⟨1, .unclosed (by rw [offset?, hcut]; rfl), by omega⟩
  | case2 line before rest hcut ih =>
    obtain ⟨turns, hturns, hle⟩ := ih
    have hline := append_of_cut? hcut
    have hdrop : dropBytes? (byteLength before + 2) line = some rest := by
      have := dropBytes?_append (before ++ ['*', '/']) rest
      rw [List.append_assoc, hline, byteLength_append] at this
      exact this
    refine ⟨turns + 1, .close (by rw [offset?, hcut]; rfl) hdrop hturns, ?_⟩
    have hlength := length_cut? hcut
    simp only [List.length_cons, List.length_nil] at hlength
    omega
  | case3 inBlock line hout hopener =>
    rw [Bool.eq_false_iff.mpr hout]
    refine ⟨1, ?_, by omega⟩
    cases hstart : commentStart? line with
    | none => exact .plain hstart
    | some n =>
      obtain ⟨-, comment, hdrop, hcomment⟩ := cuts_of_commentStart? hstart
      refine .lineComment hstart hdrop ?_
      rintro ⟨rest, rfl⟩
      rw [afterBlockOpener?, hcomment] at hopener
      cases hopener
  | case4 inBlock line hout rest hopener ih =>
    rw [Bool.eq_false_iff.mpr hout]
    obtain ⟨turns, hturns, hle⟩ := ih
    have hrest := afterBlockOpener?_eq_some_iff.mp hopener
    have hline := Quoting.outside.split_append line
    have hstart : commentStart? line = some (byteLength (Quoting.outside.split line).1) := by
      rw [commentStart?_eq, if_neg (hrest ▸ List.cons_ne_nil _ _)]
    have hcomment := dropBytes?_split line
    have hafter := dropBytes?_append ((Quoting.outside.split line).1 ++ ['/', '*']) rest
    rw [hrest] at hcomment hline
    rw [List.append_assoc, byteLength_append, List.cons_append, List.cons_append, List.nil_append,
      hline] at hafter
    refine ⟨turns + 1, .openBlock hstart hcomment ⟨rest, rfl⟩ hafter hturns, ?_⟩
    have hlength := congrArg List.length hline
    simp only [List.length_append, List.length_cons] at hlength
    omega

/-- There is only one way to make the cuts. -/
theorem BlockTurns.unique {inBlock : Bool} {line : List Char} {turns turns' : Nat}
    {answer answer' : Bool} (h : BlockTurns inBlock line turns answer)
    (h' : BlockTurns inBlock line turns' answer') : turns = turns' ∧ answer = answer' := by
  induction h generalizing turns' answer' with
  | unclosed hnone => cases h' <;> grind
  | close hsome hdrop _ ih => cases h' <;> grind
  | plain hnone => cases h' <;> grind
  | lineComment hstart hdrop hline => cases h' <;> grind
  | openBlock hstart hdrop hblock hrest _ ih => cases h' <;> grind

/-! ## All lines -/

theorem modeAfter_eq (lines : List (List Char)) :
    modeAfter lines = LexMode.ofBlock (lines.foldl endsInBlock false) := by
  have hfrom : ∀ inBlock, lines.foldl (fun mode line => (LexMode.lex mode (utf8 line)).2.endLine)
      (LexMode.ofBlock inBlock) = LexMode.ofBlock (lines.foldl endsInBlock inBlock) := by
    induction lines with
    | nil => exact fun _ => rfl
    | cons line lines ih =>
      intro inBlock
      have hend : ((LexMode.ofBlock inBlock).lex (utf8 line)).2.endLine =
          LexMode.ofBlock (endsInBlock inBlock line) := by
        have hiff := LexMode.endsInBlock_iff inBlock line
        cases hblock : endsInBlock inBlock line with
        | true =>
          rw [hiff.mp hblock]
          rfl
        | false =>
          rw [hblock] at hiff
          have hne := mt hiff.mpr Bool.false_ne_true
          generalize ((LexMode.ofBlock inBlock).lex (utf8 line)).2 = mode at hne
          cases mode with
          | blockComment => exact absurd rfl hne
          | _ => rfl
      rw [List.foldl_cons, List.foldl_cons, hend, ih]
  exact hfrom false

theorem ofBlock_eq_blockComment_iff (inBlock : Bool) :
    LexMode.ofBlock inBlock = .blockComment ↔ inBlock = true := by
  cases inBlock <;> simp [LexMode.ofBlock]

theorem getElem?_maskFrom (inBlock : Bool) (lines : List (List Char)) (i : Nat) :
    (maskFrom inBlock lines)[i]? = lines[i]?.map fun line =>
      (lines.take i).foldl endsInBlock inBlock || looksLikeComment (trimStart line) := by
  induction lines generalizing inBlock i with
  | nil => rfl
  | cons line lines ih =>
    cases i with
    | zero => rfl
    | succ i =>
      rw [maskFrom, List.getElem?_cons_succ, List.getElem?_cons_succ, List.take_succ_cons,
        List.foldl_cons, ih]

theorem maskFrom_append (inBlock : Bool) (a b : List (List Char)) :
    maskFrom inBlock (a ++ b) = maskFrom inBlock a ++ maskFrom (a.foldl endsInBlock inBlock) b := by
  induction a generalizing inBlock with
  | nil => rfl
  | cons line a ih =>
    rw [List.cons_append, maskFrom, maskFrom, ih, List.cons_append, List.foldl_cons]

/-- Does a line look like a comment by its first visible characters? -/
def LooksLikeComment (shown : List Char) : Prop :=
  ['/', '/'] <+: shown ∨ ['/', '*'] <+: shown ∨ ['*'] <+: shown ∨
    (['#'] <+: shown ∧ ¬ ['#', '['] <+: shown)

theorem looksLikeComment_iff (shown : List Char) :
    looksLikeComment shown = true ↔ LooksLikeComment shown := by
  have hbegins : ∀ word : String, beginsWith word shown = true ↔ word.toList <+: shown :=
    fun word => List.isPrefixOf_iff_prefix
  rw [looksLikeComment, LooksLikeComment, Bool.or_eq_true, Bool.or_eq_true, Bool.or_eq_true,
    Bool.and_eq_true, Bool.not_eq_true', ← Bool.not_eq_true, hbegins, hbegins, hbegins, hbegins,
    hbegins, or_assoc, or_assoc]
  rfl

theorem length_maskFrom (inBlock : Bool) (lines : List (List Char)) :
    (maskFrom inBlock lines).length = lines.length := by
  induction lines generalizing inBlock with
  | nil => rfl
  | cons line lines ih => rw [maskFrom, List.length_cons, List.length_cons, ih]

/-- A line is marked exactly if a lexer stands in a block comment after the lines before it, or if
    the line looks like a comment. The cuts that find this out come to an end on every line and
    agree with the lexer, and marking goes on afresh after lines that end outside of block
    comments. -/
theorem commentMask_lexed :
    (∀ lines, (commentMask lines).length = lines.length) ∧
      (∀ lines i, (commentMask lines)[i]? = some true ↔
        ∃ line, lines[i]? = some line ∧
          (modeAfter (lines.take i) = .blockComment ∨ LooksLikeComment (trimStart line))) ∧
      (∀ inBlock line, ∃ turns, 2 * turns ≤ line.length + 2 ∧
        (∀ n answer, BlockTurns inBlock line n answer ↔
          n = turns ∧ answer = endsInBlock inBlock line) ∧
        (endsInBlock inBlock line = true ↔
          ((LexMode.ofBlock inBlock).lex (utf8 line)).2 = .blockComment)) ∧
      ∀ a b, modeAfter a ≠ .blockComment →
        commentMask (a ++ b) = commentMask a ++ commentMask b := by
  refine ⟨length_maskFrom false, ?_, ?_, ?_⟩
  · intro lines i
    rw [commentMask, getElem?_maskFrom, Option.map_eq_some_iff]
    refine exists_congr fun line => and_congr_right fun _ => ?_
    rw [Bool.or_eq_true, looksLikeComment_iff, modeAfter_eq, ofBlock_eq_blockComment_iff]
  · intro inBlock line
    obtain ⟨turns, hturns, hle⟩ := blockTurns_endsInBlock inBlock line
    refine ⟨turns, hle, fun n answer => ?_, LexMode.endsInBlock_iff inBlock line⟩
    constructor
    · exact fun h => h.unique hturns
    · rintro ⟨rfl, rfl⟩
      exact hturns
  · intro a b hmode
    rw [modeAfter_eq, ne_eq, ofBlock_eq_blockComment_iff, Bool.not_eq_true] at hmode
    rw [commentMask, maskFrom_append, hmode, commentMask, commentMask]

end CodeAudit.Source
