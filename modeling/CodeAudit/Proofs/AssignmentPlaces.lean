import CodeAudit.Proofs.ShadowedCalls

/-!
# Assignments and where they are read

The search for assignments takes the character behind the sign with it. If that is the start of the
next assignment, as in `$a=$b=1`, then the search goes on behind it, so that every second assignment
of such a chain is left out.

Results:
* `eq_of_variable_at_end`: a variable at the end of a text is known by the text.
* `fits_assignmentPattern`: what the pattern of assignments describes.
* `AssignmentAt.found_iff`: an assignment is found exactly if an even number of them is chained in
  front of it.
* `AssignmentAt.exists_of_mem`, `AssignmentAt.IsRead.exists_mem`: what the search finds.
* `mem_ofLine_iff`: the variables to which a line assigns.
-/

namespace CodeAudit

open Text Source

namespace Check

/-! ## Variables -/

theorem isWord_of_isAlpha {c : Char} (h : (c.isAlpha || c == '_') = true) : isWord c = true := by
  rw [Bool.or_eq_true, beq_iff_eq] at h
  rcases h with h | rfl
  · have hsmall : c.toNat < 128 := by
      have hle : c.val ≤ 'z'.val := by
        rcases Bool.or_eq_true_iff.mp h with hupper | hlower
        · exact UInt32.le_trans (of_decide_eq_true hupper).2 (by decide)
        · exact of_decide_eq_true (Bool.and_eq_true_iff.mp hlower).2
      exact Nat.lt_of_le_of_lt (UInt32.le_iff_toNat_le.mp hle) (by decide)
    rw [isWord, if_pos hsmall, Char.isAlphanum, h, Bool.true_or, Bool.true_or]
  · decide

theorem not_isBlank_of_isWord {c : Char} (h : isWord c = true) : isBlank c = false := by
  refine Bool.eq_false_iff.mpr fun hblank => ?_
  rw [isWord_of_isBlank hblank] at h
  cases h

/-- Read from its end, a text with a variable at its end is white space, a word and the sign. -/
theorem reverse_variable_at_end (front : List Char) {name gap : List Char} (hne : name ≠ [])
    (hname : ∀ c ∈ name, isWord c = true) (hgap : ∀ c ∈ gap, isBlank c = true) :
    (front ++ '$' :: (name ++ gap)).reverse.takeWhile isBlank = gap.reverse ∧
      ((front ++ '$' :: (name ++ gap)).reverse.dropWhile isBlank).takeWhile isWord =
        name.reverse ∧
      ((front ++ '$' :: (name ++ gap)).reverse.dropWhile isBlank).dropWhile isWord =
        '$' :: front.reverse := by
  have hreverse : (front ++ '$' :: (name ++ gap)).reverse =
      gap.reverse ++ (name.reverse ++ '$' :: front.reverse) := by simp
  have hhead : (name.reverse ++ '$' :: front.reverse).head?.any isBlank = false := by
    rw [List.head?_append_of_ne_nil _ (by simpa using hne), List.head?_reverse,
      List.getLast?_eq_some_getLast hne, Option.any_some]
    exact not_isBlank_of_isWord (hname _ (List.getLast_mem hne))
  have hsign : ('$' :: front.reverse).head?.any isWord = false := by
    change isWord '$' = false
    decide
  have hgap' : ∀ c ∈ gap.reverse, isBlank c = true := by simpa using hgap
  have hname' : ∀ c ∈ name.reverse, isWord c = true := by simpa using hname
  obtain ⟨htake, hdrop⟩ := span_append_of_head hgap' hhead
  rw [hreverse, htake, hdrop]
  exact ⟨rfl, span_append_of_head hname' hsign⟩

/-- A variable at the end of a text, with white space behind it, is known by the text. -/
theorem eq_of_variable_at_end {front front' name name' gap gap' : List Char} (hne : name ≠ [])
    (hne' : name' ≠ []) (hname : ∀ c ∈ name, isWord c = true)
    (hname' : ∀ c ∈ name', isWord c = true) (hgap : ∀ c ∈ gap, isBlank c = true)
    (hgap' : ∀ c ∈ gap', isBlank c = true)
    (h : front ++ '$' :: (name ++ gap) = front' ++ '$' :: (name' ++ gap')) :
    front = front' ∧ name = name' ∧ gap = gap' := by
  obtain ⟨hgaps, hnames, hfronts⟩ := reverse_variable_at_end front hne hname hgap
  obtain ⟨hgaps', hnames', hfronts'⟩ := reverse_variable_at_end front' hne' hname' hgap'
  rw [h] at hgaps hnames hfronts
  refine ⟨?_, ?_, ?_⟩
  · exact List.reverse_injective (List.cons.inj (hfronts.symm.trans hfronts')).2
  · exact List.reverse_injective (hnames.symm.trans hnames')
  · exact List.reverse_injective (hgaps.symm.trans hgaps')

/-- Is it the name of a variable to which something may be assigned? -/
def IsVariableName (name : List Char) : Prop :=
  name.head?.any (fun c => c.isAlpha || c == '_') = true ∧ ∀ c ∈ name, isWord c = true

instance (name : List Char) : Decidable (IsVariableName name) :=
  decidable_of_iff
    (name.head?.any (fun c => c.isAlpha || c == '_') = true ∧ name.all isWord = true)
    (and_congr_right fun _ => List.all_eq_true)

theorem IsVariableName.ne_nil {name : List Char} (h : IsVariableName name) : name ≠ [] := by
  rintro rfl
  cases h.1

/-! ## Assignments -/

/-- An assignment in a line of code: what stands before it, the name of its variable, white space,
    and what follows the sign. -/
structure AssignmentAt (code : List Char) where
  before : List Char
  name : List Char
  space : List Char
  rest : List Char
  code_eq : code = before ++ '$' :: (name ++ (space ++ '=' :: rest))
  named : IsVariableName name
  spaced : ∀ c ∈ space, isBlank c = true
  sign : ∀ c ∈ rest.head?, c ≠ '=' ∧ c ≠ '>'

/-- The pattern of what stands behind the name. -/
def assignmentSign : Pattern :=
  .blanks ++ (.char '=' ++ (.noneOf "=>" <|> .textEnd))

theorem matchAt?_assignmentPattern (c : Cursor) :
    assignmentPattern.matchAt? c =
      (.char '$' ++ .group 1 (.one (fun c => c.isAlpha || c == '_') ++ .many .word) ++
        assignmentSign : Pattern).matchAt? c := by
  rfl

theorem isVisible_assignmentPattern : assignmentPattern.isVisible = true := by decide

theorem fits_variableName {previous : Option Char} {stretch rest : List Char} :
    (.one (fun c => c.isAlpha || c == '_') ++ .many .word : Pattern).Fits previous stretch rest ↔
      IsVariableName stretch := by
  constructor
  · rintro ⟨_, more, rfl, ⟨c, rfl, hc⟩, hmore⟩
    exact ⟨hc, List.forall_mem_cons.mpr ⟨isWord_of_isAlpha hc, Pattern.fits_many_one.mp hmore⟩⟩
  · rintro ⟨hhead, hword⟩
    cases stretch with
    | nil => cases hhead
    | cons c more =>
      exact ⟨[c], more, rfl, ⟨c, rfl, hhead⟩,
        Pattern.fits_many_one.mpr (List.forall_mem_cons.mp hword).2⟩

/-- Behind the name come white space, the sign, and one more character unless the text ends. -/
theorem fits_assignmentSign {previous : Option Char} {stretch rest : List Char} :
    assignmentSign.Fits previous stretch rest ↔
      ∃ space next, (∀ c ∈ space, isBlank c = true) ∧ stretch = space ++ '=' :: next ∧
        ((∃ c, next = [c] ∧ c ≠ '=' ∧ c ≠ '>') ∨ next = [] ∧ rest = []) := by
  have hnext : ∀ {previous next}, (.noneOf "=>" <|> .textEnd : Pattern).Fits previous next rest ↔
      ((∃ c, next = [c] ∧ c ≠ '=' ∧ c ≠ '>') ∨ next = [] ∧ rest = []) := by
    intro previous next
    refine or_congr (exists_congr fun c => and_congr_right fun _ => ?_) Iff.rfl
    simp
  constructor
  · rintro ⟨space, _, rfl, hspace, sign, next, rfl, hsign, hrest⟩
    rw [Pattern.fits_char.mp hsign]
    exact ⟨space, next, Pattern.fits_blanks.mp hspace, rfl, hnext.mp hrest⟩
  · rintro ⟨space, next, hspace, rfl, hrest⟩
    exact ⟨space, _, rfl, Pattern.fits_blanks.mpr hspace, ['='], next, rfl,
      Pattern.fits_char.mpr rfl, hnext.mpr hrest⟩

/-- What the pattern of assignments describes. -/
theorem fits_assignmentPattern {previous : Option Char} {stretch rest : List Char} :
    assignmentPattern.Fits previous stretch rest ↔
      ∃ name space next, IsVariableName name ∧ (∀ c ∈ space, isBlank c = true) ∧
        stretch = '$' :: (name ++ (space ++ '=' :: next)) ∧
        ((∃ c, next = [c] ∧ c ≠ '=' ∧ c ≠ '>') ∨ next = [] ∧ rest = []) := by
  have hassoc : assignmentPattern.Fits previous stretch rest ↔
      (.char '$' ++ (.group 1 (.one (fun c => c.isAlpha || c == '_') ++ .many .word) ++
        assignmentSign) : Pattern).Fits previous stretch rest := by
    rw [assignmentSign]
    simp only [← Pattern.fits_seq_assoc]
    exact Iff.rfl
  rw [hassoc]
  constructor
  · rintro ⟨dollar, _, rfl, hdollar, name, _, rfl, hname, hsign⟩
    obtain ⟨space, next, hspace, rfl, hnext⟩ := fits_assignmentSign.mp hsign
    rw [Pattern.fits_char.mp hdollar]
    exact ⟨name, space, next, fits_variableName.mp hname, hspace, rfl, hnext⟩
  · rintro ⟨name, space, next, hname, hspace, rfl, hnext⟩
    exact ⟨['$'], _, rfl, Pattern.fits_char.mpr rfl, name, _, rfl, fits_variableName.mpr hname,
      fits_assignmentSign.mpr ⟨space, next, hspace, rfl, hnext⟩⟩

namespace AssignmentAt

variable {code : List Char}

/-- The assignment as one stretch, with the character behind its sign. -/
theorem exists_fits (a : AssignmentAt code) :
    ∃ stretch rest, code = a.before ++ (stretch ++ rest) ∧
      stretch ++ rest = '$' :: (a.name ++ (a.space ++ '=' :: a.rest)) ∧
      assignmentPattern.Fits a.before.getLast? stretch rest := by
  have hnext : ∃ next later, a.rest = next ++ later ∧
      ((∃ c, next = [c] ∧ c ≠ '=' ∧ c ≠ '>') ∨ next = [] ∧ later = []) := by
    have hsign := a.sign
    cases hrest : a.rest with
    | nil => exact ⟨[], [], rfl, .inr ⟨rfl, rfl⟩⟩
    | cons c later =>
      rw [hrest] at hsign
      exact ⟨[c], later, rfl, .inl ⟨c, rfl, hsign c rfl⟩⟩
  obtain ⟨next, later, hrest, hnext⟩ := hnext
  have hstretch : '$' :: (a.name ++ (a.space ++ '=' :: next)) ++ later =
      '$' :: (a.name ++ (a.space ++ '=' :: a.rest)) := by
    rw [hrest]
    simp
  refine ⟨'$' :: (a.name ++ (a.space ++ '=' :: next)), later, ?_, hstretch, ?_⟩
  · rw [hstretch]
    exact a.code_eq
  · exact fits_assignmentPattern.mpr ⟨a.name, a.space, next, a.named, a.spaced, rfl, hnext⟩

/-- Where the pattern of assignments matches there is one, and the match tells its name. -/
theorem exists_of_matchAt? {before text : List Char} {m : Match}
    (h : assignmentPattern.matchAt? (.behind before text) = some m) :
    ∃ a : AssignmentAt (before ++ text), a.before = before ∧
      ∃ start stop, m.group? 1 = some ⟨start, stop, a.name⟩ := by
  rw [matchAt?_assignmentPattern] at h
  obtain ⟨dollar, name, sign, rest, htext, hdollar, hname, hsign, hgroup, -⟩ :=
    Pattern.exists_of_matchAt?_group (by rfl) h
  obtain ⟨space, next, hspace, rfl, hnext⟩ := fits_assignmentSign.mp hsign
  rw [Pattern.fits_char.mp hdollar, Cursor.behind_rest] at htext
  have hcode : before ++ text = before ++ '$' :: (name ++ (space ++ '=' :: (next ++ rest))) := by
    rw [htext]
    simp
  refine ⟨⟨before, name, space, next ++ rest, hcode, fits_variableName.mp hname, hspace, ?_⟩, rfl,
    _, _, hgroup⟩
  rcases hnext with ⟨c, rfl, hc⟩ | ⟨rfl, rfl⟩
  · rintro x hx
    cases hx
    exact hc
  · rintro x hx
    cases hx

end AssignmentAt

/-! ## Chains -/

/-- Is the text a variable, white space and the sign? -/
def IsLink (text : List Char) : Prop :=
  ∃ name space, IsVariableName name ∧ (∀ c ∈ space, isBlank c = true) ∧
    text = '$' :: (name ++ (space ++ ['=']))

/-- How many assignments are chained at the end of the text, each right behind the sign of the one
    before? -/
inductive Chained : List Char → Nat → Prop where
  | start {before : List Char} (h : ∀ front link, IsLink link → before ≠ front ++ link) :
    Chained before 0
  | link {before link : List Char} {n : Nat} (h : Chained before n) (hlink : IsLink link) :
    Chained (before ++ link) (n + 1)

theorem IsLink.ne_nil {link : List Char} (h : IsLink link) : link ≠ [] := by
  obtain ⟨name, space, -, -, rfl⟩ := h
  exact List.cons_ne_nil _ _

theorem chained_nil : Chained [] 0 :=
  .start fun _ _ hlink hnil => hlink.ne_nil (List.append_eq_nil_iff.mp hnil.symm).2

/-- A link at the end of a text is known by the text. -/
theorem IsLink.unique {front front' link link' : List Char} (h : IsLink link) (h' : IsLink link')
    (heq : front ++ link = front' ++ link') : front = front' ∧ link = link' := by
  obtain ⟨name, space, hname, hspace, rfl⟩ := h
  obtain ⟨name', space', hname', hspace', rfl⟩ := h'
  have hends : (front ++ '$' :: (name ++ space)) ++ ['='] =
      (front' ++ '$' :: (name' ++ space')) ++ ['='] := by
    simpa using heq
  obtain ⟨rfl, rfl, rfl⟩ := eq_of_variable_at_end hname.ne_nil hname'.ne_nil hname.2 hname'.2 hspace
    hspace' (List.append_cancel_right hends)
  exact ⟨rfl, rfl⟩

theorem Chained.unique {before : List Char} {n n' : Nat} (h : Chained before n)
    (h' : Chained before n') : n = n' := by
  induction h generalizing n' with
  | start hfree =>
    cases h' with
    | start => rfl
    | link _ hlink => exact absurd rfl (hfree _ _ hlink)
  | @link before link n _ hlink ih =>
    generalize htext : before ++ link = text at h'
    cases h' with
    | start hfree => exact absurd htext.symm (hfree _ _ hlink)
    | link hbefore' hlink' =>
      obtain ⟨rfl, -⟩ := hlink.unique hlink' htext
      rw [ih hbefore']

theorem exists_chained (before : List Char) : ∃ n, Chained before n := by
  by_cases h : ∃ front link, IsLink link ∧ before = front ++ link
  · obtain ⟨front, link, hlink, hbefore⟩ := h
    have hless : front.length < before.length := by
      have hpos := List.length_pos_iff.mpr hlink.ne_nil
      rw [hbefore, List.length_append]
      omega
    obtain ⟨n, hn⟩ := exists_chained front
    exact ⟨n + 1, hbefore ▸ hn.link hlink⟩
  · exact ⟨0, .start fun front link hlink hbefore => h ⟨front, link, hlink, hbefore⟩⟩
termination_by before.length

namespace AssignmentAt

variable {code : List Char}

/-- Is the assignment read? Every second one of a chain is. -/
def IsRead (a : AssignmentAt code) : Prop :=
  ∃ n, Chained a.before n ∧ n % 2 = 0

/-- Does the search find the assignment? -/
def IsFound (a : AssignmentAt code) : Prop :=
  ∃ m ∈ assignmentPattern.findAll code, m.whole.start = byteLength a.before

/-- What reaches over the start of an assignment is the assignment whose sign stands right before
    it. -/
theorem isLink_of_covers {x y r name space rest : List Char} {previous : Option Char}
    (hrest : '$' :: (name ++ (space ++ '=' :: rest)) = y ++ r) (hx : x ≠ []) (hy : y ≠ [])
    (h : assignmentPattern.Fits previous (x ++ y) r) : IsLink x := by
  obtain ⟨name', space', next, hname', hspace', hstretch, hnext⟩ := fits_assignmentPattern.mp h
  have hlink : IsLink ('$' :: (name' ++ (space' ++ ['=']))) := ⟨name', space', hname', hspace', rfl⟩
  obtain ⟨y', rfl⟩ : ∃ y', y = '$' :: y' := by
    cases y with
    | nil => exact absurd rfl hy
    | cons c y' => exact ⟨y', by rw [(List.cons.inj hrest).1]⟩
  obtain ⟨x', rfl⟩ : ∃ x', x = '$' :: x' := by
    cases x with
    | nil => exact absurd rfl hx
    | cons c x' => exact ⟨x', by rw [(List.cons.inj hstretch).1]⟩
  have htail : x' ++ '$' :: y' = (name' ++ (space' ++ ['='])) ++ next := by
    have := (List.cons.inj hstretch).2
    simpa using this
  have hdollar : '$' ∉ name' ++ (space' ++ ['=']) := by
    intro hmem
    rcases List.mem_append.mp hmem with hmem | hmem
    · exact absurd (hname'.2 _ hmem) (by decide)
    · rcases List.mem_append.mp hmem with hmem | hmem
      · exact absurd (hspace' _ hmem) (by decide)
      · exact absurd (List.mem_singleton.mp hmem) (by decide)
  -- The sign of the variable is the one character behind the sign of the other assignment.
  rcases List.append_eq_append_iff.mp htail with ⟨z, hz, hlater⟩ | ⟨z, hz, hlater⟩
  · cases z with
    | nil =>
      rw [List.append_nil] at hz
      rw [← hz]
      exact hlink
    | cons c z =>
      rw [List.cons_append, List.cons.injEq] at hlater
      refine absurd ?_ hdollar
      rw [hz, ← hlater.1]
      simp
  · have hnil : z = [] := by
      rcases hnext with ⟨c, rfl, -⟩ | ⟨rfl, -⟩
      · cases z with
        | nil => rfl
        | cons d z => simp at hlater
      · simp at hlater
    rw [hz, hnil, List.append_nil]
    exact hlink

/-- An assignment is found unless a match that is found reaches over its start. -/
theorem isFound_iff (a : AssignmentAt code) :
    a.IsFound ↔ ∀ m ∈ assignmentPattern.findAll code, m.whole.start < byteLength a.before →
      m.whole.stop ≤ byteLength a.before := by
  obtain ⟨stretch, rest, hcode, -, hfits⟩ := a.exists_fits
  obtain ⟨m, hm, hstart⟩ := Pattern.exists_matchAt?_of_fits isVisible_assignmentPattern hfits
  have hfree := Pattern.mem_findAll_iff isVisible_assignmentPattern hm
  rw [← hcode] at hfree
  rw [← hfree]
  constructor
  · rintro ⟨m', hm', hstart'⟩
    rw [hcode] at hm'
    have hsame := Pattern.matchAt?_of_mem_findAll isVisible_assignmentPattern hm' hstart'
    rw [hm, Option.some_inj] at hsame
    rw [hcode, hsame]
    exact hm'
  · exact fun hmem => ⟨m, hmem, hstart⟩

/-- No assignment that goes on is within a link, of which only the last character is a sign. -/
theorem not_fits_in_link {link stretch more rest : List Char} {previous : Option Char}
    (hlink : IsLink link) (hmore : link = stretch ++ more) (hrest : rest ≠ []) :
    ¬ assignmentPattern.Fits previous stretch rest := by
  intro hfits
  obtain ⟨name, space, hname, hspace, rfl⟩ := hlink
  obtain ⟨name', space', next, -, -, rfl, ⟨c, rfl, -⟩ | ⟨-, hnil⟩⟩ :=
    fits_assignmentPattern.mp hfits
  · have hlast : ('$' :: (name ++ space)) ++ ['='] =
        ('$' :: (name' ++ space')) ++ ('=' :: c :: more) := by
      simpa using hmore
    have hfront := congrArg List.dropLast hlast
    rw [List.dropLast_concat, List.dropLast_append_of_ne_nil (List.cons_ne_nil _ _),
      List.dropLast_cons_cons] at hfront
    have hsign : '=' ∈ '$' :: (name ++ space) := by
      rw [hfront]
      exact List.mem_append_right _ List.mem_cons_self
    rcases List.mem_cons.mp hsign with hsign | hsign
    · exact absurd hsign (by decide)
    · rcases List.mem_append.mp hsign with hsign | hsign
      · exact absurd (hname.2 _ hsign) (by decide)
      · exact absurd (hspace _ hsign) (by decide)
  · exact hrest hnil

/-- The match of an assignment reaches over the start of one right behind its sign. -/
theorem lt_stop_of_link {before link tail : List Char} (hlink : IsLink link) {m : Match}
    (hm : assignmentPattern.matchAt? (.behind before (link ++ '$' :: tail)) = some m) :
    byteLength (before ++ link) < m.whole.stop := by
  obtain ⟨stretch, rest, hrest, -, hfits, hwhole, -⟩ :=
    Pattern.exists_of_matchAt? isVisible_assignmentPattern hm
  have hstop : m.whole.stop = byteLength before + byteLength stretch := by rw [hwhole]; rfl
  rw [Cursor.behind_rest] at hrest
  rw [hstop, byteLength_append]
  rcases List.append_eq_append_iff.mp hrest with ⟨z, hz, hlater⟩ | ⟨z, hz, hlater⟩
  · cases z with
    | nil =>
      have hsame : link = stretch ++ [] := by rw [hz, List.append_nil, List.append_nil]
      have hne : rest ≠ [] := by rintro rfl; cases hlater
      exact absurd hfits (not_fits_in_link hlink hsame hne)
    | cons c z =>
      have hpos := byteLength_pos (List.cons_ne_nil c z)
      rw [hz, byteLength_append]
      omega
  · have hne : rest ≠ [] := by rw [hlater]; simp
    exact absurd hfits (not_fits_in_link hlink hz hne)

/-- An assignment right behind the sign of another is found exactly if the other is not. -/
theorem isFound_iff_of_link {before link : List Char} (hlink : IsLink link) (a : AssignmentAt code)
    (ha : a.before = before ++ link) :
    ∃ b : AssignmentAt code, b.before = before ∧ (a.IsFound ↔ ¬ b.IsFound) := by
  have hcode : code = before ++ (link ++ '$' :: (a.name ++ (a.space ++ '=' :: a.rest))) := by
    conv => lhs; rw [a.code_eq, ha]
    rw [List.append_assoc]
  obtain ⟨name, space, hname, hspace, hlinkEq⟩ := id hlink
  have hother : code = before ++
      '$' :: (name ++ (space ++ '=' :: '$' :: (a.name ++ (a.space ++ '=' :: a.rest)))) := by
    conv => lhs; rw [hcode, hlinkEq]
    simp
  refine ⟨⟨before, name, space, _, hother, hname, hspace, ?_⟩, rfl, ?_⟩
  · rintro c hc
    cases hc
    decide
  constructor
  · rintro hfound ⟨m, hm, hstart⟩
    have hle := a.isFound_iff.mp hfound m hm
    have hplace : m.whole.start = byteLength before := hstart
    rw [hcode] at hm
    have hlt := lt_stop_of_link hlink
      (Pattern.matchAt?_of_mem_findAll isVisible_assignmentPattern hm hplace)
    have hpos := byteLength_pos hlink.ne_nil
    rw [ha, byteLength_append] at hle
    rw [byteLength_append] at hlt
    omega
  · intro hnot
    refine a.isFound_iff.mpr fun m hm hstart => Nat.le_of_not_lt fun hstop => hnot ?_
    have hm' := hm
    rw [a.code_eq] at hm'
    obtain ⟨b, x, y, r, hbefore, hover, hx, hy, hmatch, hfits⟩ :=
      Pattern.exists_of_covers isVisible_assignmentPattern hm' hstart hstop
    obtain ⟨rfl, -⟩ := hlink.unique (isLink_of_covers hover hx hy hfits) (ha.symm.trans hbefore)
    obtain ⟨_, _, -, -, -, hwhole, -⟩ :=
      Pattern.exists_of_matchAt? isVisible_assignmentPattern hmatch
    exact ⟨m, hm, by rw [hwhole]; rfl⟩

/-- An assignment is found exactly if an even number of them is chained in front of it. -/
theorem found_iff {before : List Char} {n : Nat} (h : Chained before n) (a : AssignmentAt code)
    (ha : a.before = before) : a.IsFound ↔ n % 2 = 0 := by
  induction h generalizing a with
  | start hfree =>
    refine iff_of_true (a.isFound_iff.mpr fun m hm hstart => Nat.le_of_not_lt fun hstop => ?_) rfl
    obtain ⟨stretch, rest, hcode, hrest, -⟩ := a.exists_fits
    rw [hcode, hrest] at hm
    obtain ⟨b, x, y, r, hbefore, hover, hx, hy, -, hfits⟩ :=
      Pattern.exists_of_covers isVisible_assignmentPattern hm hstart hstop
    exact hfree b x (isLink_of_covers hover hx hy hfits) (ha ▸ hbefore)
  | @link before link n _ hlink ih =>
    obtain ⟨b, hb, hiff⟩ := isFound_iff_of_link hlink a ha
    rw [hiff, ih b hb]
    omega

theorem isFound_iff_isRead (a : AssignmentAt code) : a.IsFound ↔ a.IsRead := by
  obtain ⟨n, hn⟩ := exists_chained a.before
  rw [found_iff hn a rfl]
  refine ⟨fun heven => ⟨n, hn, heven⟩, ?_⟩
  rintro ⟨n', hn', heven⟩
  rwa [hn.unique hn']

/-- The search finds the assignments that are read. -/
theorem exists_of_mem {m : Match} (hm : m ∈ assignmentPattern.findAll code) :
    ∃ a : AssignmentAt code, a.IsRead ∧ m.whole.start = byteLength a.before ∧
      ∃ start stop, m.group? 1 = some ⟨start, stop, a.name⟩ := by
  obtain ⟨before, rest, rfl, hmatch, hstart⟩ :=
    Pattern.exists_of_mem_findAll isVisible_assignmentPattern hm
  obtain ⟨a, ha, hgroup⟩ := exists_of_matchAt? hmatch
  have hplace : m.whole.start = byteLength a.before := by rw [hstart, ha]
  exact ⟨a, a.isFound_iff_isRead.mp ⟨m, hm, hplace⟩, hplace, hgroup⟩

/-- The name ends where white space or the sign begins. -/
theorem name_ends (a : AssignmentAt code) :
    (a.space ++ '=' :: a.rest).head?.any isWord = false := by
  have hspaced := a.spaced
  cases hspace : a.space with
  | nil =>
    change isWord '=' = false
    decide
  | cons c space =>
    rw [hspace] at hspaced
    exact isWord_of_isBlank (hspaced c List.mem_cons_self)

/-- Assignments in one place have one name. -/
theorem name_eq {a b : AssignmentAt code} (h : a.before = b.before) : a.name = b.name := by
  have hcode := a.code_eq.symm.trans b.code_eq
  rw [h] at hcode
  have htail := (List.cons.inj (List.append_cancel_left hcode)).2
  rw [← (span_append_of_head a.named.2 a.name_ends).1, htail,
    (span_append_of_head b.named.2 b.name_ends).1]

theorem IsRead.exists_mem {a : AssignmentAt code} (h : a.IsRead) :
    ∃ m ∈ assignmentPattern.findAll code,
      ∃ start stop, m.group? 1 = some ⟨start, stop, a.name⟩ := by
  obtain ⟨m, hm, hstart⟩ := a.isFound_iff_isRead.mpr h
  obtain ⟨b, -, hplace, start, stop, hgroup⟩ := exists_of_mem hm
  have hbefore : a.before = b.before :=
    eq_of_byteLength (a.code_eq.symm.trans b.code_eq) (hstart.symm.trans hplace)
  rw [name_eq hbefore]
  exact ⟨m, hm, start, stop, hgroup⟩

end AssignmentAt

/-- The variable that an issue is about. -/
def variableOf? (issue : Issue) : Option String :=
  match issue.metadata.lookup "variable" with
  | some (.str name) => some name
  | _ => none

/-- Does the line assign to the variable, so that it is read? -/
def ReadOn (name : List Char) (line : SourceLine) : Prop :=
  isDeclarationLine line.text = false ∧ ∃ a : AssignmentAt line.bare, a.IsRead ∧ a.name = name

/-- The variables to which a line assigns. -/
theorem mem_ofLine_iff {line : SourceLine} {name : List Char} :
    (∃ a ∈ Assignment.ofLine line, a.name = name) ↔ ReadOn name line := by
  rw [ReadOn, Assignment.ofLine]
  split
  · rename_i hdeclares
    simp [hdeclares]
  · rename_i hdeclares
    rw [Bool.not_eq_true] at hdeclares
    constructor
    · rintro ⟨a, ha, rfl⟩
      obtain ⟨m, hm, hgroup⟩ := List.mem_filterMap.mp ha
      obtain ⟨place, hread, -, start, stop, hplace⟩ := AssignmentAt.exists_of_mem hm
      rw [hplace] at hgroup
      cases hgroup
      exact ⟨hdeclares, place, hread, rfl⟩
    · rintro ⟨-, place, hread, rfl⟩
      obtain ⟨m, hm, start, stop, hgroup⟩ := hread.exists_mem
      refine ⟨⟨line.row, place.name, Assignment.valueAfter line.text stop⟩, ?_, rfl⟩
      refine List.mem_filterMap.mpr ⟨m, hm, ?_⟩
      rw [hgroup]
      rfl

theorem row_of_mem_ofLine {line : SourceLine} {a : Assignment} (h : a ∈ Assignment.ofLine line) :
    a.row = line.row := by
  rw [Assignment.ofLine] at h
  split at h
  · cases h
  · obtain ⟨m, -, hgroup⟩ := List.mem_filterMap.mp h
    obtain ⟨group, -, hname⟩ := Option.bind_eq_some_iff.mp hgroup
    cases hname
    rfl

end Check

end CodeAudit
