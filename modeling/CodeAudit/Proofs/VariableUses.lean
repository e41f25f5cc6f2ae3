import CodeAudit.Proofs.AssignmentPlaces

/-!
# Uses of variables

The check of unused variables counts the names of the variables of a line, and the names that calls
of `compact` take in quotes. All variables are counted, each in its place. The arguments of a call
are read up to the first closing parenthesis on the line, so that names behind it are not counted.

Results:
* `count_flatMap_le_one_iff`: what occurs at most once.
* `VariableAt.exists_of_mem`, `VariableAt.exists_mem`: the variables of a line.
* `CompactUse.exists_of_mem`, `CompactUse.mem_takenNames`: the names that calls take.
* `count_used_le_one_iff`: the variables that are counted once.
-/

namespace CodeAudit

open Text Source

/-- What occurs at most once in the values of a list. -/
theorem count_flatMap_le_one_iff {α β : Type} [BEq β] [LawfulBEq β] {items : List α}
    (hitems : items.Nodup) {values : α → List β} {b : β} :
    (items.flatMap values).count b ≤ 1 ↔
      (∀ x ∈ items, (values x).count b ≤ 1) ∧
        ∀ x ∈ items, ∀ y ∈ items, b ∈ values x → b ∈ values y → x = y := by
  induction items with
  | nil => simp
  | cons first rest ih =>
    obtain ⟨hfirst, hrest⟩ := List.nodup_cons.mp hitems
    rw [List.flatMap_cons, List.count_append]
    constructor
    · intro hcount
      obtain ⟨hone, hsame⟩ := (ih hrest).mp (by omega)
      -- What the first value holds, the others do not.
      have hapart : ∀ y ∈ rest, b ∈ values first → b ∉ values y := by
        intro y hy hb hb'
        have h : 0 < (values first).count b := List.count_pos_iff.mpr hb
        have h' : 0 < (rest.flatMap values).count b :=
          List.count_pos_iff.mpr (List.mem_flatMap.mpr ⟨y, hy, hb'⟩)
        omega
      refine ⟨List.forall_mem_cons.mpr ⟨by omega, hone⟩, fun x hx y hy hb hb' => ?_⟩
      rcases List.mem_cons.mp hx with rfl | hxrest
      · rcases List.mem_cons.mp hy with rfl | hyrest
        · rfl
        · exact absurd hb' (hapart y hyrest hb)
      · rcases List.mem_cons.mp hy with rfl | hyrest
        · exact absurd hb (hapart x hxrest hb')
        · exact hsame x hxrest y hyrest hb hb'
    · rintro ⟨hone, hsame⟩
      rw [List.forall_mem_cons] at hone
      by_cases hb : b ∈ values first
      · have hnone : (rest.flatMap values).count b = 0 := by
          rw [List.count_eq_zero]
          intro hmem
          obtain ⟨y, hy, hb'⟩ := List.mem_flatMap.mp hmem
          have hfirst' := hsame first List.mem_cons_self y (List.mem_cons_of_mem _ hy) hb hb'
          exact hfirst (hfirst' ▸ hy)
        have := hone.1
        omega
      · have hcount := (ih hrest).mpr ⟨hone.2, fun x hx y hy =>
          hsame x (List.mem_cons_of_mem _ hx) y (List.mem_cons_of_mem _ hy)⟩
        rw [List.count_eq_zero.mpr hb]
        omega

namespace Text

/-- A character that is not in the first part of a text stands in what follows the part. -/
theorem exists_of_append_eq {head tail front rest : List Char} {c : Char} (hc : c ∉ head)
    (h : head ++ tail = front ++ c :: rest) :
    ∃ between, front = head ++ between ∧ tail = between ++ c :: rest := by
  rcases List.append_eq_append_iff.mp h with ⟨z, hfront, htail⟩ | ⟨z, hhead, hrest⟩
  · exact ⟨z, hfront, htail⟩
  · cases z with
    | nil => exact ⟨[], by simpa using hhead.symm, by simpa using hrest.symm⟩
    | cons d z =>
      rw [hhead, (List.cons.inj hrest).1] at hc
      exact absurd (List.mem_append_right _ List.mem_cons_self) hc

theorem any_getLast?_of_append {test : Char → Bool} {front text : List Char}
    (h : (front ++ text).getLast?.any test = false) : text.getLast?.any test = false := by
  rw [List.getLast?_append] at h
  cases hlast : text.getLast? with
  | none => rfl
  | some c => rwa [hlast, Option.some_or] at h

end Text

namespace Check

open Practice

/-! ## Variables -/

/-- A variable in a line of code: what stands before it, its whole name, and what follows. -/
structure VariableAt (code : List Char) where
  before : List Char
  name : List Char
  rest : List Char
  code_eq : code = before ++ '$' :: (name ++ rest)
  named : name ≠ []
  chars : ∀ c ∈ name, isWord c = true
  ends : rest.head?.any isWord = false

theorem isVisible_variablePattern : variablePattern.isVisible = true := by
  have hdollar : (Pattern.char '$').isVisible = true := by decide
  exact Bool.or_eq_true_iff.mpr (.inr hdollar)

theorem fits_variablePattern {previous : Option Char} {stretch rest : List Char} :
    variablePattern.Fits previous stretch rest ↔
      ∃ name, name ≠ [] ∧ (∀ c ∈ name, isWord c = true) ∧ stretch = '$' :: name := by
  constructor
  · rintro ⟨_, name, rfl, hdollar, hname⟩
    obtain ⟨hne, hchars⟩ := Pattern.fits_many1_one.mp hname
    rw [Pattern.fits_char.mp hdollar]
    exact ⟨name, hne, hchars, rfl⟩
  · rintro ⟨name, hne, hchars, rfl⟩
    exact ⟨['$'], name, rfl, Pattern.fits_char.mpr rfl, Pattern.fits_many1_one.mpr ⟨hne, hchars⟩⟩

/-- A match of a variable takes the whole name. -/
theorem text_of_matchAt?_variable {before text : List Char} {m : Match}
    (h : variablePattern.matchAt? (.behind before ('$' :: text)) = some m) :
    m.text 1 = text.takeWhile isWord := by
  have hrun : variablePattern.matchAt? (.behind before ('$' :: text)) =
      (Pattern.many1 (.one isWord)).run ((Cursor.behind before ('$' :: text)).past ['$'] text) []
        fun c groups => some ⟨Span.between (.behind before ('$' :: text)) c,
          (1, (Cursor.behind before ('$' :: text)).past ['$'] text, c) :: groups, c⟩ := rfl
  rw [hrun, Pattern.run_many1_one fun _ _ => rfl] at h
  split at h
  · cases h
  · cases h
    exact Span.text_between (List.takeWhile_append_dropWhile ..).symm

namespace VariableAt

variable {code : List Char}

/-- The search finds variables, in their places. -/
theorem exists_of_mem {m : Match} (hm : m ∈ variablePattern.findAll code) :
    ∃ v : VariableAt code, m.whole.start = byteLength v.before ∧ m.text 1 = v.name := by
  obtain ⟨before, text, rfl, hmatch, hstart⟩ :=
    Pattern.exists_of_mem_findAll isVisible_variablePattern hm
  obtain ⟨stretch, later, htext, hfits, -⟩ := Pattern.exists_fits_of_matchAt? hmatch
  obtain ⟨name, hne, hchars, rfl⟩ := fits_variablePattern.mp hfits
  have htext' : text = '$' :: (name ++ later) := htext
  subst htext'
  have hname := text_of_matchAt?_variable hmatch
  have hlong : (name ++ later).takeWhile isWord ≠ [] := by
    rw [List.takeWhile_append_of_pos hchars]
    exact fun hnil => hne (List.append_eq_nil_iff.mp hnil).1
  refine ⟨⟨before, (name ++ later).takeWhile isWord, (name ++ later).dropWhile isWord, ?_, hlong,
    fun c hc => List.mem_takeWhile_imp hc, ?_⟩, hstart, hname⟩
  · rw [List.takeWhile_append_dropWhile]
  · have hhead := List.head?_dropWhile_not isWord (name ++ later)
    cases hrest : ((name ++ later).dropWhile isWord).head? with
    | none => rfl
    | some c =>
      rw [hrest] at hhead
      simpa using hhead

/-- No variable begins within another, so that all are found. -/
theorem exists_mem (v : VariableAt code) :
    ∃ m ∈ variablePattern.findAll code, m.whole.start = byteLength v.before ∧
      m.text 1 = v.name := by
  have hfits : variablePattern.Fits v.before.getLast? ('$' :: v.name) v.rest :=
    fits_variablePattern.mpr ⟨v.name, v.named, v.chars, rfl⟩
  have hcode : code = v.before ++ ('$' :: v.name ++ v.rest) := v.code_eq
  obtain ⟨m, hm, hmatch, hstart⟩ := Pattern.exists_mem_findAll isVisible_variablePattern hfits
    fun b x y r _ hrest hx hy hover => by
      obtain ⟨name, -, hchars, hstretch⟩ := fits_variablePattern.mp hover
      cases x with
      | nil => exact hx rfl
      | cons c x =>
        cases y with
        | nil => exact hy rfl
        | cons d y =>
          have hdollar : '$' ∈ name := by
            rw [← (List.cons.inj hstretch).2, ← (List.cons.inj hrest).1]
            simp
          exact absurd (hchars _ hdollar) (by decide)
  rw [← hcode] at hm
  refine ⟨m, hm, hstart, ?_⟩
  rw [text_of_matchAt?_variable hmatch]
  exact (span_append_of_head v.chars v.ends).1

/-- A name is counted once among the variables of a line exactly if they stand in one place. -/
theorem count_le_one_iff {name : List Char} :
    ((variablePattern.findAll code).map (·.text 1)).count name ≤ 1 ↔
      ∀ v w : VariableAt code, v.name = name → w.name = name → v.before = w.before := by
  rw [List.map_eq_flatMap,
    count_flatMap_le_one_iff (Pattern.nodup_findAll isVisible_variablePattern code)]
  constructor
  · rintro ⟨-, hsame⟩ v w rfl hw
    obtain ⟨m, hm, hstart, hname⟩ := v.exists_mem
    obtain ⟨m', hm', hstart', hname'⟩ := w.exists_mem
    have hmatch := hsame m hm m' hm' (by simp [hname]) (by simp [hname', hw])
    refine eq_of_byteLength (v.code_eq.symm.trans w.code_eq) ?_
    rw [← hstart, ← hstart', hmatch]
  · intro hsame
    refine ⟨fun m _ => List.count_le_length, fun m hm m' hm' hname hname' => ?_⟩
    obtain ⟨v, hstart, hv⟩ := exists_of_mem hm
    obtain ⟨w, hstart', hw⟩ := exists_of_mem hm'
    have hbefore := hsame v w (hv.symm.trans (List.mem_singleton.mp hname).symm)
      (hw.symm.trans (List.mem_singleton.mp hname').symm)
    exact Pattern.eq_of_start isVisible_variablePattern hm hm' (by rw [hstart, hstart', hbefore])

end VariableAt

/-! ## Names that calls take -/

/-- Does the character begin or end a quoted name? -/
def IsNameQuote (c : Char) : Prop := c = '\'' ∨ c = '"'

/-- A name in quotes among the arguments of a call of `compact` in a line of code. -/
structure CompactUse (code name : List Char) where
  before : List Char
  space : List Char
  args : List Char
  opening : Char
  closing : Char
  rest : List Char
  code_eq : code = before ++ ("compact".toList ++ (space ++ '(' ::
    (args ++ opening :: (name ++ closing :: rest))))
  starts : before.getLast?.any isWord = false
  spaced : ∀ c ∈ space, isBlank c = true
  opens : IsNameQuote opening
  closes : IsNameQuote closing

namespace CompactUse

variable {code name : List Char}

/-- Does the first closing parenthesis of the call stand behind the name? -/
def IsWithin (use : CompactUse code name) : Prop :=
  ')' ∉ use.args ∧ ')' ∈ use.rest

/-- Does something other than a word stand before the quote? -/
def IsApart (use : CompactUse code name) : Prop :=
  use.args.getLast?.any isWord = false

end CompactUse

theorem IsNameQuote.not_isWord {c : Char} (h : IsNameQuote c) : isWord c = false := by
  rcases h with rfl | rfl <;> decide

theorem IsNameQuote.ne_paren {c : Char} (h : IsNameQuote c) : ')' ≠ c := by
  rcases h with rfl | rfl <;> decide

/-- No quote is part of a call before its arguments. -/
theorem IsNameQuote.notMem {c : Char} (h : IsNameQuote c) {space : List Char}
    (hspace : ∀ c ∈ space, isBlank c = true) : c ∉ "compact".toList ++ (space ++ ['(']) := by
  have hword : ¬ isBlank c = true := by rcases h with rfl | rfl <;> decide
  have hname : c ∉ "compact".toList := by rcases h with rfl | rfl <;> decide
  have hparen : c ≠ '(' := by rcases h with rfl | rfl <;> decide
  simp only [List.mem_append, List.mem_singleton, not_or]
  exact ⟨hname, fun hmem => hword (hspace c hmem), hparen⟩

theorem isVisible_compactCall : compactCall.isVisible = true := by decide

theorem isVisible_quotedName : quotedName.isVisible = true := by
  have hquote : (Pattern.oneOf "'\"").isVisible = true := by decide
  exact Bool.or_eq_true_iff.mpr (.inl hquote)

/-- What the pattern of a call describes. -/
theorem fits_compactCall {previous : Option Char} {stretch rest : List Char} :
    compactCall.Fits previous stretch rest ↔
      previous.any isWord = false ∧ ∃ space args, (∀ c ∈ space, isBlank c = true) ∧ ')' ∉ args ∧
        stretch = "compact".toList ++ (space ++ '(' :: (args ++ [')'])) :=
  fits_closedCall (by decide)

/-- A call ends with its first closing parenthesis. -/
theorem exists_inner_of_fits_compactCall {previous : Option Char} {stretch rest : List Char}
    (h : compactCall.Fits previous stretch rest) :
    ∃ inner, ')' ∉ inner ∧ stretch = inner ++ [')'] := by
  obtain ⟨-, space, args, hspace, hargs, rfl⟩ := fits_compactCall.mp h
  refine ⟨"compact".toList ++ (space ++ '(' :: args), ?_, by simp⟩
  have hblank : ')' ∉ space := fun hmem => absurd (hspace _ hmem) (by decide)
  have hname : ')' ∉ "compact".toList := by decide
  simp only [List.mem_append, List.mem_cons, not_or]
  exact ⟨hname, hblank, by decide, hargs⟩

/-- Where the pattern of a call matches there is one, and the match tells its arguments. -/
theorem exists_args_of_matchAt? {before text : List Char} {m : Match}
    (h : compactCall.matchAt? (.behind before text) = some m) :
    before.getLast?.any isWord = false ∧ ∃ space args rest, (∀ c ∈ space, isBlank c = true) ∧
      ')' ∉ args ∧ text = "compact".toList ++ (space ++ '(' :: (args ++ ')' :: rest)) ∧
      m.text 1 = args ∧ m.whole.text = "compact".toList ++ (space ++ '(' :: (args ++ [')'])) := by
  have hassoc : (callOf (.lit "compact") ++ .group 1 (.many (.noneOf ")")) ++ .char ')' :
      Pattern).matchAt? (.behind before text) = some m := h
  obtain ⟨_, args, last, rest, htext, hfront, hargs, hlast, hgroup, hwhole⟩ :=
    Pattern.exists_of_matchAt?_group (by rfl) hassoc
  obtain ⟨hstarts, name, hname, space, hspace, rfl⟩ :=
    (spells_lit "compact" (by decide)).fits_callOf.mp hfront
  obtain rfl := List.mem_singleton.mp hname
  rw [Cursor.behind_rest, Pattern.fits_char.mp hlast] at htext
  rw [Pattern.fits_char.mp hlast] at hwhole
  refine ⟨hstarts, space, args, rest, hspace, fits_arguments.mp hargs, ?_, ?_, ?_⟩
  · rw [htext]
    simp
  · rw [Match.text, hgroup]
    rfl
  · rw [hwhole]
    simp

theorem fits_nameQuote {previous : Option Char} {stretch rest : List Char} :
    (Pattern.oneOf "'\"").Fits previous stretch rest ↔ ∃ c, IsNameQuote c ∧ stretch = [c] := by
  rw [Pattern.fits_oneOf]
  exact exists_congr fun c => and_congr_left fun _ => by simp [IsNameQuote]

/-- What the pattern of a quoted name describes. -/
theorem fits_quotedName {previous : Option Char} {stretch rest : List Char} :
    quotedName.Fits previous stretch rest ↔
      ∃ opening name closing, IsNameQuote opening ∧ IsNameQuote closing ∧ name ≠ [] ∧
        (∀ c ∈ name, isWord c = true) ∧ stretch = opening :: (name ++ [closing]) := by
  constructor
  · rintro ⟨_, last, rfl, ⟨first, name, rfl, hfirst, hname⟩, hlast⟩
    obtain ⟨opening, hopening, rfl⟩ := fits_nameQuote.mp hfirst
    obtain ⟨closing, hclosing, rfl⟩ := fits_nameQuote.mp hlast
    obtain ⟨hne, hchars⟩ := Pattern.fits_many1_one.mp hname
    exact ⟨opening, name, closing, hopening, hclosing, hne, hchars, rfl⟩
  · rintro ⟨opening, name, closing, hopening, hclosing, hne, hchars, rfl⟩
    exact ⟨opening :: name, [closing], rfl, ⟨[opening], name, rfl,
      fits_nameQuote.mpr ⟨opening, hopening, rfl⟩, Pattern.fits_many1_one.mpr ⟨hne, hchars⟩⟩,
      fits_nameQuote.mpr ⟨closing, hclosing, rfl⟩⟩

/-- Where the pattern of a quoted name matches there is one, and the match tells it. -/
theorem exists_name_of_matchAt? {before text : List Char} {m : Match}
    (h : quotedName.matchAt? (.behind before text) = some m) :
    ∃ opening closing rest, IsNameQuote opening ∧ IsNameQuote closing ∧
      (∀ c ∈ m.text 1, isWord c = true) ∧ text = opening :: (m.text 1 ++ closing :: rest) := by
  obtain ⟨first, name, last, rest, htext, hfirst, hname, hlast, hgroup, -⟩ :=
    Pattern.exists_of_matchAt?_group (by rfl) h
  obtain ⟨opening, hopening, rfl⟩ := fits_nameQuote.mp hfirst
  obtain ⟨closing, hclosing, rfl⟩ := fits_nameQuote.mp hlast
  have hsame : m.text 1 = name := by rw [Match.text, hgroup]; rfl
  rw [hsame]
  exact ⟨opening, closing, rest, hopening, hclosing, (Pattern.fits_many1_one.mp hname).2, htext⟩

/-- No quoted name reaches over a quote that stands behind something other than a word. -/
theorem not_fits_over_quote {b x y r text : List Char} {opening : Char}
    (hopening : IsNameQuote opening) (hapart : (b ++ x).getLast?.any isWord = false)
    (hrest : opening :: text = y ++ r) (hx : x ≠ []) (hy : y ≠ []) :
    ¬ quotedName.Fits b.getLast? (x ++ y) r := by
  intro hover
  obtain ⟨opening', name, closing, -, -, hne, hchars, hstretch⟩ := fits_quotedName.mp hover
  obtain ⟨c, x, rfl⟩ := List.exists_cons_of_ne_nil hx
  obtain ⟨d, y, rfl⟩ := List.exists_cons_of_ne_nil hy
  have hd : opening = d := (List.cons.inj hrest).1
  have htail : x ++ d :: y = name ++ [closing] := (List.cons.inj hstretch).2
  -- The quote is not part of the name, so that it ends the name.
  have hname : x = name := by
    rcases List.append_eq_append_iff.mp htail with ⟨z, hz, hlater⟩ | ⟨z, hz, hlater⟩
    · cases z with
      | nil => rw [hz, List.append_nil]
      | cons e z =>
        have hmem : d ∈ name := by
          rw [hz, (List.cons.inj hlater).1]
          simp
        rw [← hd] at hmem
        have hword := hchars _ hmem
        rw [hopening.not_isWord] at hword
        cases hword
    · cases z with
      | nil => rw [hz, List.append_nil]
      | cons e z => simp at hlater
  rw [hname, List.getLast?_append_of_ne_nil _ (List.cons_ne_nil _ _),
    List.getLast?_cons_of_ne_nil hne, List.getLast?_eq_some_getLast hne, Option.any_some,
    hchars _ (List.getLast_mem hne)] at hapart
  cases hapart

/-- A quoted name is found if no word stands before its quote. -/
theorem exists_mem_findAll_quotedName {front name : List Char} (rest : List Char)
    {opening closing : Char} (hopening : IsNameQuote opening) (hclosing : IsNameQuote closing)
    (hne : name ≠ []) (hchars : ∀ c ∈ name, isWord c = true)
    (hapart : front.getLast?.any isWord = false) :
    ∃ m ∈ quotedName.findAll (front ++ opening :: (name ++ closing :: rest)), m.text 1 = name := by
  have hfits : quotedName.Fits front.getLast? (opening :: (name ++ [closing])) rest :=
    fits_quotedName.mpr ⟨opening, name, closing, hopening, hclosing, hne, hchars, rfl⟩
  have htext : opening :: (name ++ [closing]) ++ rest = opening :: (name ++ closing :: rest) := by
    simp
  obtain ⟨m, hm, hmatch, -⟩ := Pattern.exists_mem_findAll isVisible_quotedName hfits
    fun b x y r hbefore hrest hx hy =>
      not_fits_over_quote hopening (hbefore ▸ hapart) hrest hx hy
  rw [htext] at hm hmatch
  refine ⟨m, hm, ?_⟩
  obtain ⟨opening', closing', rest', -, hclosing', hchars', htext'⟩ :=
    exists_name_of_matchAt? hmatch
  have hends : ∀ {c : Char} {rest : List Char}, IsNameQuote c →
      (c :: rest).head?.any isWord = false := fun hc => hc.not_isWord
  rw [← (span_append_of_head hchars' (hends hclosing')).1, ← (List.cons.inj htext').2,
    (span_append_of_head hchars (hends hclosing)).1]

/-- The names that the calls of a line take. -/
def takenNames (code : List Char) : List (List Char) :=
  (compactCall.findAll code).flatMap fun call =>
    (quotedName.findAll (call.text 1)).map (·.text 1)

theorem usedNames_eq (line : SourceLine) :
    usedNames line = (variablePattern.findAll line.code).map (·.text 1) ++ takenNames line.code :=
  rfl

namespace CompactUse

variable {code name : List Char}

/-- A name that is taken stands in quotes before the first closing parenthesis. -/
theorem exists_of_mem (h : name ∈ takenNames code) :
    ∃ use : CompactUse code name, use.IsWithin := by
  obtain ⟨call, hcall, hname⟩ := List.mem_flatMap.mp h
  obtain ⟨found, hfound, rfl⟩ := List.mem_map.mp hname
  obtain ⟨before, text, rfl, hmatch, -⟩ :=
    Pattern.exists_of_mem_findAll isVisible_compactCall hcall
  obtain ⟨hstarts, space, args, rest, hspace, hargs, htext, hcallArgs, -⟩ :=
    exists_args_of_matchAt? hmatch
  obtain ⟨front, quoted, hsplit, hmatch', -⟩ :=
    Pattern.exists_of_mem_findAll isVisible_quotedName hfound
  obtain ⟨opening, closing, later, hopening, hclosing, -, hquoted⟩ :=
    exists_name_of_matchAt? hmatch'
  rw [hcallArgs] at hsplit
  have hcode : before ++ text = before ++ ("compact".toList ++ (space ++ '(' ::
      (front ++ opening :: (found.text 1 ++ closing :: (later ++ ')' :: rest))))) := by
    rw [htext, hsplit, hquoted]
    simp
  refine ⟨⟨before, space, front, opening, closing, later ++ ')' :: rest, hcode, hstarts, hspace,
    hopening, hclosing⟩, ?_, by simp⟩
  rw [hsplit] at hargs
  exact fun hmem => hargs (List.mem_append_left _ hmem)

/-- A name in quotes before the first closing parenthesis is taken, if no word stands before its
    quote. A call within another ends with it, so that the other has the name too. -/
theorem mem_takenNames (use : CompactUse code name) (hwithin : use.IsWithin) (hapart : use.IsApart)
    (hne : name ≠ []) (hchars : ∀ c ∈ name, isWord c = true) : name ∈ takenNames code := by
  obtain ⟨later, rest, hrest, hlater⟩ := List.eq_append_cons_of_mem hwithin.2
  have hargs : ')' ∉ use.args ++ use.opening :: (name ++ use.closing :: later) := by
    have hname : ')' ∉ name := fun hmem => absurd (hchars _ hmem) (by decide)
    simp only [List.mem_append, List.mem_cons, not_or]
    exact ⟨hwithin.1, use.opens.ne_paren, hname, use.closes.ne_paren, hlater⟩
  have hfits : compactCall.Fits use.before.getLast? _ rest :=
    fits_compactCall.mpr ⟨use.starts, use.space, _, use.spaced, hargs, rfl⟩
  obtain ⟨b, x, -, m, hm, hmatch, hwhole⟩ :=
    Pattern.exists_found_with_end isVisible_compactCall exists_inner_of_fits_compactCall hfits
  obtain ⟨-, space, args, rest', hspace, -, -, hargsEq, hwhole'⟩ := exists_args_of_matchAt? hmatch
  have hstretch : (("compact".toList ++ (space ++ ['('])) ++ args) ++ [')'] =
      ((x ++ ("compact".toList ++ (use.space ++ ['('])) ++ use.args) ++
        use.opening :: (name ++ use.closing :: later)) ++ [')'] := by
    simpa using hwhole'.symm.trans hwhole
  obtain ⟨front, hfront, hquoted⟩ := exists_of_append_eq (use.opens.notMem hspace)
    (List.append_cancel_right hstretch)
  have hlast : (x ++ ("compact".toList ++ (use.space ++ ['('])) ++ use.args).getLast?.any isWord =
      false := by
    cases hargs : use.args.getLast? with
    | none =>
      rw [List.getLast?_eq_none_iff.mp hargs, List.append_nil, ← List.append_assoc,
        ← List.append_assoc, List.getLast?_concat]
      decide
    | some c =>
      have hc := hapart
      rw [IsApart, hargs] at hc
      rw [List.getLast?_append, hargs, Option.some_or]
      exact hc
  rw [hfront] at hlast
  obtain ⟨found, hfound, hname⟩ := exists_mem_findAll_quotedName later use.opens
    use.closes hne hchars (any_getLast?_of_append hlast)
  have hcode : code = use.before ++ ("compact".toList ++ (use.space ++ '(' ::
      ((use.args ++ use.opening :: (name ++ use.closing :: later)) ++ [')'])) ++ rest) := by
    conv => lhs; rw [use.code_eq, hrest]
    simp
  rw [← hquoted, ← hargsEq] at hfound
  rw [← hcode] at hm
  exact List.mem_flatMap.mpr ⟨m, hm, List.mem_map.mpr ⟨found, hfound, hname⟩⟩

end CompactUse

/-! ## Names that are counted -/

/-- A variable is counted once exactly if it stands in one place and no call takes it. -/
theorem count_used_le_one_iff {s : Subject} (hs : s.IsNumbered) {line : SourceLine}
    (hline : line ∈ s.codeLines) (v : VariableAt line.code) :
    (s.codeLines.flatMap usedNames).count v.name ≤ 1 ↔
      (∀ other ∈ s.codeLines, ∀ w : VariableAt other.code, w.name = v.name →
        other = line ∧ w.before = v.before) ∧
      ∀ other ∈ s.codeLines, v.name ∉ takenNames other.code := by
  have hmem : ∀ {other : SourceLine} (w : VariableAt other.code),
      w.name ∈ (variablePattern.findAll other.code).map (·.text 1) := by
    intro other w
    obtain ⟨m, hm, -, hname⟩ := w.exists_mem
    exact List.mem_map.mpr ⟨m, hm, hname⟩
  rw [count_flatMap_le_one_iff hs.nodup_rows.of_map]
  simp only [usedNames_eq, List.count_append, List.mem_append]
  constructor
  · rintro ⟨hone, hsame⟩
    refine ⟨fun other hother w hw => ?_, fun other hother htaken => ?_⟩
    · obtain rfl : other = line :=
        hsame other hother line hline (.inl (hw ▸ hmem w)) (.inl (hmem v))
      have hcount := hone other hother
      exact ⟨rfl, VariableAt.count_le_one_iff.mp (by omega) w v hw rfl⟩
    · obtain rfl : other = line := hsame other hother line hline (.inr htaken) (.inl (hmem v))
      have hcount := hone other hother
      have hvariable := List.count_pos_iff.mpr (hmem v)
      have hcall := List.count_pos_iff.mpr htaken
      omega
  · rintro ⟨hplace, hfree⟩
    refine ⟨fun other hother => ?_, fun x hx y hy hx' hy' => ?_⟩
    · have hcount : ((variablePattern.findAll other.code).map (·.text 1)).count v.name ≤ 1 :=
        VariableAt.count_le_one_iff.mpr fun w w' hw hw' =>
          ((hplace other hother w hw).2).trans (hplace other hother w' hw').2.symm
      have hcall := List.count_eq_zero.mpr (hfree other hother)
      omega
    · have honly : ∀ other ∈ s.codeLines,
          v.name ∈ (variablePattern.findAll other.code).map (·.text 1) ∨
            v.name ∈ takenNames other.code → other = line := by
        rintro other hother (hvariable | htaken)
        · obtain ⟨m, hm, hname⟩ := List.mem_map.mp hvariable
          obtain ⟨w, -, hw⟩ := VariableAt.exists_of_mem hm
          exact (hplace other hother w (hw.symm.trans hname)).1
        · exact absurd htaken (hfree other hother)
      rw [honly x hx hx', honly y hy hy']

end Check

end CodeAudit
