import CodeAudit.Check.Directive
import CodeAudit.Proofs.PatternMatches

/-!
# Directives as tokens

The check of directives finds them with a pattern, drops those that are glued to what stands before
them and those in verbatim stretches, and looks up which block each opens or closes. `blockTokens`
says which tokens these are, place by place.

Results:
* `occurrences_eq`: the pattern finds a directive at each at sign that a word follows.
* `filterMap_outsideVerbatim`: a directive stands outside of verbatim stretches if the last
  directive before it that begins or ends one ends it.
* `inlineContent_isIn_iff`: which sections have their content among their arguments.
* `filterMap_mark?_eq`: the check pairs the block tokens.
-/

namespace CodeAudit.Check.Directive

open Text Pattern

/-! ## Words after at signs -/

/-- Does the character before an at sign make it an escaped one or part of an address? -/
def isGlue (c : Char) : Bool :=
  c == '@' || isLetterOrDigit c || c == '.'

/-- The directives on the rest of a line, given the character before it: one at each at sign that
    has a word after it and is not glued to what stands before it. -/
def directivesFrom (row : Nat) (previous : Option Char) : List Char → List Occurrence
  | [] => []
  | c :: rest =>
    let word := rest.takeWhile isWord
    if c = '@' ∧ word ≠ [] ∧ previous.any isGlue = false then
      ⟨row, String.ofList word, rest.dropWhile isWord⟩ :: directivesFrom row (some c) rest
    else directivesFrom row (some c) rest

/-- There is no at sign in a word. -/
theorem directivesFrom_word {row : Nat} {previous : Option Char} {word rest : List Char}
    (h : ∀ c ∈ word, isWord c = true) :
    directivesFrom row previous (word ++ rest) =
      directivesFrom row (word.getLast?.or previous) rest := by
  induction word generalizing previous with
  | nil => rfl
  | cons c word ih =>
    rw [List.forall_mem_cons] at h
    have hc : c ≠ '@' := by
      rintro rfl
      exact absurd h.1 (by decide)
    rw [List.cons_append, directivesFrom, if_neg (fun hat => hc hat.1), ih h.2, getLast?_cons_or]

/-- The match of the pattern of directives at an at sign that `rest` follows. -/
def directiveMatch (c : Cursor) (rest : List Char) : Match :=
  let start := c.past ['@'] rest
  let stop := start.past (rest.takeWhile isWord) (rest.dropWhile isWord)
  ⟨Span.between c stop, [(1, start, stop)], stop⟩

@[simp] theorem start_directiveMatch (c : Cursor) (rest : List Char) :
    (directiveMatch c rest).whole.start = c.offset := rfl

@[simp] theorem rest_directiveMatch (c : Cursor) (rest : List Char) :
    (directiveMatch c rest).after.rest = rest.dropWhile isWord := rfl

@[simp] theorem text_directiveMatch (c : Cursor) (rest : List Char) :
    (directiveMatch c rest).text 1 = rest.takeWhile isWord := by
  have hlength : rest.length - (rest.dropWhile isWord).length = (rest.takeWhile isWord).length := by
    have hsplit := congrArg List.length (List.takeWhile_append_dropWhile (p := isWord) (l := rest))
    rw [List.length_append] at hsplit
    omega
  change rest.take (rest.length - (rest.dropWhile isWord).length) = _
  rw [hlength]
  exact List.prefix_iff_eq_take.mp (List.takeWhile_prefix isWord) |>.symm

theorem reads_directiveMatch (c : Cursor) (rest : List Char) :
    (directiveMatch c rest).whole.start < (directiveMatch c rest).whole.stop := by
  change c.offset < c.offset + byteLength ['@'] + byteLength (rest.takeWhile isWord)
  have hsign : byteLength ['@'] = 1 := rfl
  omega

theorem matchAt?_directive_eq_none {c : Cursor}
    (h : ∀ rest, c.rest = '@' :: rest → rest.takeWhile isWord = []) :
    directive.matchAt? c = none := by
  rw [← Option.not_isSome_iff_eq_none, isSome_matchAt?_iff]
  rintro ⟨stretch, later, hstretch, a, b, rfl, hsign, first, more, rfl, ⟨y, rfl, hy⟩, -⟩
  rw [fits_char.mp hsign] at hstretch
  have hword := h _ hstretch
  simp [hy] at hword

theorem matchAt?_directive_eq_some {c : Cursor} {rest : List Char} (hrest : c.rest = '@' :: rest)
    (hword : rest.takeWhile isWord ≠ []) :
    directive.matchAt? c = some (directiveMatch c rest) := by
  change ((char '@').run c [] fun c₁ g => (many1 word).run c₁ g fun c₂ g =>
    some (Match.mk (Span.between c c₂) ((1, c₁, c₂) :: g) c₂)) = _
  rw [char, run_one_cons hrest, if_pos (beq_self_eq_true _), word, run_many1_one (fun _ _ => rfl)]
  exact if_neg hword

/-- The directive that a match stands for. -/
def occurrence? (row : Nat) (line : List Char) (found : Match) : Option Occurrence :=
  if (charBefore? line found.whole.start).any isGlue then none
  else some ⟨row, String.ofList (found.text 1), found.after.rest⟩

/-- The successive matches of the pattern are the words after at signs. -/
theorem filterMap_matchesFrom {row fuel : Nat} {line : List Char} {c : Cursor} (hc : c.IsIn line)
    (hfuel : c.rest.length < fuel) :
    (directive.matchesFrom fuel c).filterMap (occurrence? row line) =
      directivesFrom row c.previous c.rest := by
  -- Each step leaves less of the line, whether it is one character or a whole directive.
  induction hlength : c.rest.length using Nat.strongRecOn generalizing fuel c with
  | ind n ih =>
    obtain ⟨fuel, rfl⟩ := Nat.exists_eq_add_one_of_ne_zero (Nat.ne_of_gt (Nat.zero_lt_of_lt hfuel))
    cases hrest : c.rest with
    | nil =>
      have hnone : directive.matchAt? c = none :=
        matchAt?_directive_eq_none fun rest hcons => by rw [hrest] at hcons; cases hcons
      rw [matchesFrom_of_nil hnone hrest]
      rfl
    | cons x rest =>
      rw [hrest, List.length_cons] at hlength hfuel
      rw [directivesFrom]
      by_cases hx : x = '@' ∧ rest.takeWhile isWord ≠ []
      · obtain ⟨rfl, hword⟩ := hx
        have hsplit : rest.takeWhile isWord ++ rest.dropWhile isWord = rest :=
          List.takeWhile_append_dropWhile
        have hafter : (directiveMatch c rest).after.IsIn line := (hc.past hrest).past hsplit.symm
        have hshorter : (directiveMatch c rest).after.rest.length ≤ rest.length :=
          (List.dropWhile_suffix isWord).length_le
        have hfuel' : (directiveMatch c rest).after.rest.length < fuel := by omega
        have hlater := ih _ (by omega) hafter hfuel' rfl
        -- what follows the at sign is a word without one, and then what follows the match
        have hskip : directivesFrom row (some '@') rest = directivesFrom row
            (directiveMatch c rest).after.previous (rest.dropWhile isWord) := by
          conv => lhs; rw [← hsplit]
          exact directivesFrom_word fun c hc => List.all_eq_true.mp List.all_takeWhile c hc
        rw [matchesFrom_of_some (matchAt?_directive_eq_some hrest hword)
          (reads_directiveMatch c rest), List.filterMap_cons, hlater, hskip, occurrence?,
          start_directiveMatch, hc.charBefore?, text_directiveMatch, rest_directiveMatch]
        cases hglue : c.previous.any isGlue <;> simp [hword]
      · have hnone : directive.matchAt? c = none := by
          refine matchAt?_directive_eq_none fun later hcons => ?_
          rw [hrest, List.cons.injEq] at hcons
          exact Decidable.of_not_not fun hword => hx ⟨hcons.1, hcons.2 ▸ hword⟩
        have hpast : (c.past [x] rest).IsIn line := hc.past hrest
        have hfuel' : (c.past [x] rest).rest.length < fuel + 1 := Nat.lt_of_succ_lt hfuel
        have hlater := ih rest.length (by omega) hpast hfuel' rfl
        rw [matchesFrom_of_cons hnone hrest, hlater, if_neg fun h => hx ⟨h.1, h.2.1⟩]
        rfl

theorem occurrences_eq (row : Nat) (line : List Char) :
    occurrences row line = directivesFrom row none line :=
  filterMap_matchesFrom (Cursor.isIn_start line) (Nat.lt_succ_self _)

/-! ## Verbatim stretches -/

/-- Does a verbatim stretch begin among some directives and not end? The last of them that begins or
    ends one tells. -/
def inVerbatim (before : List Occurrence) : Bool :=
  (before.filter fun o => o.word == "verbatim" || o.word == "endverbatim").getLast?.any
    (·.word == "verbatim")

theorem inVerbatim_concat (before : List Occurrence) (o : Occurrence) :
    inVerbatim (before ++ [o]) =
      if o.word = "verbatim" then true
      else if o.word = "endverbatim" then false
      else inVerbatim before := by
  by_cases hbegins : o.word = "verbatim"
  · simp [inVerbatim, hbegins]
  · by_cases hends : o.word = "endverbatim" <;> simp [inVerbatim, hbegins, hends]

/-! ## Blocks -/

/-- Arguments of a section with its content among them: after the opening bracket and the name in
    quotes there is a comma. -/
def HasInlineContent (text : List Char) : Prop :=
  ∃ (space₁ space₂ name space₃ rest : List Char) (quote₁ quote₂ : Char),
    text = space₁ ++ '(' :: (space₂ ++ quote₁ :: (name ++ quote₂ :: (space₃ ++ ',' :: rest))) ∧
      (∀ c ∈ space₁ ++ space₂ ++ space₃, isBlank c = true) ∧
      (quote₁ = '\'' ∨ quote₁ = '"') ∧ (quote₂ = '\'' ∨ quote₂ = '"') ∧
      ∀ c ∈ name, c ≠ '\'' ∧ c ≠ '"'

theorem inlineContent_isIn_iff {text : List Char} :
    inlineContent.isIn text = true ↔ HasInlineContent text := by
  have hquote : ∀ c : Char, c ∈ "'\"".toList ↔ c = '\'' ∨ c = '"' := by simp
  simp only [isIn_iff, inlineContent, fits_seq, fits_textStart, fits_blanks, fits_char, fits_oneOf,
    fits_many_noneOf, hquote, not_or]
  constructor
  · rintro ⟨before, _, rest, htext, _, _, rfl, ⟨_, space₃, rfl, ⟨_, _, rfl, ⟨_, name, rfl,
      ⟨_, _, rfl, ⟨_, space₂, rfl, ⟨_, _, rfl, ⟨_, space₁, rfl, ⟨rfl, hbefore⟩, hspace₁⟩, rfl⟩,
      hspace₂⟩, ⟨quote₁, hquote₁, rfl⟩⟩, hname⟩, ⟨quote₂, hquote₂, rfl⟩⟩, hspace₃⟩, rfl⟩
    rw [List.getLast?_eq_none_iff.mp hbefore] at htext
    refine ⟨space₁, space₂, name, space₃, rest, quote₁, quote₂, by simpa using htext, ?_, hquote₁,
      hquote₂, hname⟩
    simp only [List.mem_append]
    rintro c ((hc | hc) | hc)
    · exact hspace₁ c hc
    · exact hspace₂ c hc
    · exact hspace₃ c hc
  · rintro ⟨space₁, space₂, name, space₃, rest, quote₁, quote₂, rfl, hspace, hquote₁, hquote₂,
      hname⟩
    simp only [List.mem_append] at hspace
    exact ⟨[], _, rest, by simp, _, _, rfl, ⟨_, space₃, rfl, ⟨_, _, rfl, ⟨_, name, rfl,
      ⟨_, _, rfl, ⟨_, space₂, rfl, ⟨_, _, rfl, ⟨_, space₁, rfl, ⟨rfl, rfl⟩,
      fun c hc => hspace c (.inl (.inl hc))⟩, rfl⟩, fun c hc => hspace c (.inl (.inr hc))⟩,
      ⟨quote₁, hquote₁, rfl⟩⟩, hname⟩, ⟨quote₂, hquote₂, rfl⟩⟩, fun c hc => hspace c (.inr hc)⟩,
      rfl⟩

instance : DecidablePred HasInlineContent := fun _ => decidable_of_iff _ inlineContent_isIn_iff

/-- The block that a directive opens or closes. A section with its content among its arguments opens
    none. -/
def token? (o : Occurrence) : Option Mark :=
  if o.word ∈ blocks.map Prod.fst then
    if o.word = "section" ∧ HasInlineContent o.rest then none else some ⟨true, o.word, o.row⟩
  else (blocks.find? fun entry => o.word ∈ entry.2).map fun entry => ⟨false, entry.1, o.row⟩

/-- No word both opens and closes a block. -/
theorem notMem_openers {entry : String × List String} (hentry : entry ∈ blocks) {word : String}
    (hword : word ∈ entry.2) : word ∉ blocks.map Prod.fst := by
  revert word
  revert entry
  decide

theorem mark?_eq (o : Occurrence) : mark? o = token? o := by
  have hmark : mark? o =
      (blocks.find? fun entry => entry.1 == o.word || entry.2.contains o.word).bind fun entry =>
        if (entry.1 == o.word) && entry.1 == "section" && inlineContent.isIn o.rest then none
        else some ⟨entry.1 == o.word, entry.1, o.row⟩ := by
    unfold mark?
    congr
  rw [hmark, token?]
  split
  · rename_i hopens
    -- the entry that is found is the one that the word opens
    have hfound : ∃ closers, (blocks.find? fun entry =>
        entry.1 == o.word || entry.2.contains o.word) = some (o.word, closers) := by
      obtain ⟨entry, hentry, hword⟩ := List.mem_map.mp hopens
      have hsome : (blocks.find? fun entry =>
          entry.1 == o.word || entry.2.contains o.word).isSome :=
        List.find?_isSome.mpr ⟨entry, hentry, by simp [hword]⟩
      obtain ⟨found, hfound⟩ := Option.isSome_iff_exists.mp hsome
      have hcloses : o.word ∉ found.2 := fun hword =>
        notMem_openers (List.mem_of_find?_eq_some hfound) hword hopens
      have hpredicate := List.find?_some hfound
      simp only [Bool.or_eq_true, beq_iff_eq, List.contains_iff_mem, hcloses,
        or_false] at hpredicate
      exact ⟨found.2, by rw [hfound, ← hpredicate]⟩
    obtain ⟨closers, hfound⟩ := hfound
    rw [hfound]
    simp [inlineContent_isIn_iff]
  · rename_i hopens
    have hne : ∀ entry ∈ blocks, entry.1 ≠ o.word := fun entry hentry hword =>
      hopens (List.mem_map.mpr ⟨entry, hentry, hword⟩)
    have hfind : (blocks.find? fun entry => entry.1 == o.word || entry.2.contains o.word) =
        blocks.find? fun entry => o.word ∈ entry.2 := by
      rw [← List.head?_filter, ← List.head?_filter]
      congr 1
      apply List.filter_congr
      intro entry hentry
      simp [hne entry hentry]
    rw [hfind]
    cases hcloses : blocks.find? fun entry => o.word ∈ entry.2 with
    | none => rfl
    | some entry => simp [hne entry (List.mem_of_find?_eq_some hcloses)]

/-- The directives of a template, line by line. -/
def directives (s : Subject) : List Occurrence :=
  s.templateLines.flatMap fun entry => directivesFrom entry.1 none entry.2

/-- The block tokens of a template: what its directives open and close, where those before them
    leave no verbatim stretch open. -/
def blockTokens (s : Subject) : List Mark :=
  (directives s).zipIdx.filterMap fun entry =>
    if inVerbatim ((directives s).take entry.2) then none else token? entry.1

theorem token?_of_verbatim {o : Occurrence} (h : o.word = "verbatim" ∨ o.word = "endverbatim") :
    token? o = none := by
  have hopens : o.word ∉ blocks.map Prod.fst := by
    rcases h with h | h <;> rw [h] <;> decide
  have hcloses : (blocks.find? fun entry => o.word ∈ entry.2) = none := by
    rcases h with h | h <;> rw [h] <;> decide
  rw [token?, if_neg hopens, hcloses, Option.map_none]

/-- Directives are outside of verbatim stretches if those before them leave none open. -/
theorem filterMap_outsideVerbatim (before later : List Occurrence) :
    (outsideVerbatim (inVerbatim before) later).filterMap token? =
      (later.zipIdx before.length).filterMap fun entry =>
        if inVerbatim ((before ++ later).take entry.2) then none else token? entry.1 := by
  induction later generalizing before with
  | nil => rfl
  | cons o later ih =>
    have hlater := ih (before ++ [o])
    rw [List.append_assoc, List.singleton_append, List.length_append, List.length_singleton,
      inVerbatim_concat] at hlater
    rw [List.zipIdx_cons, List.filterMap_cons, ← hlater]
    simp only [List.take_left]
    by_cases hbegins : o.word = "verbatim"
    · rw [token?_of_verbatim (.inl hbegins), outsideVerbatim, hbegins]
      simp
    · by_cases hends : o.word = "endverbatim"
      · rw [token?_of_verbatim (.inr hends), outsideVerbatim, hends]
        simp
      · rw [outsideVerbatim]
        cases hinside : inVerbatim before
        · simp [hbegins, hends, List.filterMap_cons]
        · simp [hbegins, hends]

/-- The check pairs the block tokens. -/
theorem filterMap_mark?_eq (s : Subject) :
    (outsideVerbatim false (s.templateLines.flatMap fun (row, line) =>
      occurrences row line)).filterMap mark? = blockTokens s := by
  have hfound : (s.templateLines.flatMap fun (row, line) => occurrences row line) =
      directives s := by
    simp only [directives, occurrences_eq]
  rw [hfound, funext mark?_eq]
  exact filterMap_outsideVerbatim [] (directives s)

end CodeAudit.Check.Directive
