import CodeAudit.Check.Suite
import CodeAudit.Proofs.MatchPlaces
import CodeAudit.Proofs.TextLines
import Mathlib.Data.List.Forall2

/-!
# Line endings

A text whose lines end in a carriage return and a line feed is checked as the same text with feeds
alone. The lines are the same, so that this is about the checks that search the text as a whole:
for words, and with patterns that can go over the end of a line.

A search with a pattern goes over both texts side by side. The only place that one of them has and
the other has not lies between a carriage return and its feed. A pattern comes by this place when a
repetition takes the return and stops there, and it gets no further if what comes next in the
pattern does not take a feed. `Pattern.tracks` is the test of patterns for this.

Results:
* `lines_withReturns`: the lines of the two texts.
* `cut?_withReturns`, `tails_withReturns`: words in the two texts.
* `Pattern.rel_run`: searches in the two texts go side by side.
* `Pattern.forall₂_findAll`: they have the same matches.
* `line_endings_change_nothing`: all checks find the same.
-/

namespace CodeAudit

open Text Source

namespace Text

/-- The text with a carriage return before each line feed. -/
def withReturns : List Char → List Char
  | [] => []
  | c :: text => if c = '\n' then '\r' :: '\n' :: withReturns text else c :: withReturns text

@[simp] theorem withReturns_nil : withReturns [] = [] := rfl

@[simp] theorem withReturns_feed (text : List Char) :
    withReturns ('\n' :: text) = '\r' :: '\n' :: withReturns text := rfl

theorem withReturns_cons {c : Char} (h : c ≠ '\n') (text : List Char) :
    withReturns (c :: text) = c :: withReturns text :=
  if_neg h

theorem withReturns_append (a b : List Char) :
    withReturns (a ++ b) = withReturns a ++ withReturns b := by
  induction a with
  | nil => rfl
  | cons c a ih =>
    rw [List.cons_append, withReturns, withReturns, ih]
    split <;> rfl

theorem withReturns_of_notMem {text : List Char} (h : '\n' ∉ text) : withReturns text = text := by
  induction text with
  | nil => rfl
  | cons c text ih =>
    rw [List.mem_cons, not_or] at h
    rw [withReturns_cons (Ne.symm h.1), ih h.2]

theorem isEmpty_withReturns (text : List Char) : (withReturns text).isEmpty = text.isEmpty := by
  cases text with
  | nil => rfl
  | cons c text =>
    rw [withReturns]
    split <;> rfl

/-- A test that takes both parts of a line ending alike sees no difference in what comes next. -/
theorem any_head?_withReturns {test : Char → Bool} (h : test '\n' = test '\r')
    (text : List Char) : (withReturns text).head?.any test = text.head?.any test := by
  cases text with
  | nil => rfl
  | cons c text =>
    rw [withReturns]
    split
    · rename_i hc
      rw [hc]
      exact h.symm
    · rfl

/-! ## Lines -/

theorem chopReturn_of_notMem {line : List Char} (h : '\r' ∉ line) : chopReturn line = line := by
  rcases List.eq_nil_or_concat line with rfl | ⟨front, last, rfl⟩
  · rfl
  · rw [List.concat_eq_append] at h ⊢
    rw [chopReturn_concat, if_neg]
    rintro rfl
    exact h (List.mem_append_right _ List.mem_cons_self)

/-- The lines of the two texts. -/
theorem lines_withReturns {text : List Char} (h : '\r' ∉ text) :
    lines (withReturns text) = lines text := by
  rcases feed_split text with hfeed | ⟨line, rest, rfl, hline⟩
  · rw [withReturns_of_notMem hfeed]
  · rw [List.mem_append, List.mem_cons, not_or, not_or] at h
    have hreturn : '\n' ∉ line ++ ['\r'] := by simp [hline]
    have htext : withReturns (line ++ '\n' :: rest) =
        line ++ ['\r'] ++ '\n' :: withReturns rest := by
      rw [withReturns_append, withReturns_of_notMem hline, withReturns_feed, List.append_assoc]
      rfl
    rw [htext, lines_cons hreturn, lines_cons hline, chopReturn_concat, if_pos rfl,
      chopReturn_of_notMem h.1, lines_withReturns h.2.2]
termination_by text.length
decreasing_by
  subst text
  simp only [List.length_append, List.length_cons]
  omega

/-! ## Words -/

/-- A word that holds no part of a line ending. -/
structure Unbroken (word : List Char) : Prop where
  nonempty : word ≠ []
  noFeed : '\n' ∉ word
  noReturn : '\r' ∉ word

theorem isPrefixOf_withReturns {word : List Char} (hfeed : '\n' ∉ word) (hreturn : '\r' ∉ word)
    (text : List Char) : word.isPrefixOf (withReturns text) = word.isPrefixOf text := by
  induction word generalizing text with
  | nil => simp
  | cons w word ih =>
    rw [List.mem_cons, not_or] at hfeed hreturn
    cases text with
    | nil => rfl
    | cons c text =>
      rw [withReturns]
      split
      · rename_i hc
        rw [hc, List.isPrefixOf, List.isPrefixOf, beq_false_of_ne (Ne.symm hfeed.1),
          beq_false_of_ne (Ne.symm hreturn.1), Bool.false_and, Bool.false_and]
      · rw [List.isPrefixOf, List.isPrefixOf, ih hfeed.2 hreturn.2]

namespace Unbroken

variable {word : List Char} (h : Unbroken word)

include h

theorem isPrefixOf_feed (text : List Char) : word.isPrefixOf ('\n' :: text) = false := by
  cases word with
  | nil => exact absurd rfl h.nonempty
  | cons w word =>
    have hw := h.noFeed
    rw [List.mem_cons, not_or] at hw
    rw [List.isPrefixOf, beq_false_of_ne (Ne.symm hw.1), Bool.false_and]

theorem cut?_nil : cut? word [] = none := by
  rw [cut?, if_neg (by simpa using h.nonempty)]

theorem tails_nil (fuel : Nat) : tails word fuel [] = [] := by
  cases fuel with
  | zero => rfl
  | succ fuel => rw [tails, h.cut?_nil]

/-- A word cuts the two texts in the same place. -/
theorem cut?_withReturns (text : List Char) :
    cut? word (withReturns text) =
      (cut? word text).map fun parts => (withReturns parts.1, withReturns parts.2) := by
  induction text with
  | nil => rw [withReturns_nil, h.cut?_nil, Option.map_none]
  | cons c text ih =>
    have hhere := isPrefixOf_withReturns h.noFeed h.noReturn (c :: text)
    by_cases hc : c = '\n'
    · subst hc
      rw [h.isPrefixOf_feed, withReturns_feed] at hhere
      rw [withReturns_feed, cut?, hhere, if_neg Bool.false_ne_true, cut?, h.isPrefixOf_feed,
        if_neg Bool.false_ne_true, ih, cut?, h.isPrefixOf_feed, if_neg Bool.false_ne_true,
        Option.map_map, Option.map_map, Option.map_map]
      rfl
    · rw [withReturns_cons hc] at hhere
      rw [withReturns_cons hc, cut?, cut?, hhere]
      split
      · rename_i hword
        obtain ⟨rest, hrest⟩ := List.isPrefixOf_iff_prefix.mp hword
        rw [← withReturns_cons hc, ← hrest, withReturns_append, withReturns_of_notMem h.noFeed,
          List.drop_left, List.drop_left]
        rfl
      · rw [ih, Option.map_map, Option.map_map]
        refine congrArg (Option.map · _) (funext fun parts => ?_)
        exact congrArg (Prod.mk · _) (withReturns_cons hc parts.1).symm

theorem occurs_eq_isSome_cut? (text : List Char) : occurs word text = (cut? word text).isSome := by
  induction text with
  | nil =>
    rw [h.cut?_nil, occurs]
    simpa using h.nonempty
  | cons c text ih =>
    rw [occurs, cut?, ih]
    cases word.isPrefixOf (c :: text) <;> simp

theorem occurs_withReturns (text : List Char) :
    occurs word (withReturns text) = occurs word text := by
  rw [h.occurs_eq_isSome_cut?, h.occurs_eq_isSome_cut?, h.cut?_withReturns, Option.isSome_map]

/-- What follows the word in the two texts. The fuel is enough if there is some for each
    character. -/
theorem tails_withReturns {text : List Char} {fuel fuel' : Nat} (hfuel : text.length ≤ fuel)
    (hfuel' : (withReturns text).length ≤ fuel') :
    tails word fuel' (withReturns text) = (tails word fuel text).map withReturns := by
  have hpos : 0 < word.length := List.length_pos_iff.mpr h.nonempty
  induction fuel generalizing fuel' text with
  | zero =>
    have hnil : text = [] := List.length_eq_zero_iff.mp (Nat.le_zero.mp hfuel)
    rw [hnil, withReturns_nil, h.tails_nil, h.tails_nil, List.map_nil]
  | succ fuel ih =>
    cases fuel' with
    | zero =>
      have hnil : withReturns text = [] := List.length_eq_zero_iff.mp (Nat.le_zero.mp hfuel')
      have hcut := h.cut?_withReturns text
      rw [hnil, h.cut?_nil, eq_comm, Option.map_eq_none_iff] at hcut
      rw [tails, tails, hcut]
      rfl
    | succ fuel' =>
      rw [tails, tails, h.cut?_withReturns]
      cases hcut : cut? word text with
      | none => rfl
      | some parts =>
        have hlength := length_cut? hcut
        have hcut' := h.cut?_withReturns text
        rw [hcut] at hcut'
        have hlength' := length_cut? hcut'
        exact congrArg (withReturns parts.2 :: ·) (ih (by omega) (by omega))

end Unbroken

end Text

/-! ## Searches side by side -/

/-- The places that correspond to each other. Their offsets may differ. -/
structure Cursor.Returned (c c' : Cursor) : Prop where
  previous : c'.previous = c.previous
  rest : c'.rest = withReturns c.rest

/-- The place between a carriage return and its feed. -/
structure Cursor.InEnding (c : Cursor) : Prop where
  previous : c.previous = some '\r'
  rest : ∃ rest, c.rest = '\n' :: rest

theorem Cursor.returned_past (c c' : Cursor) (x : Char) (rest : List Char) :
    (c.past [x] rest).Returned (c'.past [x] (withReturns rest)) where
  previous := by simp
  rest := rfl

namespace Pattern

variable {α β : Type}

/-- Groups that begin and end in places that correspond to each other. -/
def GroupsReturned (g g' : Groups) : Prop :=
  List.Forall₂ (fun entry entry' => entry.1 = entry'.1 ∧ entry.2.1.Returned entry'.2.1 ∧
    entry.2.2.Returned entry'.2.2) g g'

/-- What is done in places that correspond to each other has results that do. -/
def Follows (related : α → β → Prop) (k : Cursor → Groups → Option α)
    (k' : Cursor → Groups → Option β) : Prop :=
  ∀ ⦃c c' : Cursor⦄ ⦃g g' : Groups⦄, c.Returned c' → GroupsReturned g g' →
    Option.Rel related (k c g) (k' c' g')

/-- Does the pattern match nothing between a carriage return and its feed? -/
def isSealed : Pattern → Bool
  | one accepts => !accepts '\n'
  | textStart | lineStart | textEnd | wordEdge => true
  | seq first _ => first.isSealed
  | choice first second => first.isSealed && second.isSealed
  | group _ body => body.isSealed
  | empty | repeated _ _ => false

/-- Can the pattern be searched for in both texts side by side, if what comes after it is sealed or
    not? Single characters are no part of a line ending, and a repetition takes both parts of it or
    none. -/
def tracks : Pattern → Bool → Bool
  | one accepts, _ => !accepts '\n' && !accepts '\r'
  | empty, _ | textStart, _ | lineStart, _ | textEnd, _ | wordEdge, _ => true
  | seq first second, after => first.tracks second.isSealed && second.tracks after
  | choice first second, after => first.tracks after && second.tracks after
  | group _ body, after => body.tracks after
  | repeated _ (one accepts), after =>
    accepts '\n' == accepts '\r' && (!accepts '\n' || after)
  | repeated _ _, _ => false

theorem run_of_isSealed {p : Pattern} (hp : p.isSealed = true) {c : Cursor} (hc : c.InEnding)
    (g : Groups) (k : Cursor → Groups → Option α) : p.run c g k = none := by
  obtain ⟨rest, hrest⟩ := hc.rest
  induction p generalizing k with
  | one accepts =>
    rw [run_one_cons hrest, if_neg]
    simpa [isSealed] using hp
  | textStart => rw [run, hc.previous]; rfl
  | lineStart => rw [run, hc.previous]; rfl
  | textEnd => rw [run, hrest]; rfl
  | wordEdge =>
    have hreturn : isWord '\r' = false := by decide
    have hfeed : isWord '\n' = false := by decide
    simp [run, Cursor.atWordEdge, hc.previous, hrest, hreturn, hfeed]
  | seq first second ih _ => exact ih hp _
  | choice first second ih ih' =>
    have hboth := Bool.and_eq_true_iff.mp hp
    rw [run, ih hboth.1, ih' hboth.2]
    rfl
  | group index body ih => exact ih hp _
  | empty => cases hp
  | repeated greedy body _ => cases hp

theorem rel_or {related : α → β → Prop} {a b : Option α} {a' b' : Option β}
    (ha : Option.Rel related a a') (hb : Option.Rel related b b') :
    Option.Rel related (a.or b) (a'.or b') := by
  cases ha with
  | some h => exact .some h
  | none => exact hb

/-- One round of a repetition of single characters. -/
theorem rounds_one_cons {accepts : Char → Bool} {greedy : Bool} {c : Cursor} {x : Char}
    {rest : List Char} (hrest : c.rest = x :: rest) (g : Groups)
    (k : Cursor → Groups → Option α) :
    rounds (one accepts).run greedy (x :: rest) c g k =
      if accepts x then
        if greedy then (rounds (one accepts).run greedy rest (c.past [x] rest) g k).or (k c g)
        else (k c g).or (rounds (one accepts).run greedy rest (c.past [x] rest) g k)
      else k c g := by
  have hoffset : (c.past [x] rest).offset ≠ c.offset := by
    have := x.utf8Size_pos
    simp only [Cursor.past_offset, byteLength_cons, byteLength_nil]
    omega
  rw [rounds_cons, roundThen, run_one_cons hrest, if_neg hoffset]
  cases accepts x <;> cases greedy <;> simp

/-- A repetition takes a line ending as a whole. When it stops between the two parts, nothing
    follows. -/
theorem rel_rounds {related : α → β → Prop} {k : Cursor → Groups → Option α}
    {k' : Cursor → Groups → Option β} (hk : Follows related k k') {accepts : Char → Bool}
    (hboth : accepts '\n' = accepts '\r')
    (hsealed : accepts '\n' = true → ∀ c g, c.InEnding → k' c g = none) (greedy : Bool)
    {text : List Char} {c c' : Cursor} (htext : c.rest = text) (hc : c.Returned c')
    {g g' : Groups} (hg : GroupsReturned g g') :
    Option.Rel related (rounds (one accepts).run greedy c.rest c g k)
      (rounds (one accepts).run greedy c'.rest c' g' k') := by
  induction text generalizing c c' with
  | nil =>
    rw [hc.rest, htext]
    exact hk hc hg
  | cons x text ih =>
    have hlater : ∀ d' : Cursor,
        Option.Rel related (rounds (one accepts).run greedy text (c.past [x] text) g k)
          (rounds (one accepts).run greedy (withReturns text) (d'.past [x] (withReturns text)) g'
            k') :=
      fun d' => ih rfl (c.returned_past d' x text)
    rw [htext, rounds_one_cons htext]
    by_cases hx : x = '\n'
    · subst hx
      have hrest : c'.rest = '\r' :: '\n' :: withReturns text := by rw [hc.rest, htext]; rfl
      rw [hrest, rounds_one_cons hrest, ← hboth]
      split
      · rename_i haccepts
        -- Between the two parts of the ending only the next round is left.
        have hstop : k' (c'.past ['\r'] ('\n' :: withReturns text)) g' = none :=
          hsealed haccepts _ _ ⟨by simp, _, rfl⟩
        rw [rounds_one_cons (c := c'.past ['\r'] ('\n' :: withReturns text)) rfl, if_pos haccepts,
          hstop, Option.or_none, Option.none_or, ite_self]
        split
        · exact rel_or (hlater _) (hk hc hg)
        · exact rel_or (hk hc hg) (hlater _)
      · exact hk hc hg
    · have hrest : c'.rest = x :: withReturns text := by
        rw [hc.rest, htext, withReturns_cons hx]
      rw [hrest, rounds_one_cons hrest]
      split
      · split
        · exact rel_or (hlater _) (hk hc hg)
        · exact rel_or (hk hc hg) (hlater _)
      · exact hk hc hg

/-- Patterns that read nothing ask the same of both places. -/
theorem Follows.ofTest {related : α → β → Prop} {k : Cursor → Groups → Option α}
    {k' : Cursor → Groups → Option β} (hk : Follows related k k') {test : Cursor → Bool}
    (htest : ∀ {c c' : Cursor}, c.Returned c' → test c' = test c) :
    Follows related (fun c g => if test c then k c g else none)
      (fun c g => if test c then k' c g else none) := by
  intro c c' g g' hc hg
  simp only [htest hc]
  split
  · exact hk hc hg
  · exact .none

/-- A character that is no part of a line ending is read in both places or in none. -/
theorem Follows.ofOne {related : α → β → Prop} {k : Cursor → Groups → Option α}
    {k' : Cursor → Groups → Option β} (hk : Follows related k k') {accepts : Char → Bool}
    (hfeed : accepts '\n' = false) (hreturn : accepts '\r' = false) :
    Follows related (fun c g => (one accepts).run c g k) (fun c g => (one accepts).run c g k') := by
  intro c c' g g' hc hg
  cases hrest : c.rest with
  | nil =>
    have hrest' : c'.rest = [] := by rw [hc.rest, hrest]; rfl
    simp only [run, hrest, hrest']
    exact .none
  | cons x rest =>
    by_cases hx : x = '\n'
    · subst hx
      have hrest' : c'.rest = '\r' :: '\n' :: withReturns rest := by rw [hc.rest, hrest]; rfl
      simp only [run_one_cons hrest, run_one_cons hrest', hfeed, hreturn]
      exact .none
    · have hrest' : c'.rest = x :: withReturns rest := by
        rw [hc.rest, hrest, withReturns_cons hx]
      simp only [run_one_cons hrest, run_one_cons hrest']
      split
      · exact hk (c.returned_past c' x rest) hg
      · exact .none

/-- Searches in the two texts go side by side. -/
theorem rel_run {related : α → β → Prop} {p : Pattern} {after : Bool}
    (hp : p.tracks after = true) {k : Cursor → Groups → Option α}
    {k' : Cursor → Groups → Option β} (hk : Follows related k k')
    (hsealed : after = true → ∀ c g, c.InEnding → k' c g = none) :
    Follows related (fun c g => p.run c g k) (fun c g => p.run c g k') := by
  induction p generalizing after k k' with
  | empty => exact hk
  | one accepts =>
    have hending : accepts '\n' = false ∧ accepts '\r' = false := by simpa [tracks] using hp
    exact hk.ofOne hending.1 hending.2
  | textStart => exact hk.ofTest fun hc => by rw [hc.previous]
  | lineStart => exact hk.ofTest fun hc => by rw [hc.previous]
  | textEnd => exact hk.ofTest fun hc => by rw [hc.rest, isEmpty_withReturns]
  | wordEdge =>
    refine hk.ofTest fun hc => ?_
    rw [Cursor.atWordEdge, Cursor.atWordEdge, hc.previous, hc.rest,
      any_head?_withReturns (by decide)]
  | seq first second ih ih' =>
    have hboth := Bool.and_eq_true_iff.mp hp
    refine ih hboth.1 (ih' hboth.2 hk hsealed) fun hsecond c g hc => ?_
    exact run_of_isSealed hsecond hc g k'
  | choice first second ih ih' =>
    have hboth := Bool.and_eq_true_iff.mp hp
    intro c c' g g' hc hg
    simp only [run, Option.orElse_eq_or]
    exact rel_or (ih hboth.1 hk hsealed hc hg) (ih' hboth.2 hk hsealed hc hg)
  | group index body ih =>
    intro c c' g g' hc hg
    refine ih hp (fun d d' e e' hd he => ?_) ?_ hc hg
    · exact hk hd (.cons ⟨rfl, hc, hd⟩ he)
    · exact fun hafter d e hd => hsealed hafter d _ hd
  | repeated greedy body _ =>
    cases body with
    | one accepts =>
      simp only [tracks, Bool.and_eq_true, beq_iff_eq, Bool.or_eq_true, Bool.not_eq_true'] at hp
      intro c c' g g' hc hg
      refine rel_rounds hk hp.1 (fun haccepts => ?_) greedy rfl hc hg
      exact hsealed (hp.2.resolve_left (by simp [haccepts]))
    | _ => cases hp

/-! ## Matches -/

theorem rel_lookup {g g' : Groups} (hg : GroupsReturned g g') (index : Nat) :
    Option.Rel (fun places places' => places.1.Returned places'.1 ∧ places.2.Returned places'.2)
      (g.lookup index) (g'.lookup index) := by
  induction hg with
  | nil => exact .none
  | @cons entry entry' g g' hentry _ ih =>
    rw [List.lookup_cons, List.lookup_cons, hentry.1]
    split
    · exact .some hentry.2
    · exact ih

/-- A match in one text and the match in the other that corresponds to it. -/
structure Matched (p : Pattern) (m m' : Match) : Prop where
  found : ∃ c, p.matchAt? c = some m
  after : m.after.Returned m'.after
  text : ∀ index, m'.text index = withReturns (m.text index)

/-- What a group holds between places that correspond to each other. -/
theorem text_between_returned {a b a' b' : Cursor} (ha : a.Returned a') (hb : b.Returned b')
    {stretch : List Char} (hrest : a.rest = stretch ++ b.rest) :
    (Span.between a' b').text = withReturns (Span.between a b).text := by
  have hrest' : a'.rest = withReturns stretch ++ b'.rest := by
    rw [ha.rest, hb.rest, hrest, withReturns_append]
  rw [Span.text_between hrest, Span.text_between hrest']

theorem rel_matchAt? {p : Pattern} (hp : p.tracks false = true) {c c' : Cursor}
    (hc : c.Returned c') : Option.Rel p.Matched (p.matchAt? c) (p.matchAt? c') := by
  have hrel : Option.Rel
      (fun m m' : Match => m.after.Returned m'.after ∧ GroupsReturned m.groups m'.groups)
      (p.matchAt? c) (p.matchAt? c') :=
    rel_run hp (fun _ _ _ _ hd hg => .some ⟨hd, hg⟩) (by simp) hc .nil
  generalize p.matchAt? c' = found' at hrel ⊢
  cases hm : p.matchAt? c with
  | none =>
    rw [hm] at hrel
    cases hrel
    exact .none
  | some m =>
    rw [hm] at hrel
    cases hrel with
    | @some _ m' h =>
      refine .some ⟨⟨c, hm⟩, h.1, fun index => ?_⟩
      have hlookup := rel_lookup h.2 index
      rw [Match.text, Match.text, Match.group?, Match.group?]
      generalize m'.groups.lookup index = places' at hlookup ⊢
      cases hplaces : m.groups.lookup index with
      | none =>
        rw [hplaces] at hlookup
        cases hlookup
        rfl
      | some places =>
        rw [hplaces] at hlookup
        obtain ⟨-, -, stretch, hstop, -⟩ := exists_fits_of_lookup hm hplaces
        cases hlookup with
        | some hboth => exact text_between_returned hboth.1 hboth.2 hstop

/-- The place between the two parts of a line ending is passed over. -/
theorem matchesFrom_feed {p : Pattern} (hsealed : p.isSealed = true) {c : Cursor}
    {rest : List Char} (hrest : c.rest = '\r' :: '\n' :: rest) (hnone : p.matchAt? c = none)
    (fuel : Nat) :
    p.matchesFrom (fuel + 1) c =
      p.matchesFrom (fuel + 1) ((c.past ['\r'] ('\n' :: rest)).past ['\n'] rest) := by
  have hmid : p.matchAt? (c.past ['\r'] ('\n' :: rest)) = none :=
    run_of_isSealed hsealed ⟨by simp, rest, rfl⟩ _ _
  rw [matchesFrom_of_cons hnone hrest, matchesFrom_of_cons hmid rfl]

theorem reads_of_isVisible {p : Pattern} (hp : p.isVisible = true) {c : Cursor} {m : Match}
    (hm : p.matchAt? c = some m) :
    m.whole.start < m.whole.stop ∧ m.after.rest.length < c.rest.length := by
  obtain ⟨stretch, rest, hrest, hfits, hwhole, hafter⟩ := exists_fits_of_matchAt? hm
  obtain ⟨x, hx, -⟩ := exists_visible_of_fits hp hfits
  have hne : stretch ≠ [] := List.ne_nil_of_mem hx
  have hbytes := byteLength_pos hne
  have hlength : 0 < stretch.length := List.length_pos_iff.mpr hne
  constructor
  · rw [hwhole]
    change c.offset < c.offset + byteLength stretch
    omega
  · rw [hafter, hrest, Cursor.past_rest, List.length_append]
    omega

/-- Matches that are never empty follow each other in both texts. -/
theorem forall₂_matchesFrom {p : Pattern} (hp : p.tracks false = true)
    (hsealed : p.isSealed = true) (hvisible : p.isVisible = true) {c c' : Cursor}
    (hc : c.Returned c') {fuel fuel' : Nat} (hfuel : c.rest.length ≤ fuel)
    (hfuel' : c'.rest.length ≤ fuel') :
    List.Forall₂ p.Matched (p.matchesFrom (fuel + 1) c) (p.matchesFrom (fuel' + 1) c') := by
  induction hlength : c.rest.length using Nat.strongRecOn generalizing c c' fuel fuel' with
  | ind length ih =>
    have hrel := rel_matchAt? hp hc
    cases hm : p.matchAt? c with
    | some m =>
      cases hm' : p.matchAt? c' with
      | none =>
        rw [hm, hm'] at hrel
        cases hrel
      | some m' =>
        rw [hm, hm'] at hrel
        cases hrel with
        | some hmatched =>
          obtain ⟨hreads, hshorter⟩ := reads_of_isVisible hvisible hm
          obtain ⟨hreads', hshorter'⟩ := reads_of_isVisible hvisible hm'
          obtain ⟨less, rfl⟩ : ∃ less, fuel = less + 1 := Nat.exists_eq_add_one.mpr (by omega)
          obtain ⟨less', rfl⟩ : ∃ less', fuel' = less' + 1 := Nat.exists_eq_add_one.mpr (by omega)
          rw [matchesFrom_of_some hm hreads, matchesFrom_of_some hm' hreads']
          exact .cons hmatched
            (ih _ (by omega) hmatched.after (by omega) (by omega) rfl)
    | none =>
      have hnone : p.matchAt? c' = none := by
        rw [hm] at hrel
        generalize p.matchAt? c' = found at hrel ⊢
        cases hrel
        rfl
      cases hrest : c.rest with
      | nil =>
        have hrest' : c'.rest = [] := by rw [hc.rest, hrest]; rfl
        rw [matchesFrom_of_nil hm hrest, matchesFrom_of_nil hnone hrest']
        exact .nil
      | cons x rest =>
        rw [hrest, List.length_cons] at hfuel hlength
        rw [matchesFrom_of_cons hm hrest]
        have hlater : ∀ d' : Cursor, (withReturns rest).length ≤ fuel' →
            List.Forall₂ p.Matched (p.matchesFrom (fuel + 1) (c.past [x] rest))
              (p.matchesFrom (fuel' + 1) (d'.past [x] (withReturns rest))) :=
          fun d' hfuel' => ih rest.length (by omega) (c.returned_past d' x rest) (by
            rw [Cursor.past_rest]
            omega) hfuel' rfl
        by_cases hx : x = '\n'
        · subst hx
          have hrest' : c'.rest = '\r' :: '\n' :: withReturns rest := by rw [hc.rest, hrest]; rfl
          rw [hrest', List.length_cons, List.length_cons] at hfuel'
          rw [matchesFrom_feed hsealed hrest' hnone]
          exact hlater _ (by omega)
        · have hrest' : c'.rest = x :: withReturns rest := by
            rw [hc.rest, hrest, withReturns_cons hx]
          rw [hrest', List.length_cons] at hfuel'
          rw [matchesFrom_of_cons hnone hrest']
          exact hlater _ (by omega)

/-- A pattern has the same matches in both texts. -/
theorem forall₂_findAll {p : Pattern} (hp : p.tracks false = true) (hsealed : p.isSealed = true)
    (hvisible : p.isVisible = true) (text : List Char) :
    List.Forall₂ p.Matched (p.findAll text) (p.findAll (withReturns text)) := by
  have hstart : (Cursor.start text).Returned (Cursor.start (withReturns text)) := ⟨rfl, rfl⟩
  exact forall₂_matchesFrom hp hsealed hvisible hstart (Nat.le_refl _) (Nat.le_refl _)

theorem isIn_eq_findAll (p : Pattern) (text : List Char) :
    p.isIn text = !(p.findAll text).isEmpty := by
  have hfind : p.searchFrom none 0 text = p.find? text := rfl
  rw [isIn, findAll, matchesFrom, Cursor.start, hfind]
  cases p.find? text with
  | none => rfl
  | some m =>
    dsimp only
    split
    · rfl
    · split <;> rfl

theorem isIn_withReturns {p : Pattern} (hp : p.tracks false = true) (hsealed : p.isSealed = true)
    (hvisible : p.isVisible = true) (text : List Char) :
    p.isIn (withReturns text) = p.isIn text := by
  have hfound := forall₂_findAll hp hsealed hvisible text
  rw [isIn_eq_findAll, isIn_eq_findAll]
  generalize p.findAll text = found, p.findAll (withReturns text) = found' at hfound ⊢
  cases hfound <;> rfl

/-- A group of word characters holds nothing else. -/
theorem isWord_of_mem_text {p : Pattern} {index : Nat} (hbodies : p.bodies index = [many1 word])
    {c : Cursor} {m : Match} (hm : p.matchAt? c = some m) :
    ∀ x ∈ m.text index, isWord x = true := by
  rcases exists_fits_of_group hm index with hnil | ⟨body, hbody, previous, rest, hfits⟩
  · rw [hnil]
    exact fun _ hx => absurd hx List.not_mem_nil
  · rw [hbodies, List.mem_singleton] at hbody
    subst hbody
    obtain ⟨first, more, htext, ⟨y, rfl, hy⟩, hmore⟩ := hfits
    rw [htext]
    intro x hx
    rcases List.mem_append.mp hx with hx | hx
    · rwa [List.mem_singleton.mp hx]
    · exact fits_many_one.mp hmore x hx

theorem notMem_text {p : Pattern} {index : Nat} (hbodies : p.bodies index = [many1 word])
    {c : Cursor} {m : Match} (hm : p.matchAt? c = some m) :
    '\n' ∉ m.text index ∧ '\r' ∉ m.text index := by
  constructor
  · intro hfeed
    have hword := isWord_of_mem_text hbodies hm _ hfeed
    exact absurd hword (by decide)
  · intro hreturn
    have hword := isWord_of_mem_text hbodies hm _ hreturn
    exact absurd hword (by decide)

end Pattern

/-! ## The checks -/

namespace Check

namespace Naming

theorem caughtVariables_withReturns (s : Subject) :
    caughtVariables { s with content := withReturns s.content } = caughtVariables s := by
  have hfound := Pattern.forall₂_findAll (p := caughtVariable) (by decide +kernel) (by decide)
    (by decide) s.content
  rw [caughtVariables, caughtVariables]
  generalize caughtVariable.findAll s.content = found,
    caughtVariable.findAll (withReturns s.content) = found' at hfound ⊢
  induction hfound with
  | nil => rfl
  | @cons m m' found found' hm _ ih =>
    obtain ⟨c, hc⟩ := hm.found
    have hname : '\n' ∉ m.text 1 ∧ '\r' ∉ m.text 1 := Pattern.notMem_text rfl hc
    rw [List.map_cons, List.map_cons, ih, hm.text, withReturns_of_notMem hname.1]

theorem isSchemaFile_withReturns (s : Subject) :
    isSchemaFile { s with content := withReturns s.content } = isSchemaFile s := by
  rw [isSchemaFile, isSchemaFile, Pattern.isIn_withReturns (by decide) (by decide) (by decide)]

theorem run_withReturns (s : Subject) :
    run { s with content := withReturns s.content } = run s := by
  rw [run, run, variableNames, variableNames, caughtVariables_withReturns, isSchemaFile_withReturns]
  rfl

end Naming

namespace Practice

theorem isPropertyRead_withReturns {name : List Char} (hfeed : '\n' ∉ name)
    (hreturn : '\r' ∉ name) (content : List Char) :
    isPropertyRead (withReturns content) name = isPropertyRead content name := by
  have hany : ∀ access, Unbroken access →
      ((tails access (withReturns content).length (withReturns content)).any fun rest =>
        !(rest.head?.any fun c => isLetterOrDigit c || c == '_')) =
      (tails access content.length content).any fun rest =>
        !(rest.head?.any fun c => isLetterOrDigit c || c == '_') := by
    intro access haccess
    rw [haccess.tails_withReturns (Nat.le_refl _) (Nat.le_refl _), List.any_map]
    refine congrArg (List.any _) (funext fun rest => ?_)
    exact congrArg _ (any_head?_withReturns (by decide) rest)
  have harrow : Unbroken ("->".toList ++ name) :=
    ⟨by simp, by simp [hfeed], by simp [hreturn]⟩
  have hscope : Unbroken ("::$".toList ++ name) :=
    ⟨by simp, by simp [hfeed], by simp [hreturn]⟩
  simp only [isPropertyRead, List.any_cons, List.any_nil, hany _ harrow, hany _ hscope]

theorem unusedLocals_withReturns (s : Subject) :
    unusedLocals { s with content := withReturns s.content } = unusedLocals s := by
  have hextract : Unbroken "extract(".toList := ⟨by decide, by decide, by decide⟩
  have hcomputed : Unbroken "$$".toList := ⟨by decide, by decide, by decide⟩
  rw [unusedLocals, unusedLocals, mentions, mentions, mentions, mentions,
    hextract.occurs_withReturns, hcomputed.occurs_withReturns]
  rfl

theorem unusedProperties_withReturns (s : Subject) :
    unusedProperties { s with content := withReturns s.content } = unusedProperties s := by
  refine List.filterMap_congr fun line _ => ?_
  cases hfound : propertyDeclaration.find? line.text with
  | none => rfl
  | some found =>
    obtain ⟨before, rest, -, hm, -⟩ := Pattern.exists_first_of_find? hfound
    have hname : '\n' ∉ found.text 1 ∧ '\r' ∉ found.text 1 := Pattern.notMem_text rfl hm
    simp only [Option.bind_eq_bind, Option.bind_some, isPropertyRead_withReturns hname.1 hname.2]
    rfl

theorem run_withReturns (s : Subject) :
    run { s with content := withReturns s.content } = run s := by
  rw [run, run, unusedLocals_withReturns, unusedProperties_withReturns]
  rfl

end Practice

namespace Form

/-- Forms are read from lines, whatever the text is. -/
theorem readLine_content (s : Subject) (content : List Char) (row fuel : Nat)
    (form : Option OpenForm) (text : List Char) :
    readLine { s with content } row fuel form text = readLine s row fuel form text := by
  induction fuel generalizing form text with
  | zero => rfl
  | succ fuel ih =>
    simp only [readLine, ih]
    rfl

theorem run_withReturns (s : Subject) :
    run { s with content := withReturns s.content } = run s := by
  have hlines : ∀ (form : Option OpenForm) (lines : List (Nat × List Char)),
      readLines { s with content := withReturns s.content } form lines =
        readLines s form lines := by
    intro form lines
    induction lines generalizing form with
    | nil => rfl
    | cons entry lines ih => simp only [readLines, readLine_content, ih]
  exact hlines none s.templateLines

end Form

/-- Without a tree there are no classes to look at. -/
theorem Hierarchy.shapes_of_tree {s : Subject} (h : s.tree = none) : Hierarchy.shapes s = [] := by
  rw [Hierarchy.shapes, Hierarchy.classes, h]
  rfl

/-- No check tells the line endings of a file apart. -/
theorem run_withReturns {check : Check} (h : check ∈ all) {s : Subject} (htree : s.tree = none) :
    check.run { s with content := withReturns s.content } = check.run s := by
  obtain ⟨path, kind, role, content, tree, texts, lines, radius⟩ := s
  cases htree
  obtain ⟨category, -, hcheck⟩ := List.mem_flatMap.mp h
  cases category <;> simp only [suite, List.mem_cons, List.not_mem_nil, or_false] at hcheck
  case security => rcases hcheck with rfl | rfl | rfl <;> rfl
  case performance => rcases hcheck with rfl | rfl <;> rfl
  case quality =>
    rcases hcheck with rfl | rfl | rfl | rfl | rfl
    · rfl
    · rfl
    · rfl
    · exact Naming.run_withReturns _
    · exact Practice.run_withReturns _
  case idiom => rcases hcheck with rfl | rfl | rfl <;> rfl
  case inheritance =>
    rcases hcheck with rfl | rfl
    · rfl
    · exact (Hierarchy.shapes_of_tree rfl).trans (Hierarchy.shapes_of_tree rfl).symm
  case template =>
    rcases hcheck with rfl | rfl | rfl
    · rfl
    · exact Form.run_withReturns _
    · rfl

end Check

/-- A file without a tree whose lines end in feeds, and the same file with a carriage return before
    each feed, have the same lines and the same marks, and each of the eighteen checks reports the
    same issues with the same lines around them. -/
theorem line_endings_change_nothing {content : List Char} (h : '\r' ∉ content) (path : String)
    (kind : SourceKind) (failure failure' : Option ParseFailure) (role : Role) (radius : Nat) :
    let s := Subject.ofSource path ⟨kind, content, none, failure⟩ role radius
    let s' := Subject.ofSource path ⟨kind, withReturns content, none, failure'⟩ role radius
    s'.texts = s.texts ∧ commentMask s'.texts = commentMask s.texts ∧ s'.lines = s.lines ∧
      Check.all.length = 18 ∧ ∀ check ∈ Check.all, check.run s' = check.run s := by
  intro s s'
  have hsame : s' = { s with content := withReturns s.content } := by
    simp only [s, s', Subject.ofSource, lines_withReturns h]
  rw [hsame]
  exact ⟨rfl, rfl, rfl, rfl, fun check hcheck => Check.run_withReturns hcheck rfl⟩

/-- A catch clause that goes over the end of a line. -/
def brokenCatch : List Char :=
  "try \x7b f(); \x7d catch (A |\n  B $e) \x7b \x7d\n$e = 1;\n".toList

theorem broken_catch_is_read_alike :
    '\r' ∉ brokenCatch ∧
      Check.Naming.check.run
          (.ofSource "app/A.php" ⟨.php, withReturns brokenCatch, none, none⟩ .plain 3) =
        Check.Naming.check.run
          (.ofSource "app/A.php" ⟨.php, brokenCatch, none, none⟩ .plain 3) := by
  have hreturn : '\r' ∉ brokenCatch := by decide
  have hchecks := (line_endings_change_nothing hreturn "app/A.php" .php none none .plain 3).2.2.2.2
  exact ⟨hreturn, hchecks Check.Naming.check (by simp [Check.all, Category.all, Check.suite])⟩

end CodeAudit
