import CodeAudit.Pattern.Build
import CodeAudit.Pattern.Search
import CodeAudit.Proofs.EncodedText

/-!
# What patterns match

`Pattern.run` explores the ways to match in an order of preference and passes each on to what comes
next. `Pattern.Fits` says without any order which stretches of a text a pattern describes, given the
character before the stretch and what follows it. The search finds a match exactly where there is
one, and never needs more rounds of a repetition than there are characters left.

Results:
* `exists_fits_of_run`: what a search passes on is a stretch that the pattern fits, with groups that
  hold what their bodies fit.
* `isSome_run`: a search that can pass on something that is accepted has a result.
* `isSome_matchAt?_iff`: where a pattern matches.
* `isIn_iff`: what `isIn` says.
* `LeadsBy.find?`: a search for a pattern that matches one stretch at most from each place cuts the
  text at the first place where it matches.
-/

namespace CodeAudit

open Text

/-- The place after a stretch, given what follows. -/
def Cursor.past (c : Cursor) (stretch rest : List Char) : Cursor :=
  ⟨stretch.getLast?.or c.previous, c.offset + byteLength stretch, rest⟩

namespace Cursor

@[simp] theorem past_previous (c : Cursor) (stretch rest : List Char) :
    (c.past stretch rest).previous = stretch.getLast?.or c.previous := rfl

@[simp] theorem past_offset (c : Cursor) (stretch rest : List Char) :
    (c.past stretch rest).offset = c.offset + byteLength stretch := rfl

@[simp] theorem past_rest (c : Cursor) (stretch rest : List Char) :
    (c.past stretch rest).rest = rest := rfl

theorem past_nil {c : Cursor} {rest : List Char} (h : c.rest = rest) : c.past [] rest = c := by
  subst h
  rfl

theorem past_past (c : Cursor) (a b mid rest : List Char) :
    (c.past a mid).past b rest = c.past (a ++ b) rest := by
  simp only [past, List.getLast?_append, byteLength_append, Option.or_assoc, Nat.add_assoc]

end Cursor

/-- Is the place one of the text? -/
def Cursor.IsIn (c : Cursor) (text : List Char) : Prop :=
  ∃ before, text = before ++ c.rest ∧ c.offset = byteLength before ∧ c.previous = before.getLast?

namespace Cursor

theorem isIn_start (text : List Char) : (Cursor.start text).IsIn text := ⟨[], rfl, rfl, rfl⟩

theorem IsIn.past {c : Cursor} {text stretch rest : List Char} (h : c.IsIn text)
    (hrest : c.rest = stretch ++ rest) : (c.past stretch rest).IsIn text := by
  obtain ⟨before, htext, hoffset, hprevious⟩ := h
  refine ⟨before ++ stretch, ?_, ?_, ?_⟩
  · rw [htext, hrest, past_rest, List.append_assoc]
  · rw [past_offset, hoffset, byteLength_append]
  · rw [past_previous, hprevious, List.getLast?_append]

/-- The character before a place. -/
theorem IsIn.charBefore? {c : Cursor} {text : List Char} (h : c.IsIn text) :
    charBefore? text c.offset = c.previous := by
  obtain ⟨before, htext, hoffset, hprevious⟩ := h
  rw [Text.charBefore?, htext, hoffset, takeBytes?_append, hprevious]
  rfl

end Cursor

namespace Pattern

/-- Rounds of a relation, one after the other, each of which reads something. -/
inductive Rounds (fits : Option Char → List Char → List Char → Prop) :
    Option Char → List Char → List Char → Prop
  | stop {previous : Option Char} {rest : List Char} : Rounds fits previous [] rest
  | round {previous : Option Char} {first more rest : List Char} :
    first ≠ [] → fits previous first (more ++ rest) →
      Rounds fits (first.getLast?.or previous) more rest → Rounds fits previous (first ++ more) rest

/-- Does the pattern describe the stretch that stands between the previous character and the rest of
    the text? -/
def Fits : Pattern → Option Char → List Char → List Char → Prop
  | empty, _, stretch, _ => stretch = []
  | one accepts, _, stretch, _ => ∃ x, stretch = [x] ∧ accepts x = true
  | textStart, previous, stretch, _ => stretch = [] ∧ previous = none
  | lineStart, previous, stretch, _ => stretch = [] ∧ ∀ c ∈ previous, c = '\n'
  | textEnd, _, stretch, rest => stretch = [] ∧ rest = []
  | wordEdge, previous, stretch, rest =>
    stretch = [] ∧ previous.any isWord ≠ rest.head?.any isWord
  | seq first second, previous, stretch, rest =>
    ∃ a b, stretch = a ++ b ∧ first.Fits previous a (b ++ rest) ∧
      second.Fits (a.getLast?.or previous) b rest
  | choice first second, previous, stretch, rest =>
    first.Fits previous stretch rest ∨ second.Fits previous stretch rest
  | repeated _ body, previous, stretch, rest => Rounds body.Fits previous stretch rest
  | group _ body, previous, stretch, rest => body.Fits previous stretch rest

/-- The bodies of the groups of a number. -/
def bodies : Pattern → Nat → List Pattern
  | seq first second, index => first.bodies index ++ second.bodies index
  | choice first second, index => first.bodies index ++ second.bodies index
  | repeated _ body, index => body.bodies index
  | group i body, index => if i = index then body :: body.bodies index else body.bodies index
  | _, _ => []

/-- Is what is remembered under a number a stretch that the body of such a group fits? -/
def Holds (p : Pattern) (entry : Nat × Cursor × Cursor) : Prop :=
  ∃ body ∈ p.bodies entry.1, ∃ stretch rest, entry.2.1.rest = stretch ++ rest ∧
    entry.2.2 = entry.2.1.past stretch rest ∧ body.Fits entry.2.1.previous stretch rest

theorem Holds.mono {p q : Pattern} {entry : Nat × Cursor × Cursor} (h : p.Holds entry)
    (hsub : p.bodies entry.1 ⊆ q.bodies entry.1) : q.Holds entry := by
  obtain ⟨body, hbody, hfits⟩ := h
  exact ⟨body, hsub hbody, hfits⟩

/-! ## The search and the relation -/

section Search

variable {α : Type}

/-- Whatever `step` passes on is a stretch of the relation, and what it adds to the groups is as
    `holds` says. -/
def Sound (step : Cursor → Groups → (Cursor → Groups → Option α) → Option α)
    (fits : Option Char → List Char → List Char → Prop)
    (holds : Nat × Cursor × Cursor → Prop) : Prop :=
  ∀ c g k v, step c g k = some v → ∃ stretch rest added, c.rest = stretch ++ rest ∧
    fits c.previous stretch rest ∧ (∀ entry ∈ added, holds entry) ∧
    k (c.past stretch rest) (added ++ g) = some v

/-- `step` has a result if it can pass on a stretch of the relation that is accepted. -/
def Complete (step : Cursor → Groups → (Cursor → Groups → Option α) → Option α)
    (fits : Option Char → List Char → List Char → Prop) : Prop :=
  ∀ c g k stretch rest, c.rest = stretch ++ rest → fits c.previous stretch rest →
    (∀ g', (k (c.past stretch rest) g').isSome) → (step c g k).isSome

variable {step : Cursor → Groups → (Cursor → Groups → Option α) → Option α}
  {fits : Option Char → List Char → List Char → Prop} {holds : Nat × Cursor × Cursor → Prop}

/-- Patterns that read nothing look at their place only. -/
theorem sound_of_test (test : Cursor → Bool)
    (hstep : ∀ c g k, step c g k = if test c then k c g else none)
    (htest : ∀ c, test c = true → fits c.previous [] c.rest) : Sound step fits holds := by
  intro c g k v hv
  rw [hstep] at hv
  split at hv
  · rename_i hc
    exact ⟨[], c.rest, [], rfl, htest c hc, List.forall_mem_nil _, by
      rw [Cursor.past_nil rfl]; exact hv⟩
  · cases hv

theorem complete_of_test (test : Cursor → Bool)
    (hstep : ∀ c g k, step c g k = if test c then k c g else none)
    (htest : ∀ c stretch, fits c.previous stretch (c.rest.drop stretch.length) →
      stretch = [] ∧ test c = true) : Complete step fits := by
  intro c g k stretch rest hrest hfits hk
  have hdrop : c.rest.drop stretch.length = rest := by rw [hrest, List.drop_left]
  obtain ⟨rfl, hc⟩ := htest c stretch (by rw [hdrop]; exact hfits)
  rw [Cursor.past_nil (by simpa using hrest)] at hk
  rw [hstep, if_pos hc]
  exact hk g

/-- One more round of `step`, if it reads something, and then the others. -/
def roundThen (step : Cursor → Groups → (Cursor → Groups → Option α) → Option α) (greedy : Bool)
    (fuel : List Char) (c : Cursor) (g : Groups) (k : Cursor → Groups → Option α) : Option α :=
  step c g fun c' g' => if c'.offset = c.offset then none else rounds step greedy fuel c' g' k

theorem rounds_cons (greedy : Bool) (x : Char) (fuel : List Char) (c : Cursor) (g : Groups)
    (k : Cursor → Groups → Option α) :
    rounds step greedy (x :: fuel) c g k =
      if greedy then (roundThen step greedy fuel c g k).or (k c g)
      else (k c g).or (roundThen step greedy fuel c g k) := by
  rw [rounds, Option.orElse_eq_or, Option.orElse_eq_or]
  rfl

theorem sound_rounds (h : Sound step fits holds) (greedy : Bool) (fuel : List Char) :
    Sound (rounds step greedy fuel) (Rounds fits) holds := by
  have hstop : Sound (α := α) (fun c g k => k c g) (Rounds fits) holds :=
    sound_of_test (fun _ => true) (fun _ _ _ => rfl) fun _ _ => .stop
  induction fuel with
  | nil => exact hstop
  | cons x fuel ih =>
    intro c g k v hv
    have hcases : k c g = some v ∨ roundThen step greedy fuel c g k = some v := by
      rw [rounds_cons] at hv
      cases greedy <;> rcases Option.or_eq_some_iff.mp hv with hfirst | ⟨-, hsecond⟩ <;> simp [*]
    rcases hcases with hk | hround
    · exact hstop c g k v hk
    · obtain ⟨first, mid, added, hfirst, hfits, hheld, hlater⟩ := h c g _ v hround
      split at hlater
      · cases hlater
      · rename_i hoffset
        obtain ⟨more, rest, added', hmore, hrounds, hheld', hk⟩ := ih _ _ k v hlater
        rw [Cursor.past_rest] at hmore
        subst hmore
        refine ⟨first ++ more, rest, added' ++ added, by rw [hfirst, List.append_assoc], ?_, ?_, ?_⟩
        · refine .round ?_ hfits hrounds
          rintro rfl
          exact hoffset rfl
        · exact List.forall_mem_append.mpr ⟨hheld', hheld⟩
        · rw [← Cursor.past_past, List.append_assoc]
          exact hk

/-- Every round reads a character, so that one for each of them is enough. -/
theorem isSome_rounds (h : Complete step fits) (greedy : Bool) {previous : Option Char}
    {stretch rest : List Char} (hrounds : Rounds fits previous stretch rest) {fuel : List Char}
    {c : Cursor} {g : Groups} {k : Cursor → Groups → Option α} (hprevious : c.previous = previous)
    (hrest : c.rest = stretch ++ rest) (hfuel : c.rest.length ≤ fuel.length)
    (hk : ∀ g', (k (c.past stretch rest) g').isSome) :
    (rounds step greedy fuel c g k).isSome := by
  induction hrounds generalizing fuel c g with
  | stop =>
    rw [Cursor.past_nil (by simpa using hrest)] at hk
    cases fuel with
    | nil => exact hk g
    | cons x fuel => cases greedy <;> simp [rounds_cons, Option.isSome_or, hk g]
  | @round previous first more rest hne hfits _ ih =>
    subst hprevious
    have hlength : c.rest.length = first.length + (more ++ rest).length := by
      rw [hrest, List.append_assoc, List.length_append]
    have hpos : 0 < first.length := List.length_pos_iff.mpr hne
    cases fuel with
    | nil =>
      simp only [List.length_nil] at hfuel
      omega
    | cons x fuel =>
      have hround : (roundThen step greedy fuel c g k).isSome := by
        refine h c g _ first (more ++ rest) (by rw [hrest, List.append_assoc]) hfits fun g' => ?_
        have hoffset : (c.past first (more ++ rest)).offset ≠ c.offset := by
          have hbytes := byteLength_pos hne
          rw [Cursor.past_offset]
          omega
        rw [if_neg hoffset]
        refine ih rfl rfl ?_ fun g'' => ?_
        · simp only [List.length_cons] at hfuel
          rw [Cursor.past_rest]
          omega
        · rw [Cursor.past_past]
          exact hk g''
      cases greedy <;> simp [rounds_cons, Option.isSome_or, hround]

/-- What a search passes on is a stretch that the pattern fits, with groups that hold what their
    bodies fit. -/
theorem exists_fits_of_run (p : Pattern) : Sound (α := α) p.run p.Fits p.Holds := by
  induction p with
  | empty => exact sound_of_test (fun _ => true) (fun _ _ _ => rfl) (by simp [Fits])
  | one accepts =>
    intro c g k v hv
    rw [run] at hv
    split at hv
    · cases hv
    · rename_i x rest hrest
      split at hv
      · rename_i hx
        exact ⟨[x], rest, [], hrest, ⟨x, rfl, hx⟩, List.forall_mem_nil _, hv⟩
      · cases hv
  | textStart =>
    exact sound_of_test (·.previous.isNone) (fun _ _ _ => rfl) (by simp [Fits])
  | lineStart =>
    exact sound_of_test (·.previous.all (· == '\n')) (fun _ _ _ => rfl)
      (by simp [Fits, Option.all_eq_true])
  | textEnd => exact sound_of_test (·.rest.isEmpty) (fun _ _ _ => rfl) (by simp [Fits])
  | wordEdge =>
    exact sound_of_test Cursor.atWordEdge (fun _ _ _ => rfl)
      (by simp [Fits, Cursor.atWordEdge])
  | seq first second ihfirst ihsecond =>
    intro c g k v hv
    obtain ⟨a, mid, added, ha, hfirst, hheld, hlater⟩ := ihfirst c g _ v hv
    obtain ⟨b, rest, added', hb, hsecond, hheld', hk⟩ := ihsecond _ _ k v hlater
    rw [Cursor.past_rest] at hb
    subst hb
    refine ⟨a ++ b, rest, added' ++ added, by rw [ha, List.append_assoc],
      ⟨a, b, rfl, hfirst, hsecond⟩, List.forall_mem_append.mpr ⟨?_, ?_⟩, ?_⟩
    · exact fun entry hentry => (hheld' entry hentry).mono (List.subset_append_right _ _)
    · exact fun entry hentry => (hheld entry hentry).mono (List.subset_append_left _ _)
    · rw [← Cursor.past_past, List.append_assoc]
      exact hk
  | choice first second ihfirst ihsecond =>
    intro c g k v hv
    rw [run, Option.orElse_eq_or] at hv
    rcases Option.or_eq_some_iff.mp hv with hv | ⟨-, hv⟩
    · obtain ⟨stretch, rest, added, hrest, hfits, hheld, hk⟩ := ihfirst c g k v hv
      refine ⟨stretch, rest, added, hrest, .inl hfits, fun entry hentry => ?_, hk⟩
      exact (hheld entry hentry).mono (List.subset_append_left _ _)
    · obtain ⟨stretch, rest, added, hrest, hfits, hheld, hk⟩ := ihsecond c g k v hv
      refine ⟨stretch, rest, added, hrest, .inr hfits, fun entry hentry => ?_, hk⟩
      exact (hheld entry hentry).mono (List.subset_append_right _ _)
  | repeated greedy body ih =>
    intro c g k v hv
    exact sound_rounds ih greedy c.rest c g k v hv
  | group index body ih =>
    intro c g k v hv
    obtain ⟨stretch, rest, added, hrest, hfits, hheld, hk⟩ := ih c g _ v hv
    refine ⟨stretch, rest, (index, c, c.past stretch rest) :: added, hrest, hfits, ?_, hk⟩
    refine List.forall_mem_cons.mpr ⟨?_, fun entry hentry => ?_⟩
    · have hbody : body ∈ (group index body).bodies index := by
        rw [bodies, if_pos rfl]
        exact List.mem_cons_self
      exact ⟨body, hbody, stretch, rest, hrest, rfl, hfits⟩
    · refine (hheld entry hentry).mono ?_
      rw [bodies]
      split
      · exact List.subset_cons_self _ _
      · exact List.Subset.refl _

/-- A search that can pass on something that is accepted has a result. -/
theorem isSome_run (p : Pattern) : Complete (α := α) p.run p.Fits := by
  induction p with
  | empty => exact complete_of_test (fun _ => true) (fun _ _ _ => rfl) (by simp [Fits])
  | one accepts =>
    rintro c g k stretch rest hrest ⟨x, rfl, hx⟩ hk
    rw [run, hrest]
    simp only [List.singleton_append, hx, if_true]
    exact hk g
  | textStart =>
    exact complete_of_test (·.previous.isNone) (fun _ _ _ => rfl) (by simp [Fits])
  | lineStart =>
    exact complete_of_test (·.previous.all (· == '\n')) (fun _ _ _ => rfl)
      (by simp [Fits, Option.all_eq_true])
  | textEnd =>
    refine complete_of_test (·.rest.isEmpty) (fun _ _ _ => rfl) ?_
    rintro c stretch ⟨rfl, hrest⟩
    exact ⟨rfl, List.isEmpty_iff.mpr hrest⟩
  | wordEdge =>
    refine complete_of_test Cursor.atWordEdge (fun _ _ _ => rfl) ?_
    rintro c stretch ⟨rfl, hedge⟩
    exact ⟨rfl, bne_iff_ne.mpr hedge⟩
  | seq first second ihfirst ihsecond =>
    rintro c g k stretch rest hrest ⟨a, b, rfl, hfirst, hsecond⟩ hk
    refine ihfirst c g _ a (b ++ rest) (by rw [hrest, List.append_assoc]) hfirst fun g' => ?_
    refine ihsecond _ g' k b rest rfl hsecond fun g'' => ?_
    rw [Cursor.past_past]
    exact hk g''
  | choice first second ihfirst ihsecond =>
    rintro c g k stretch rest hrest hfits hk
    rw [run, Option.orElse_eq_or, Option.isSome_or, Bool.or_eq_true]
    exact hfits.imp (fun h => ihfirst c g k stretch rest hrest h hk)
      fun h => ihsecond c g k stretch rest hrest h hk
  | repeated greedy body ih =>
    rintro c g k stretch rest hrest hfits hk
    exact isSome_rounds ih greedy hfits rfl hrest (Nat.le_refl _) hk
  | group index body ih =>
    rintro c g k stretch rest hrest hfits hk
    exact ih c g _ stretch rest hrest hfits fun g' => hk _

/-- A greedy repetition of one character takes all that it can, if what comes next accepts that. -/
theorem rounds_one_greedy {accepts : Char → Bool} {k : Cursor → Groups → Option α}
    (hk : ∀ c g, (k c g).isSome) {fuel : List Char} {c : Cursor} (g : Groups)
    (hfuel : c.rest.length ≤ fuel.length) :
    rounds (one accepts).run true fuel c g k =
      k (c.past (c.rest.takeWhile accepts) (c.rest.dropWhile accepts)) g := by
  induction fuel generalizing c with
  | nil =>
    have hnil : c.rest = [] := List.length_eq_zero_iff.mp (Nat.le_zero.mp hfuel)
    rw [hnil, List.takeWhile_nil, List.dropWhile_nil, Cursor.past_nil hnil]
    rfl
  | cons y fuel ih =>
    rw [rounds_cons, if_pos rfl, roundThen, run]
    split
    · rename_i hnil
      rw [hnil, List.takeWhile_nil, List.dropWhile_nil, Cursor.past_nil hnil, Option.none_or]
    · rename_i x rest hrest
      rw [hrest, List.takeWhile_cons, List.dropWhile_cons]
      split
      · have hoffset : c.offset + x.utf8Size ≠ c.offset := by
          have := x.utf8Size_pos
          omega
        have hlength : rest.length ≤ fuel.length := by
          rw [hrest] at hfuel
          exact Nat.le_of_succ_le_succ hfuel
        have hround := ih (c := ⟨some x, c.offset + x.utf8Size, rest⟩) hlength
        rw [if_neg hoffset, hround, Option.or_of_isSome (hk _ _)]
        exact congrArg (k · g) (Cursor.past_past c [x] _ rest _)
      · rw [Option.none_or, Cursor.past_nil hrest]

theorem run_one_cons {accepts : Char → Bool} {c : Cursor} {x : Char} {rest : List Char}
    (hrest : c.rest = x :: rest) (g : Groups) (k : Cursor → Groups → Option α) :
    (one accepts).run c g k = if accepts x then k (c.past [x] rest) g else none := by
  rw [run, hrest]
  rfl

/-- The same for a repetition that must take one character. -/
theorem run_many1_one {accepts : Char → Bool} {k : Cursor → Groups → Option α}
    (hk : ∀ c g, (k c g).isSome) (c : Cursor) (g : Groups) :
    (many1 (one accepts)).run c g k =
      if c.rest.takeWhile accepts = [] then none
      else k (c.past (c.rest.takeWhile accepts) (c.rest.dropWhile accepts)) g := by
  change ((one accepts).run c g fun c g => rounds (one accepts).run true c.rest c g k) = _
  cases hrest : c.rest with
  | nil => rw [run, hrest, if_pos List.takeWhile_nil]
  | cons x rest =>
    rw [run_one_cons hrest, List.takeWhile_cons, List.dropWhile_cons]
    split
    · rw [if_neg (List.cons_ne_nil _ _), rounds_one_greedy hk g (Nat.le_refl _), Cursor.past_rest,
        Cursor.past_past]
      rfl
    · rw [if_pos rfl]

end Search

/-! ## Matches in a text -/

/-- What a match from a place is. -/
theorem exists_fits_of_matchAt? {p : Pattern} {c : Cursor} {m : Match}
    (h : p.matchAt? c = some m) :
    ∃ stretch rest, c.rest = stretch ++ rest ∧ p.Fits c.previous stretch rest ∧
      m.whole = Span.between c (c.past stretch rest) ∧ m.after = c.past stretch rest := by
  obtain ⟨stretch, rest, added, hrest, hfits, -, hm⟩ := exists_fits_of_run p c [] _ m h
  cases hm
  exact ⟨stretch, rest, hrest, hfits, rfl, rfl⟩

/-- What the groups of a match hold. -/
theorem holds_of_matchAt? {p : Pattern} {c : Cursor} {m : Match} (h : p.matchAt? c = some m) :
    ∀ entry ∈ m.groups, p.Holds entry := by
  obtain ⟨stretch, rest, added, -, -, hheld, hm⟩ := exists_fits_of_run p c [] _ m h
  cases hm
  rw [List.append_nil]
  exact hheld

/-- Where a pattern matches. -/
theorem isSome_matchAt?_iff {p : Pattern} {c : Cursor} :
    (p.matchAt? c).isSome ↔
      ∃ stretch rest, c.rest = stretch ++ rest ∧ p.Fits c.previous stretch rest := by
  constructor
  · intro h
    obtain ⟨m, hm⟩ := Option.isSome_iff_exists.mp h
    obtain ⟨stretch, rest, hrest, hfits, -⟩ := exists_fits_of_matchAt? hm
    exact ⟨stretch, rest, hrest, hfits⟩
  · rintro ⟨stretch, rest, hrest, hfits⟩
    exact isSome_run p c [] _ stretch rest hrest hfits fun _ => rfl

theorem getLast?_cons_or (x : Char) (text : List Char) (previous : Option Char) :
    (x :: text).getLast?.or previous = text.getLast?.or (some x) := by
  cases h : text.getLast? <;> simp [List.getLast?_cons, h]

theorem isSome_searchFrom_iff {p : Pattern} {previous : Option Char} {offset : Nat}
    {text : List Char} :
    (p.searchFrom previous offset text).isSome ↔
      ∃ before stretch rest, text = before ++ (stretch ++ rest) ∧
        p.Fits (before.getLast?.or previous) stretch rest := by
  induction text generalizing previous offset with
  | nil =>
    rw [searchFrom, isSome_matchAt?_iff]
    constructor
    · rintro ⟨stretch, rest, hrest, hfits⟩
      exact ⟨[], stretch, rest, hrest, hfits⟩
    · rintro ⟨before, stretch, rest, htext, hfits⟩
      obtain ⟨rfl, hrest⟩ := List.append_eq_nil_iff.mp htext.symm
      exact ⟨stretch, rest, hrest.symm, hfits⟩
  | cons x text ih =>
    rw [searchFrom, Option.orElse_eq_or, Option.isSome_or, Bool.or_eq_true, isSome_matchAt?_iff, ih]
    constructor
    · rintro (⟨stretch, rest, hrest, hfits⟩ | ⟨before, stretch, rest, htext, hfits⟩)
      · exact ⟨[], stretch, rest, hrest, hfits⟩
      · refine ⟨x :: before, stretch, rest, by rw [htext]; rfl, ?_⟩
        rw [getLast?_cons_or]
        exact hfits
    · rintro ⟨before, stretch, rest, htext, hfits⟩
      cases before with
      | nil => exact .inl ⟨stretch, rest, htext, hfits⟩
      | cons y before =>
        cases htext
        rw [getLast?_cons_or] at hfits
        exact .inr ⟨before, stretch, rest, rfl, hfits⟩

/-- A pattern is in a text if it fits a stretch of it. -/
theorem isIn_iff {p : Pattern} {text : List Char} :
    p.isIn text = true ↔
      ∃ before stretch rest, text = before ++ (stretch ++ rest) ∧
        p.Fits before.getLast? stretch rest := by
  simp only [isIn, find?, isSome_searchFrom_iff, Option.or_none]

/-! ## Successive matches -/

section Successive

variable {p : Pattern} {c : Cursor}

theorem matchesFrom_of_nil (h : p.matchAt? c = none) (hrest : c.rest = []) (fuel : Nat) :
    p.matchesFrom (fuel + 1) c = [] := by
  obtain ⟨previous, offset, rest⟩ := c
  cases hrest
  rw [matchesFrom, searchFrom, h]

theorem matchesFrom_of_cons (h : p.matchAt? c = none) {x : Char} {rest : List Char}
    (hrest : c.rest = x :: rest) (fuel : Nat) :
    p.matchesFrom (fuel + 1) c = p.matchesFrom (fuel + 1) (c.past [x] rest) := by
  obtain ⟨previous, offset, text⟩ := c
  cases hrest
  rw [matchesFrom, searchFrom, h, matchesFrom]
  rfl

theorem matchesFrom_of_some {m : Match} (h : p.matchAt? c = some m)
    (hreads : m.whole.start < m.whole.stop) (fuel : Nat) :
    p.matchesFrom (fuel + 1) c = m :: p.matchesFrom fuel m.after := by
  have hsearch : p.searchFrom c.previous c.offset c.rest = some m := by
    obtain ⟨previous, offset, text⟩ := c
    cases text with
    | nil => rw [searchFrom, h]
    | cons x text => rw [searchFrom, h, Option.orElse_eq_or, Option.some_or]
  rw [matchesFrom, hsearch]
  exact if_pos hreads

end Successive

/-- Cuts a text at the first place from which `after?` leads on. Gives what stands before the place
    and where `after?` leads. -/
def cutWhere (after? : List Char → Option (List Char)) : List Char → Option (List Char × List Char)
  | [] => (after? []).map fun rest => ([], rest)
  | x :: text =>
    match after? (x :: text) with
    | some rest => some ([], rest)
    | none => (cutWhere after? text).map fun parts => (x :: parts.1, parts.2)

theorem append_of_cutWhere {after? : List Char → Option (List Char)} {text : List Char}
    {parts : List Char × List Char} (h : cutWhere after? text = some parts) :
    ∃ place, text = parts.1 ++ place ∧ after? place = some parts.2 := by
  induction text generalizing parts with
  | nil =>
    obtain ⟨rest, hrest, rfl⟩ := Option.map_eq_some_iff.mp h
    exact ⟨[], rfl, hrest⟩
  | cons x text ih =>
    rw [cutWhere] at h
    split at h
    · rename_i rest hrest
      cases h
      exact ⟨x :: text, rfl, hrest⟩
    · obtain ⟨later, hlater, rfl⟩ := Option.map_eq_some_iff.mp h
      obtain ⟨place, htext, hplace⟩ := ih hlater
      exact ⟨place, by rw [htext]; rfl, hplace⟩

/-- Does a pattern lead from each place to one other at most, whatever stands before it? -/
def LeadsBy (p : Pattern) (after? : List Char → Option (List Char)) : Prop :=
  ∀ previous text rest, after? text = some rest ↔
    ∃ stretch, text = stretch ++ rest ∧ p.Fits previous stretch rest

section Cuts

variable {p : Pattern} {after? : List Char → Option (List Char)}

theorem LeadsBy.matchAt? (h : p.LeadsBy after?) (c : Cursor) :
    (p.matchAt? c).map (fun m => (m.whole.start, m.after.rest)) =
      (after? c.rest).map fun rest => (c.offset, rest) := by
  cases hmatch : p.matchAt? c with
  | some m =>
    obtain ⟨stretch, rest, hrest, hfits, hwhole, hafter⟩ := exists_fits_of_matchAt? hmatch
    rw [(h c.previous c.rest rest).mpr ⟨stretch, hrest, hfits⟩, Option.map_some, Option.map_some,
      hwhole, hafter]
    rfl
  | none =>
    cases hafter : after? c.rest with
    | none => rfl
    | some rest =>
      obtain ⟨stretch, hrest, hfits⟩ := (h c.previous c.rest rest).mp hafter
      have hsome := isSome_matchAt?_iff.mpr ⟨stretch, rest, hrest, hfits⟩
      rw [hmatch] at hsome
      cases hsome

theorem LeadsBy.searchFrom (h : p.LeadsBy after?) (previous : Option Char) (offset : Nat)
    (text : List Char) :
    (p.searchFrom previous offset text).map (fun m => (m.whole.start, m.after.rest)) =
      (cutWhere after? text).map fun parts => (offset + byteLength parts.1, parts.2) := by
  induction text generalizing previous offset with
  | nil =>
    rw [Pattern.searchFrom, h.matchAt?, cutWhere, Option.map_map]
    rfl
  | cons x text ih =>
    have hhere := h.matchAt? ⟨previous, offset, x :: text⟩
    rw [Pattern.searchFrom, Option.orElse_eq_or, Option.map_or, hhere, ih, cutWhere]
    cases after? (x :: text) with
    | some rest => rfl
    | none =>
      simp only [Option.map_none, Option.none_or, Option.map_map, Function.comp_def,
        byteLength_cons, Nat.add_assoc]

/-- The search for such a pattern cuts the text at the first place where the pattern matches. -/
theorem LeadsBy.find? (h : p.LeadsBy after?) (text : List Char) :
    (p.find? text).map (fun m => (takeBytes? m.whole.start text, m.after.rest)) =
      (cutWhere after? text).map fun parts => (some parts.1, parts.2) := by
  have hsearch := h.searchFrom none 0 text
  rw [← Pattern.find?] at hsearch
  cases hcut : cutWhere after? text with
  | none =>
    rw [hcut, Option.map_none, Option.map_eq_none_iff] at hsearch
    rw [hsearch, Option.map_none, Option.map_none]
  | some parts =>
    rw [hcut, Option.map_some, Option.map_eq_some_iff] at hsearch
    obtain ⟨m, hm, hparts⟩ := hsearch
    rw [Prod.mk.injEq, Nat.zero_add] at hparts
    obtain ⟨place, htext, -⟩ := append_of_cutWhere hcut
    have htake : takeBytes? (byteLength parts.1) text = some parts.1 := by
      rw [htext, takeBytes?_append]
    rw [hm, Option.map_some, Option.map_some, hparts.1, hparts.2, htake]

end Cuts

/-! ## Combinators -/

variable {previous : Option Char} {stretch rest : List Char}

@[simp] theorem fits_seq {p q : Pattern} : (p ++ q).Fits previous stretch rest ↔
    ∃ a b, stretch = a ++ b ∧ p.Fits previous a (b ++ rest) ∧
      q.Fits (a.getLast?.or previous) b rest := Iff.rfl

theorem fits_seq_assoc {p q r : Pattern} :
    (p ++ q ++ r).Fits previous stretch rest ↔ (p ++ (q ++ r)).Fits previous stretch rest := by
  constructor
  · rintro ⟨_, c, rfl, ⟨a, b, rfl, hp, hq⟩, hr⟩
    rw [List.getLast?_append, Option.or_assoc] at hr
    exact ⟨a, b ++ c, List.append_assoc .., by rwa [List.append_assoc], b, c, rfl, hq, hr⟩
  · rintro ⟨a, _, rfl, hp, b, c, rfl, hq, hr⟩
    rw [List.append_assoc] at hp
    refine ⟨a ++ b, c, (List.append_assoc ..).symm, ⟨a, b, rfl, hp, hq⟩, ?_⟩
    rwa [List.getLast?_append, Option.or_assoc]

@[simp] theorem fits_choice {p q : Pattern} : (p <|> q).Fits previous stretch rest ↔
    p.Fits previous stretch rest ∨ q.Fits previous stretch rest := Iff.rfl

theorem isIn_choice_iff {p q : Pattern} {text : List Char} :
    (p <|> q).isIn text = true ↔ p.isIn text = true ∨ q.isIn text = true := by
  simp only [isIn_iff, fits_choice, and_or_left, exists_or]

@[simp] theorem fits_textStart :
    textStart.Fits previous stretch rest ↔ stretch = [] ∧ previous = none := Iff.rfl

@[simp] theorem fits_wordEdge : wordEdge.Fits previous stretch rest ↔
    stretch = [] ∧ previous.any isWord ≠ rest.head?.any isWord := Iff.rfl

@[simp] theorem fits_char {c : Char} : (char c).Fits previous stretch rest ↔ stretch = [c] := by
  simp [char, Fits]

@[simp] theorem fits_oneOf {chars : String} : (oneOf chars).Fits previous stretch rest ↔
    ∃ x ∈ chars.toList, stretch = [x] := by
  simp [oneOf, Fits, and_comm]

@[simp] theorem fits_opt {p : Pattern} :
    (opt p).Fits previous stretch rest ↔ p.Fits previous stretch rest ∨ stretch = [] := Iff.rfl

theorem fits_ofChars {word : List Char} :
    (ofChars word).Fits previous stretch rest ↔ stretch = word := by
  fun_induction ofChars word generalizing previous stretch with
  | case1 => exact Iff.rfl
  | case2 c => exact fits_char
  | case3 c word _ ih =>
    simp [ih]

@[simp] theorem fits_lit {word : String} :
    (lit word).Fits previous stretch rest ↔ stretch = word.toList := fits_ofChars

theorem fits_ofFoldedChars {word : List Char} :
    (ofFoldedChars word).Fits previous stretch rest ↔ stretch.map foldCase = word := by
  fun_induction ofFoldedChars word generalizing previous stretch with
  | case1 => simp [Fits]
  | case2 c => simp [Fits]
  | case3 c word _ ih =>
    simp only [fits_seq, ih]
    constructor
    · rintro ⟨a, b, rfl, ⟨x, rfl, hx⟩, rfl⟩
      rw [← eq_of_beq hx]
      rfl
    · intro h
      obtain ⟨x, folded, rfl, rfl, hfolded⟩ := List.map_eq_cons_iff.mp h
      exact ⟨[x], folded, rfl, ⟨x, rfl, beq_self_eq_true _⟩, hfolded⟩

@[simp] theorem fits_anyCase {word : String} :
    (anyCase word).Fits previous stretch rest ↔ stretch.map foldCase = word.toList :=
  fits_ofFoldedChars

/-- Rounds of one character each. -/
@[simp] theorem fits_many_one {accepts : Char → Bool} :
    (many (one accepts)).Fits previous stretch rest ↔ ∀ c ∈ stretch, accepts c = true := by
  constructor
  · intro h
    change Rounds _ previous stretch rest at h
    induction h with
    | stop => exact List.forall_mem_nil _
    | round _ hfirst _ ih =>
      obtain ⟨x, rfl, hx⟩ := hfirst
      exact List.forall_mem_cons.mpr ⟨hx, ih⟩
  · intro h
    induction stretch generalizing previous with
    | nil => exact .stop
    | cons c stretch ih =>
      rw [List.forall_mem_cons] at h
      exact .round (List.cons_ne_nil c []) ⟨c, rfl, h.1⟩ (ih h.2)

@[simp] theorem fits_many1_one {accepts : Char → Bool} :
    (many1 (one accepts)).Fits previous stretch rest ↔
      stretch ≠ [] ∧ ∀ c ∈ stretch, accepts c = true := by
  constructor
  · rintro ⟨_, more, rfl, ⟨x, rfl, hx⟩, hmore⟩
    exact ⟨List.cons_ne_nil _ _, List.forall_mem_cons.mpr ⟨hx, fits_many_one.mp hmore⟩⟩
  · rintro ⟨hne, hchars⟩
    cases stretch with
    | nil => exact absurd rfl hne
    | cons x more =>
      rw [List.forall_mem_cons] at hchars
      exact ⟨[x], more, rfl, ⟨x, rfl, hchars.1⟩, fits_many_one.mpr hchars.2⟩

@[simp] theorem fits_many_noneOf {chars : String} :
    (many (noneOf chars)).Fits previous stretch rest ↔ ∀ c ∈ stretch, c ∉ chars.toList := by
  simp [noneOf]

@[simp] theorem fits_blanks :
    blanks.Fits previous stretch rest ↔ ∀ c ∈ stretch, isBlank c = true := fits_many_one

end Pattern

end CodeAudit
