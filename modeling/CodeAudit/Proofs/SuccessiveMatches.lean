import CodeAudit.Proofs.MatchPlaces

/-!
# Successive matches

A search for all matches goes on where the match before ended. So it finds a match in a place
exactly if the pattern matches there and no match that was found before reaches over the place.

Results:
* `exists_of_matchAt?_group`: what a group holds that is matched once.
* `exists_of_matchAt?_opt`: whether a group is there that may be left out.
* `exists_of_mem_findAll`: what is found is a match in some place.
* `pairwise_findAll`: matches are found from left to right and do not overlap.
* `mem_findAll_iff`: which of the matches are found.
* `exists_mem_findAll`: matches that no other reaches over are all found.
* `exists_found_with_end`: where matches end with the first of a character, those that are found
  have all the ends.
-/

namespace CodeAudit

open Text

/-- What stands before the first of a character is known by the text. -/
theorem Text.eq_of_first {c : Char} {front front' rest rest' : List Char} (hfront : c ∉ front)
    (hfront' : c ∉ front') (h : front ++ c :: rest = front' ++ c :: rest') : front = front' := by
  have hall : ∀ {text : List Char}, c ∉ text → ∀ x ∈ text, (x != c) = true := by
    rintro text htext x hx
    rw [bne_iff_ne]
    rintro rfl
    exact htext hx
  have htake := congrArg (List.takeWhile (· != c)) h
  rw [List.takeWhile_append_of_pos (hall hfront), List.takeWhile_append_of_pos (hall hfront'),
    List.takeWhile_cons_of_neg (by simp), List.takeWhile_cons_of_neg (by simp)] at htake
  simpa using htake

/-- The start of a text is known by the number of its bytes. -/
theorem Text.eq_of_byteLength {front front' rest rest' : List Char}
    (h : front ++ rest = front' ++ rest') (hbytes : byteLength front = byteLength front') :
    front = front' := by
  have htake := takeBytes?_append front rest
  rw [h, hbytes, takeBytes?_append] at htake
  exact (Option.some.inj htake).symm

/-- The place of a text that stands behind `before`. -/
def Cursor.behind (before rest : List Char) : Cursor :=
  ⟨before.getLast?, byteLength before, rest⟩

namespace Cursor

@[simp] theorem behind_previous (before rest : List Char) :
    (behind before rest).previous = before.getLast? := rfl

@[simp] theorem behind_offset (before rest : List Char) :
    (behind before rest).offset = byteLength before := rfl

@[simp] theorem behind_rest (before rest : List Char) : (behind before rest).rest = rest := rfl

theorem isIn_behind (before rest : List Char) : (behind before rest).IsIn (before ++ rest) :=
  ⟨before, rfl, rfl, rfl⟩

theorem behind_past (before stretch rest rest' : List Char) :
    (behind before rest).past stretch rest' = behind (before ++ stretch) rest' := by
  rw [past, behind, behind, List.getLast?_append, byteLength_append]

theorem IsIn.eq_behind {c : Cursor} {text : List Char} (h : c.IsIn text) :
    ∃ before, text = before ++ c.rest ∧ c = behind before c.rest := by
  obtain ⟨before, htext, hoffset, hprevious⟩ := h
  refine ⟨before, htext, ?_⟩
  rw [behind, ← hoffset, ← hprevious]

/-- A place is known by its offset. -/
theorem IsIn.eq_of_offset {c d : Cursor} {text : List Char} (hc : c.IsIn text) (hd : d.IsIn text)
    (h : c.offset = d.offset) : c = d := by
  obtain ⟨before, htext, heq⟩ := hc.eq_behind
  obtain ⟨before', htext', heq'⟩ := hd.eq_behind
  have hbytes : byteLength before = byteLength before' := by
    rw [heq, heq'] at h
    exact h
  obtain rfl : before = before' := eq_of_byteLength (htext.symm.trans htext') hbytes
  rw [heq, heq', List.append_cancel_left (htext.symm.trans htext')]

/-- A place that does not stand before another stands behind a stretch of what follows it. -/
theorem IsIn.exists_past {c d : Cursor} {text : List Char} (hc : c.IsIn text) (hd : d.IsIn text)
    (h : c.offset ≤ d.offset) :
    ∃ stretch, c.rest = stretch ++ d.rest ∧ d = c.past stretch d.rest := by
  obtain ⟨before, htext, heq⟩ := hc.eq_behind
  obtain ⟨before', htext', heq'⟩ := hd.eq_behind
  have hstretch : ∃ stretch, before' = before ++ stretch := by
    rcases List.append_eq_append_iff.mp (htext.symm.trans htext') with ⟨stretch, hbefore, -⟩ |
      ⟨stretch, hbefore, -⟩
    · exact ⟨stretch, hbefore⟩
    · rw [heq, heq', behind_offset, behind_offset, hbefore, byteLength_append] at h
      have hnil : byteLength stretch = 0 := by omega
      cases stretch with
      | nil => exact ⟨[], by rw [hbefore, List.append_nil, List.append_nil]⟩
      | cons x stretch => exact absurd hnil (Nat.ne_of_gt (byteLength_pos (List.cons_ne_nil _ _)))
  obtain ⟨stretch, rfl⟩ := hstretch
  refine ⟨stretch, ?_, ?_⟩
  · rw [htext, List.append_assoc] at htext'
    exact List.append_cancel_left htext'
  · conv => lhs; rw [heq']
    conv => rhs; rw [heq, behind_past]

end Cursor

/-- The stretch between a place and one behind it. -/
theorem Span.between_past {c : Cursor} {stretch rest : List Char} (h : c.rest = stretch ++ rest) :
    Span.between c (c.past stretch rest) =
      ⟨c.offset, c.offset + byteLength stretch, stretch⟩ := by
  have htext : (Span.between c (c.past stretch rest)).text = stretch := Span.text_between h
  exact (congrArg (Span.mk c.offset (c.offset + byteLength stretch)) htext :)

namespace Pattern

/-! ## One match -/

/-- A pattern without groups of a number remembers nothing under it. -/
theorem lookup_eq_none {p : Pattern} {index : Nat} (hp : p.bodies index = []) {added : Groups}
    (h : ∀ entry ∈ added, p.Holds entry) : added.lookup index = none := by
  rw [List.lookup_eq_none_iff]
  intro entry hentry
  obtain ⟨inner, hinner, -⟩ := h entry hentry
  rw [bne_iff_ne]
  rintro rfl
  rw [hp] at hinner
  cases hinner

/-- What a group holds that is matched once, with what stands around it. -/
theorem exists_of_matchAt?_group {front body back : Pattern} {index : Nat}
    (hback : back.bodies index = []) {c : Cursor} {m : Match}
    (h : (front ++ group index body ++ back).matchAt? c = some m) :
    ∃ a b d rest, c.rest = a ++ (b ++ (d ++ rest)) ∧ front.Fits c.previous a (b ++ (d ++ rest)) ∧
      body.Fits (a.getLast?.or c.previous) b (d ++ rest) ∧
      back.Fits (b.getLast?.or (a.getLast?.or c.previous)) d rest ∧
      m.group? index = some ⟨c.offset + byteLength a, c.offset + byteLength a + byteLength b, b⟩ ∧
      m.whole.text = a ++ (b ++ d) := by
  obtain ⟨a, mid, added, ha, hfront, -, hgroup⟩ := exists_fits_of_run front c [] _ m h
  obtain ⟨b, later, added', hb, hbody, -, hrest⟩ := exists_fits_of_run body _ _ _ m hgroup
  obtain ⟨d, rest, added'', hd, hlast, hheld, hm⟩ := exists_fits_of_run back _ _ _ m hrest
  rw [Cursor.past_rest] at hb hd
  subst hb hd
  have hnone : added''.lookup index = none := lookup_eq_none hback hheld
  have hwhole := congrArg (Option.map Match.whole) hm
  have hgroup := congrArg (Option.map (Match.group? · index)) hm
  rw [Option.map_some, Option.map_some, Option.some_inj] at hwhole hgroup
  refine ⟨a, b, d, rest, ha, hfront, hbody, hlast, ?_, ?_⟩
  · rw [← hgroup, Match.group?, List.lookup_append, hnone, Option.none_or, List.lookup_cons,
      beq_self_eq_true]
    exact congrArg some (Span.between_past rfl)
  · have hall : c.rest = (a ++ (b ++ d)) ++ rest := by
      rw [ha, List.append_assoc, List.append_assoc]
    rw [← hwhole, Cursor.past_past, Cursor.past_past]
    exact Span.text_between hall

/-- Whether a group is there that may be left out, with what stands around it. -/
theorem exists_of_matchAt?_opt {front body back : Pattern} {index : Nat}
    (hfront : front.bodies index = []) (hback : back.bodies index = []) {c : Cursor} {m : Match}
    (h : (front ++ opt (group index body) ++ back).matchAt? c = some m) :
    ∃ a b d rest, c.rest = a ++ (b ++ (d ++ rest)) ∧ front.Fits c.previous a (b ++ (d ++ rest)) ∧
      (if (m.group? index).isSome then body.Fits (a.getLast?.or c.previous) b (d ++ rest)
        else b = []) ∧
      back.Fits (b.getLast?.or (a.getLast?.or c.previous)) d rest := by
  obtain ⟨a, mid, added, ha, hfits, hheld, hopt⟩ := exists_fits_of_run front c [] _ m h
  have hnone : added.lookup index = none := lookup_eq_none hfront hheld
  rw [opt, run, Option.orElse_eq_or] at hopt
  rcases Option.or_eq_some_iff.mp hopt with hgroup | ⟨-, hleft⟩
  · obtain ⟨b, later, added', hb, hbody, -, hrest⟩ := exists_fits_of_run body _ _ _ m hgroup
    obtain ⟨d, rest, added'', hd, hlast, -, hm⟩ := exists_fits_of_run back _ _ _ m hrest
    rw [Cursor.past_rest] at hb hd
    subst hb hd
    cases hm
    refine ⟨a, b, d, rest, ha, hfits, ?_, hlast⟩
    rw [if_pos]
    · exact hbody
    · simp [Match.group?, List.lookup_append]
  · obtain ⟨d, rest, added', hd, hlast, hheld', hm⟩ := exists_fits_of_run back _ _ _ m hleft
    rw [Cursor.past_rest] at hd
    subst hd
    cases hm
    refine ⟨a, [], d, rest, ha, hfits, ?_, hlast⟩
    rw [if_neg]
    simp [Match.group?, List.lookup_append, hnone, lookup_eq_none hback hheld']

/-- A match that is not empty stands between two offsets. -/
theorem exists_of_matchAt? {p : Pattern} (hp : p.isVisible = true) {c : Cursor} {m : Match}
    (h : p.matchAt? c = some m) :
    ∃ stretch rest, c.rest = stretch ++ rest ∧ stretch ≠ [] ∧ p.Fits c.previous stretch rest ∧
      m.whole = ⟨c.offset, c.offset + byteLength stretch, stretch⟩ ∧
      m.after = c.past stretch rest := by
  obtain ⟨stretch, rest, hrest, hfits, hwhole, hafter⟩ := exists_fits_of_matchAt? h
  obtain ⟨x, hx, -⟩ := exists_visible_of_fits hp hfits
  exact ⟨stretch, rest, hrest, List.ne_nil_of_mem hx, hfits,
    hwhole.trans (Span.between_past hrest), hafter⟩

/-! ## All matches -/

section Successive

variable {p : Pattern} {text : List Char}

/-- The next match from a place on, and where it is. -/
theorem exists_of_searchFrom (hp : p.isVisible = true) {c : Cursor} (hc : c.IsIn text) {m : Match}
    (h : p.searchFrom c.previous c.offset c.rest = some m) :
    ∃ d : Cursor, d.IsIn text ∧ c.offset ≤ d.offset ∧ p.matchAt? d = some m ∧
      m.whole.start = d.offset ∧ d.offset < m.whole.stop ∧ m.after.IsIn text ∧
      m.after.offset = m.whole.stop ∧ m.after.rest.length < c.rest.length ∧
      ∀ e : Cursor, e.IsIn text → c.offset ≤ e.offset → (p.matchAt? e).isSome →
        d.offset ≤ e.offset := by
  obtain ⟨before, rest, htext, hm, hfirst⟩ := exists_first_of_searchFrom h
  obtain ⟨stretch, later, hrest, hne, -, hwhole, hafter⟩ := exists_of_matchAt? hp hm
  have hd : (c.past before rest).IsIn text := hc.past htext
  have hbytes := byteLength_pos hne
  have hlength := List.length_pos_iff.mpr hne
  refine ⟨c.past before rest, hd, Nat.le_add_right _ _, hm, by rw [hwhole], ?_, ?_, ?_, ?_, ?_⟩
  · rw [hwhole]
    exact Nat.lt_add_of_pos_right hbytes
  · rw [hafter]
    exact hd.past hrest
  · rw [hwhole, hafter]
    rfl
  · rw [Cursor.past_rest] at hrest
    rw [hafter, htext, hrest, Cursor.past_rest, List.length_append, List.length_append]
    omega
  · intro e he hle hsome
    obtain ⟨b, hb, hpast⟩ := hc.exists_past he hle
    rw [hpast] at hsome ⊢
    have hlength := hfirst b e.rest hb hsome
    obtain ⟨more, rfl⟩ : before <+: b :=
      List.prefix_of_prefix_length_le ⟨rest, htext.symm⟩ ⟨e.rest, hb.symm⟩ hlength
    rw [Cursor.past_offset, Cursor.past_offset, byteLength_append]
    omega

theorem matchesFrom_of_search (hp : p.isVisible = true) {c : Cursor} (hc : c.IsIn text) {m : Match}
    (h : p.searchFrom c.previous c.offset c.rest = some m) (fuel : Nat) :
    p.matchesFrom (fuel + 1) c = m :: p.matchesFrom fuel m.after := by
  obtain ⟨d, -, -, -, hstart, hstop, -⟩ := exists_of_searchFrom hp hc h
  rw [matchesFrom, h]
  exact if_pos (hstart ▸ hstop)

theorem exists_of_mem_matchesFrom (hp : p.isVisible = true) {fuel : Nat} {c : Cursor}
    (hc : c.IsIn text) {m : Match} (hm : m ∈ p.matchesFrom fuel c) :
    ∃ d : Cursor, d.IsIn text ∧ c.offset ≤ d.offset ∧ p.matchAt? d = some m ∧
      m.whole.start = d.offset := by
  induction fuel generalizing c with
  | zero => cases hm
  | succ fuel ih =>
    cases hsearch : p.searchFrom c.previous c.offset c.rest with
    | none =>
      rw [matchesFrom, hsearch] at hm
      cases hm
    | some first =>
      obtain ⟨d, hd, hle, hfirst, hstart, hstop, hafter, hoffset, -⟩ :=
        exists_of_searchFrom hp hc hsearch
      rw [matchesFrom_of_search hp hc hsearch] at hm
      rcases List.mem_cons.mp hm with rfl | hm
      · exact ⟨d, hd, hle, hfirst, hstart⟩
      · obtain ⟨e, he, hle', hmatch, hstart'⟩ := ih hafter hm
        exact ⟨e, he, by omega, hmatch, hstart'⟩

theorem pairwise_matchesFrom (hp : p.isVisible = true) {fuel : Nat} {c : Cursor}
    (hc : c.IsIn text) :
    (p.matchesFrom fuel c).Pairwise fun m m' => m.whole.stop ≤ m'.whole.start := by
  induction fuel generalizing c with
  | zero => exact .nil
  | succ fuel ih =>
    cases hsearch : p.searchFrom c.previous c.offset c.rest with
    | none =>
      rw [matchesFrom, hsearch]
      exact .nil
    | some first =>
      obtain ⟨d, -, -, -, -, -, hafter, hoffset, -⟩ := exists_of_searchFrom hp hc hsearch
      rw [matchesFrom_of_search hp hc hsearch]
      refine .cons (fun m hm => ?_) (ih hafter)
      obtain ⟨e, -, hle, -, hstart⟩ := exists_of_mem_matchesFrom hp hafter hm
      omega

/-- A match is found unless one that is found reaches over its place. -/
theorem mem_matchesFrom (hp : p.isVisible = true) {fuel : Nat} {c d : Cursor} (hc : c.IsIn text)
    (hfuel : c.rest.length < fuel) (hd : d.IsIn text) (hle : c.offset ≤ d.offset) {m : Match}
    (hm : p.matchAt? d = some m)
    (hfree : ∀ m' ∈ p.matchesFrom fuel c, m'.whole.start < d.offset → m'.whole.stop ≤ d.offset) :
    m ∈ p.matchesFrom fuel c := by
  induction fuel generalizing c with
  | zero => exact absurd hfuel (Nat.not_lt_zero _)
  | succ fuel ih =>
    cases hsearch : p.searchFrom c.previous c.offset c.rest with
    | none =>
      obtain ⟨b, hb, hpast⟩ := hc.exists_past hd hle
      obtain ⟨stretch, rest, hrest, hfits, -⟩ := exists_fits_of_matchAt? hm
      have hsome : (p.searchFrom c.previous c.offset c.rest).isSome := by
        rw [isSome_searchFrom_iff]
        refine ⟨b, stretch, rest, by rw [hb, hrest], ?_⟩
        rw [hpast] at hfits
        exact hfits
      rw [hsearch] at hsome
      cases hsome
    | some first =>
      obtain ⟨e, he, hle', hfirst, hstart, hstop, hafter, hoffset, hless, hleast⟩ :=
        exists_of_searchFrom hp hc hsearch
      rw [matchesFrom_of_search hp hc hsearch] at hfree ⊢
      rw [List.forall_mem_cons] at hfree
      have hbefore := hleast d hd hle (by rw [hm]; rfl)
      rcases Nat.lt_or_eq_of_le hbefore with hlt | heq
      · -- The match that is found first ends before the place.
        have hends := hfree.1 (by omega)
        exact List.mem_cons_of_mem _ (ih hafter (by omega) (by omega) hfree.2)
      · rw [he.eq_of_offset hd heq, hm] at hfirst
        rw [Option.some.inj hfirst]
        exact List.mem_cons_self

/-- What is found is a match in some place. -/
theorem exists_of_mem_findAll (hp : p.isVisible = true) {m : Match} (hm : m ∈ p.findAll text) :
    ∃ before rest, text = before ++ rest ∧ p.matchAt? (.behind before rest) = some m ∧
      m.whole.start = byteLength before := by
  obtain ⟨d, hd, -, hmatch, hstart⟩ :=
    exists_of_mem_matchesFrom hp (Cursor.isIn_start text) hm
  obtain ⟨before, htext, heq⟩ := hd.eq_behind
  rw [heq] at hmatch hstart
  exact ⟨before, d.rest, htext, hmatch, hstart⟩

/-- What is found from a place on is the match there. -/
theorem matchAt?_of_mem_findAll (hp : p.isVisible = true) {before rest : List Char} {m : Match}
    (hm : m ∈ p.findAll (before ++ rest)) (hstart : m.whole.start = byteLength before) :
    p.matchAt? (.behind before rest) = some m := by
  obtain ⟨d, hd, -, hmatch, hoffset⟩ := exists_of_mem_matchesFrom hp (Cursor.isIn_start _) hm
  have hsame : d = .behind before rest :=
    hd.eq_of_offset (Cursor.isIn_behind before rest) (hoffset.symm.trans hstart)
  rwa [hsame] at hmatch

/-- Matches are found from left to right and do not overlap. -/
theorem pairwise_findAll (hp : p.isVisible = true) (text : List Char) :
    (p.findAll text).Pairwise fun m m' => m.whole.stop ≤ m'.whole.start :=
  pairwise_matchesFrom hp (Cursor.isIn_start text)

theorem start_lt_stop (hp : p.isVisible = true) {m : Match} (hm : m ∈ p.findAll text) :
    m.whole.start < m.whole.stop := by
  obtain ⟨before, rest, -, hmatch, -⟩ := exists_of_mem_findAll hp hm
  obtain ⟨stretch, _, -, hne, -, hwhole, -⟩ := exists_of_matchAt? hp hmatch
  rw [hwhole]
  exact Nat.lt_add_of_pos_right (byteLength_pos hne)

theorem nodup_findAll (hp : p.isVisible = true) (text : List Char) : (p.findAll text).Nodup := by
  refine (pairwise_findAll hp text).imp_of_mem fun hm _ hle hsame => ?_
  have hlt := start_lt_stop hp hm
  rw [← hsame] at hle
  omega

/-- What is found is known by its place. -/
theorem eq_of_start (hp : p.isVisible = true) {m m' : Match} (hm : m ∈ p.findAll text)
    (hm' : m' ∈ p.findAll text) (h : m.whole.start = m'.whole.start) : m = m' := by
  obtain ⟨before, rest, rfl, hmatch, hstart⟩ := exists_of_mem_findAll hp hm
  have hmatch' := matchAt?_of_mem_findAll hp hm' (h.symm.trans hstart)
  exact Option.some.inj (hmatch.symm.trans hmatch')

/-- A match is found exactly if none that is found reaches over its place. -/
theorem mem_findAll_iff (hp : p.isVisible = true) {before rest : List Char} {m : Match}
    (hm : p.matchAt? (.behind before rest) = some m) :
    m ∈ p.findAll (before ++ rest) ↔ ∀ m' ∈ p.findAll (before ++ rest),
      m'.whole.start < byteLength before → m'.whole.stop ≤ byteLength before := by
  constructor
  · intro hmem m' hm' hlt
    obtain ⟨stretch, later, -, -, -, hwhole, -⟩ := exists_of_matchAt? hp hm
    have hstart : m.whole.start = byteLength before := by rw [hwhole]; rfl
    have hstop : m.whole.start ≤ m.whole.stop := by rw [hwhole]; exact Nat.le_add_right _ _
    obtain ⟨i, hi, rfl⟩ := List.mem_iff_getElem.mp hmem
    obtain ⟨j, hj, rfl⟩ := List.mem_iff_getElem.mp hm'
    have hpairs := List.pairwise_iff_getElem.mp (pairwise_findAll hp (before ++ rest))
    rcases Nat.lt_trichotomy j i with hji | rfl | hij
    · exact hstart ▸ hpairs j i hj hi hji
    · exact absurd hlt (by omega)
    · have hover := hpairs i j hi hj hij
      omega
  · exact mem_matchesFrom hp (Cursor.isIn_start _) (Nat.lt_succ_self _)
      (Cursor.isIn_behind before rest) (Nat.zero_le _) hm

/-- A match that is found and reaches over a place begins before it and ends behind it. -/
theorem exists_of_covers (hp : p.isVisible = true) {before rest : List Char} {m : Match}
    (hm : m ∈ p.findAll (before ++ rest)) (hstart : m.whole.start < byteLength before)
    (hstop : byteLength before < m.whole.stop) :
    ∃ b x y r, before = b ++ x ∧ rest = y ++ r ∧ x ≠ [] ∧ y ≠ [] ∧
      p.matchAt? (.behind b (x ++ rest)) = some m ∧ p.Fits b.getLast? (x ++ y) r := by
  obtain ⟨b, text, htext, hmatch, hb⟩ := exists_of_mem_findAll hp hm
  obtain ⟨stretch, r, hrest, -, hfits, hwhole, -⟩ := exists_of_matchAt? hp hmatch
  rw [Cursor.behind_rest] at hrest
  have hends : m.whole.stop = byteLength b + byteLength stretch := by rw [hwhole]; rfl
  rw [hb] at hstart
  rw [hends] at hstop
  -- The place stands behind the start of the match, and then before its end.
  rcases List.append_eq_append_iff.mp htext with ⟨x, hx, -⟩ | ⟨x, hx, htext'⟩
  · rw [hx, byteLength_append] at hstart
    omega
  subst hx
  rw [byteLength_append] at hstart hstop
  rw [hrest] at htext'
  rcases List.append_eq_append_iff.mp htext' with ⟨y, hy, -⟩ | ⟨y, hy, hrest'⟩
  · rw [hy, byteLength_append] at hstop
    omega
  subst hy
  rw [byteLength_append] at hstop
  refine ⟨b, x, y, r, rfl, hrest', ?_, ?_, ?_, hfits⟩
  · rintro rfl
    exact absurd hstart (Nat.lt_irrefl _)
  · rintro rfl
    exact absurd hstop (Nat.lt_irrefl _)
  · rw [hrest', ← List.append_assoc, ← hrest]
    exact hmatch

theorem exists_matchAt?_of_fits (hp : p.isVisible = true) {before stretch rest : List Char}
    (hfits : p.Fits before.getLast? stretch rest) :
    ∃ m, p.matchAt? (.behind before (stretch ++ rest)) = some m ∧
      m.whole.start = byteLength before := by
  have hsome : (p.matchAt? (.behind before (stretch ++ rest))).isSome :=
    isSome_matchAt?_iff.mpr ⟨stretch, rest, rfl, hfits⟩
  obtain ⟨m, hm⟩ := Option.isSome_iff_exists.mp hsome
  obtain ⟨_, _, -, -, -, hwhole, -⟩ := exists_of_matchAt? hp hm
  exact ⟨m, hm, by rw [hwhole]; rfl⟩

/-- A stretch that the pattern fits is found if the pattern fits none that reaches over its
    start. -/
theorem exists_mem_findAll (hp : p.isVisible = true) {before stretch rest : List Char}
    (hfits : p.Fits before.getLast? stretch rest)
    (hapart : ∀ b x y r, before = b ++ x → stretch ++ rest = y ++ r → x ≠ [] → y ≠ [] →
      ¬ p.Fits b.getLast? (x ++ y) r) :
    ∃ m ∈ p.findAll (before ++ (stretch ++ rest)),
      p.matchAt? (.behind before (stretch ++ rest)) = some m ∧
        m.whole.start = byteLength before := by
  obtain ⟨m, hm, hstart⟩ := exists_matchAt?_of_fits hp hfits
  refine ⟨m, (mem_findAll_iff hp hm).mpr fun m' hm' hlt => ?_, hm, hstart⟩
  refine Nat.le_of_not_lt fun hstop => ?_
  obtain ⟨b, x, y, r, hbefore, hrest, hx, hy, -, hover⟩ := exists_of_covers hp hm' hlt hstop
  exact hapart b x y r hbefore hrest hx hy hover

/-- Where a stretch that the pattern fits begins, a match begins that is found, or one reaches over
    the place. -/
theorem exists_found_over (hp : p.isVisible = true) {before stretch rest : List Char}
    (hfits : p.Fits before.getLast? stretch rest) :
    ∃ b x, before = b ++ x ∧ ∃ m ∈ p.findAll (before ++ (stretch ++ rest)),
      p.matchAt? (.behind b (x ++ (stretch ++ rest))) = some m ∧
        byteLength before < m.whole.stop := by
  obtain ⟨m, hm, hstart⟩ := exists_matchAt?_of_fits hp hfits
  by_cases hmem : m ∈ p.findAll (before ++ (stretch ++ rest))
  · obtain ⟨_, _, -, hne, -, hwhole, -⟩ := exists_of_matchAt? hp hm
    refine ⟨before, [], (List.append_nil _).symm, m, hmem, hm, ?_⟩
    rw [hwhole]
    exact Nat.lt_add_of_pos_right (byteLength_pos hne)
  · have hcovered : ∃ m' ∈ p.findAll (before ++ (stretch ++ rest)),
        m'.whole.start < byteLength before ∧ byteLength before < m'.whole.stop := by
      simpa [mem_findAll_iff hp hm] using hmem
    obtain ⟨m', hm', hlt, hstop⟩ := hcovered
    obtain ⟨b, x, y, r, hbefore, -, -, -, hmatch, -⟩ := exists_of_covers hp hm' hlt hstop
    exact ⟨b, x, hbefore, m', hm', hmatch, hstop⟩

/-- If each match ends with the first `close`, then a stretch that the pattern fits is the end of a
    match that is found. -/
theorem exists_found_with_end (hp : p.isVisible = true) {close : Char}
    (hclose : ∀ {previous stretch rest}, p.Fits previous stretch rest →
      ∃ inner, close ∉ inner ∧ stretch = inner ++ [close])
    {before stretch rest : List Char} (hfits : p.Fits before.getLast? stretch rest) :
    ∃ b x, before = b ++ x ∧ ∃ m ∈ p.findAll (before ++ (stretch ++ rest)),
      p.matchAt? (.behind b (x ++ (stretch ++ rest))) = some m ∧ m.whole.text = x ++ stretch := by
  obtain ⟨b, x, hbefore, m, hm, hmatch, hstop⟩ := exists_found_over hp hfits
  refine ⟨b, x, hbefore, m, hm, hmatch, ?_⟩
  obtain ⟨found, later, hrest, -, hfound, hwhole, -⟩ := exists_of_matchAt? hp hmatch
  obtain ⟨inner, hinner, rfl⟩ := hclose hfits
  obtain ⟨inner', hinner', rfl⟩ := hclose hfound
  rw [Cursor.behind_rest] at hrest
  -- The match that is found goes on behind `x`, so that `x` does not hold the last character.
  have hx : close ∉ x := by
    have hlt : byteLength x < byteLength (inner' ++ [close]) := by
      rw [hbefore, byteLength_append, hwhole] at hstop
      exact Nat.lt_of_add_lt_add_left hstop
    rcases List.append_eq_append_iff.mp hrest with ⟨y, hy, -⟩ | ⟨y, hy, -⟩
    · have hne : y ≠ [] := by
        rintro rfl
        rw [hy, List.append_nil] at hlt
        exact absurd hlt (Nat.lt_irrefl _)
      have hfront := congrArg List.dropLast hy
      rw [List.dropLast_concat, List.dropLast_append_of_ne_nil hne] at hfront
      rw [hfront] at hinner'
      exact fun hmem => hinner' (List.mem_append_left _ hmem)
    · rw [hy, byteLength_append] at hlt
      omega
  have hsplit : (x ++ inner) ++ close :: rest = inner' ++ close :: later := by
    simpa using hrest
  have hfront : close ∉ x ++ inner := fun hmem => (List.mem_append.mp hmem).elim hx hinner
  rw [hwhole, ← eq_of_first hfront hinner' hsplit]
  exact List.append_assoc x inner [close]

end Successive

end Pattern

end CodeAudit
