import CodeAudit.Result.Score
import Mathlib.Algebra.Order.Field.Basic
import Mathlib.Data.Rat.Floor
import Mathlib.Tactic.Linarith
import Mathlib.Tactic.NormNum

/-!
# Scores without rounding errors

The score of a scan is given by five formulas, each for a range of issues per file. Every formula
falls along a line and stops at a bound. Each begins with the score at which the one before ends, so
that together they fall without a jump: this is what makes the score fall with the number of issues
and rise with the number of files, also from one formula to the next and after the score is made
whole.

Results:
* `valueAt_antitone`: formulas that meet and fall make a function that falls.
* `ofRatio_id`: the score before it is made whole, as such a function.
* `exact_eq`: the exact score by the number of issues per file, no issues included.
* `exact_piecewise`: bounds, order, ratios and joints of the exact score.
-/

namespace CodeAudit.Score

/-! ## Pieces -/

/-- A line that falls from a score at the start of a range of numbers of issues per file, and the
    score that it stops at. -/
structure Piece where
  start : Rat
  top : Rat
  slope : Rat
  least : Rat

namespace Piece

/-- The score by one piece. -/
def value (p : Piece) (ratio : Rat) : Rat :=
  atLeast p.least (p.top - (ratio - p.start) * p.slope)

/-- A piece that is followed by one which starts later, with the score that the first has there. -/
def Meets (p q : Piece) : Prop :=
  p.start ≤ q.start ∧ p.value q.start = q.value q.start

instance (p q : Piece) : Decidable (p.Meets q) :=
  inferInstanceAs (Decidable (_ ∧ _))

end Piece

/-- The score by pieces that follow one another. Each counts up to the start of the next one, which
    is still its own. -/
def valueAt : List Piece → Rat → Rat
  | [], _ => 0
  | [p], ratio => p.value ratio
  | p :: q :: rest, ratio =>
    if ratio ≤ q.start then p.value ratio else valueAt (q :: rest) ratio

/-- The five pieces of the score. -/
def pieces : List Piece :=
  [⟨0, 100, 20, 90⟩, ⟨1 / 2, 90, 20, 80⟩, ⟨1, 80, 20, 60⟩, ⟨2, 60, 10, 30⟩, ⟨5, 30, 5, 10⟩]

theorem atLeast_eq_max (bound x : Rat) : atLeast bound x = max bound x := by
  unfold atLeast
  split
  · rename_i h
    exact (max_eq_left h.le).symm
  · rename_i h
    exact (max_eq_right (not_lt.mp h)).symm

theorem Piece.least_le_value (p : Piece) (ratio : Rat) : p.least ≤ p.value ratio := by
  rw [value, atLeast_eq_max]
  exact le_max_left _ _

theorem Piece.value_antitone {p : Piece} (h : 0 ≤ p.slope) : Antitone p.value := by
  intro a b hab
  rw [value, value, atLeast_eq_max, atLeast_eq_max]
  have hfall : (a - p.start) * p.slope ≤ (b - p.start) * p.slope :=
    mul_le_mul_of_nonneg_right (sub_le_sub_right hab _) h
  exact max_le_max le_rfl (sub_le_sub_left hfall _)

/-- At the start of the first piece the later ones do not matter. -/
theorem valueAt_start {p : Piece} {rest : List Piece} (h : (p :: rest).IsChain Piece.Meets) :
    valueAt (p :: rest) p.start = p.value p.start := by
  cases rest with
  | nil => rfl
  | cons q rest =>
    have hmeets : p.Meets q := (List.isChain_cons_cons.mp h).1
    rw [valueAt, if_pos hmeets.1]

/-- Pieces that meet and fall make a function that falls. -/
theorem valueAt_antitone {list : List Piece} (hmeets : list.IsChain Piece.Meets)
    (hslopes : ∀ p ∈ list, 0 ≤ p.slope) : Antitone (valueAt list) := by
  induction list with
  | nil =>
    intro a b _
    exact le_rfl
  | cons p rest ih =>
    obtain ⟨hp, hrest⟩ := List.forall_mem_cons.mp hslopes
    have hfalls : Antitone p.value := p.value_antitone hp
    cases rest with
    | nil => exact hfalls
    | cons q rest =>
      obtain ⟨hmeet, hchain⟩ := List.isChain_cons_cons.mp hmeets
      have hlater : Antitone (valueAt (q :: rest)) := ih hchain hrest
      intro a b hab
      rw [valueAt, valueAt]
      by_cases hb : b ≤ q.start
      · rw [if_pos hb, if_pos (hab.trans hb)]
        exact hfalls hab
      · rw [if_neg hb]
        by_cases ha : a ≤ q.start
        · -- from the one piece to the next ones the value goes by where they meet
          rw [if_pos ha]
          calc valueAt (q :: rest) b
              ≤ valueAt (q :: rest) q.start := hlater (not_le.mp hb).le
            _ = q.value q.start := valueAt_start hchain
            _ = p.value q.start := hmeet.2.symm
            _ ≤ p.value a := hfalls ha
        · rw [if_neg ha]
          exact hlater hab

theorem le_valueAt {bound : Rat} {list : List Piece} (hne : list ≠ [])
    (h : ∀ p ∈ list, bound ≤ p.least) (ratio : Rat) : bound ≤ valueAt list ratio := by
  induction list with
  | nil => exact absurd rfl hne
  | cons p rest ih =>
    obtain ⟨hp, hrest⟩ := List.forall_mem_cons.mp h
    have hvalue : bound ≤ p.value ratio := hp.trans (p.least_le_value ratio)
    cases rest with
    | nil => exact hvalue
    | cons q rest =>
      rw [valueAt]
      split
      · exact hvalue
      · exact ih (List.cons_ne_nil q rest) hrest

/-! ## The pieces of the score -/

theorem isChain_pieces : pieces.IsChain Piece.Meets := by
  norm_num [pieces, Piece.Meets, Piece.value, atLeast]

theorem antitone_valueAt_pieces : Antitone (valueAt pieces) :=
  valueAt_antitone isChain_pieces (by norm_num [pieces])

theorem ofRatio_id (ratio : Rat) : ofRatio id ratio = valueAt pieces ratio := by
  simp only [ofRatio, valueAt, pieces, Piece.value, id, sub_zero]

theorem valueAt_zero : valueAt pieces 0 = 100 := by
  norm_num [valueAt, pieces, Piece.value, atLeast]

theorem ten_le_valueAt (ratio : Rat) : 10 ≤ valueAt pieces ratio :=
  le_valueAt (List.cons_ne_nil _ _) (by norm_num [pieces]) ratio

theorem valueAt_le_hundred {ratio : Rat} (h : 0 ≤ ratio) : valueAt pieces ratio ≤ 100 :=
  valueAt_zero ▸ antitone_valueAt_pieces h

/-! ## Whole scores -/

/-- The nearest whole number, the one away from zero for a tie. -/
def roundAway (x : Rat) : Int :=
  if 0 ≤ x then ⌊x + 1 / 2⌋ else ⌈x - 1 / 2⌉

theorem nearest_mono {x y : Rat} (h : x ≤ y) : nearest x ≤ nearest y := by
  have hfloor : ⌊x + 1 / 2⌋ ≤ ⌊y + 1 / 2⌋ := Int.floor_le_floor (by linarith)
  exact Int.toNat_le_toNat hfloor

theorem natCast_nearest {x : Rat} (h : 0 ≤ x) : (nearest x : Int) = roundAway x := by
  have hfloor : 0 ≤ ⌊x + 1 / 2⌋ := Int.floor_nonneg.mpr (by linarith)
  rw [roundAway, if_pos h]
  exact Int.toNat_of_nonneg hfloor

theorem nearest_natCast (n : Nat) : nearest n = n := by
  have hfloor : ⌊(n : Rat) + 1 / 2⌋ = n := by
    rw [Int.floor_natCast_add]
    norm_num
  exact congrArg Int.toNat hfloor

theorem nearest_ten : nearest 10 = 10 := by
  exact_mod_cast nearest_natCast 10

theorem nearest_hundred : nearest 100 = 100 := by
  exact_mod_cast nearest_natCast 100

/-! ## The exact score -/

theorem ratio_nonneg (issues files : Nat) : 0 ≤ (issues : Rat) / files :=
  div_nonneg (Nat.cast_nonneg issues) (Nat.cast_nonneg files)

/-- The exact score is that of the pieces. No issues need not be treated apart, and no score has to
    be cut down to a hundred. -/
theorem exact_eq {files : Nat} (hfiles : 1 ≤ files) (issues : Nat) :
    exact issues files = nearest (valueAt pieces ((issues : Rat) / files)) := by
  have hle : nearest (valueAt pieces ((issues : Rat) / files)) ≤ 100 :=
    nearest_hundred ▸ nearest_mono (valueAt_le_hundred (ratio_nonneg issues files))
  have hfiles' : files ≠ 0 := by omega
  by_cases hissues : issues = 0
  · rw [exact, compute, if_pos (.inr hissues), hissues, Nat.cast_zero, zero_div, valueAt_zero,
      nearest_hundred]
  · rw [exact, compute, if_neg (by simp [hfiles', hissues]), ofRatio_id]
    exact Nat.min_eq_left hle

/-- The exact score falls with the number of issues per file. -/
theorem exact_le_of_ratio_le {issues files issues' files' : Nat} (hfiles : 1 ≤ files)
    (hfiles' : 1 ≤ files') (h : (issues : Rat) / files ≤ (issues' : Rat) / files') :
    exact issues' files' ≤ exact issues files := by
  rw [exact_eq hfiles, exact_eq hfiles']
  exact nearest_mono (antitone_valueAt_pieces h)

theorem exact_eq_of_ratio_eq {issues files issues' files' : Nat} (hfiles : 1 ≤ files)
    (hfiles' : 1 ≤ files') (h : issues * files' = issues' * files) :
    exact issues files = exact issues' files' := by
  have hpos : (files : Rat) ≠ 0 := Nat.cast_ne_zero.mpr (by omega)
  have hpos' : (files' : Rat) ≠ 0 := Nat.cast_ne_zero.mpr (by omega)
  have hratio : (issues : Rat) / files = (issues' : Rat) / files' := by
    rw [div_eq_div_iff hpos hpos']
    exact_mod_cast h
  rw [exact_eq hfiles, exact_eq hfiles', hratio]

/-- The exact score is the value of five pieces, made whole. It lies between ten and a hundred, does
    not rise with the number of issues and does not fall with the number of files, and depends on
    their ratio only. The pieces start at 0, 1/2, 1, 2 and 5 issues per file. At 0 the first one has
    the score of no issues, and each of the others begins with the score of the one before it. -/
theorem exact_piecewise (files : Nat) (hfiles : 1 ≤ files) :
    (∀ ratio, ofRatio id ratio = valueAt pieces ratio) ∧
    (∀ issues : Nat,
      (exact issues files : Int) = roundAway (valueAt pieces ((issues : Rat) / files))) ∧
    (∀ issues, 10 ≤ exact issues files ∧ exact issues files ≤ 100) ∧
    (∀ issues more, issues ≤ more → exact more files ≤ exact issues files) ∧
    (∀ issues more, files ≤ more → exact issues files ≤ exact issues more) ∧
    (∀ issues factor, 0 < factor →
      exact (factor * issues) (factor * files) = exact issues files) ∧
    (∀ issues issues' files', 1 ≤ files' → issues * files' = issues' * files →
      exact issues files = exact issues' files') ∧
    pieces.map Piece.start = [0, 1 / 2, 1, 2, 5] ∧
    (∀ first ∈ pieces.head?, nearest (first.value 0) = exact 0 files) ∧
    ∀ pair ∈ pieces.zip pieces.tail, pair.1.value pair.2.start = pair.2.value pair.2.start := by
  refine ⟨ofRatio_id, ?_, ?_, ?_, ?_, ?_, ?_, by norm_num [pieces], ?_, ?_⟩
  · intro issues
    rw [exact_eq hfiles]
    have hten := ten_le_valueAt ((issues : Rat) / files)
    exact natCast_nearest (by linarith)
  · intro issues
    have hbounds := ten_le_valueAt ((issues : Rat) / files)
    have hbounds' := valueAt_le_hundred (ratio_nonneg issues files)
    rw [exact_eq hfiles]
    exact ⟨nearest_ten ▸ nearest_mono hbounds, nearest_hundred ▸ nearest_mono hbounds'⟩
  · intro issues more hmore
    refine exact_le_of_ratio_le hfiles hfiles ?_
    gcongr
  · intro issues more hmore
    refine exact_le_of_ratio_le (hfiles.trans hmore) hfiles ?_
    have hpos : (0 : Rat) < files := Nat.cast_pos.mpr hfiles
    gcongr
  · intro issues factor hfactor
    refine exact_eq_of_ratio_eq (Nat.mul_pos hfactor hfiles) hfiles ?_
    ac_rfl
  · intro issues issues' files' hfiles' h
    exact exact_eq_of_ratio_eq hfiles hfiles' h
  · intro first hfirst
    cases hfirst
    rw [exact_eq hfiles, Nat.cast_zero, zero_div, valueAt_zero]
    norm_num [Piece.value, atLeast]
  · norm_num [pieces, Piece.value, atLeast]

/-- Three issues in two files: half way down the third piece, and the same for six in four. -/
theorem exact_piecewise_two :
    1 ≤ 2 ∧ exact 3 2 = 70 ∧ exact (2 * 3) (2 * 2) = exact 3 2 ∧ exact 4 2 ≤ exact 3 2 ∧
      exact 3 2 ≤ exact 3 5 ∧ exact 6 4 = exact 3 2 := by
  obtain ⟨-, -, -, hissues, hfiles, hfactor, hratio, -⟩ := exact_piecewise 2 (by decide)
  exact ⟨by decide, by decide +kernel, hfactor 3 2 (by decide), hissues 3 4 (by decide),
    hfiles 3 5 (by decide), (hratio 3 6 4 (by decide) (by decide)).symm⟩

end CodeAudit.Score
