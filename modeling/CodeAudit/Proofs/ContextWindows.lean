import CodeAudit.Proofs.CataloguedIssues

/-!
# Context windows

The window around a line shows the lines from some way above to some way below it, as far as there
are any. A line number outside of the file counts as the nearest line. So the window of a file with
lines is never empty, its numbers are a stretch without gaps that has the line in it, and every
number has the text of its line.

Results:
* `isChopped_iff`: a line without the carriage returns at its end.
* `window_eq_map`: the window as a table of the lines with the numbers of a stretch.
* `isInfix_window`: a larger window has the smaller one in it.
* `window?_stretch`: all of this about a window whose numbers fit in words.
-/

namespace CodeAudit.Source

open Text

/-! ## Lines without carriage returns at their end -/

/-- Is the text the line without the carriage returns at its end? -/
def IsChopped (line text : List Char) : Prop :=
  text.getLast? ≠ some '\r' ∧ ∃ count, line = text ++ List.replicate count '\r'

theorem isChopped_chopReturns (line : List Char) : IsChopped line (chopReturns line) := by
  let returns := line.reverse.takeWhile (· = '\r')
  let rest := line.reverse.dropWhile (· = '\r')
  have hall : ∀ c ∈ returns, c = '\r' := fun c hc =>
    of_decide_eq_true (List.all_eq_true.mp List.all_takeWhile c hc)
  have hline : line = rest.reverse ++ returns.reverse := by
    rw [← List.reverse_append, List.takeWhile_append_dropWhile, List.reverse_reverse]
  refine ⟨?_, returns.length, ?_⟩
  · rw [chopReturns, List.getLast?_reverse]
    intro hhead
    have hfirst := List.head?_dropWhile_not (· = '\r') line.reverse
    rw [hhead] at hfirst
    exact absurd hfirst (by decide)
  · have hreturns : returns.reverse = List.replicate returns.length '\r' := by
      rw [List.eq_replicate_iff]
      exact ⟨List.length_reverse, fun c hc => hall c (List.mem_reverse.mp hc)⟩
    rw [← hreturns]
    exact hline

theorem eq_chopReturns_of_isChopped {line text : List Char} (h : IsChopped line text) :
    text = chopReturns line := by
  obtain ⟨hlast, count, rfl⟩ := h
  have hreturns : ∀ c ∈ List.replicate count '\r', decide (c = '\r') = true := fun c hc =>
    decide_eq_true (List.eq_of_mem_replicate hc)
  have hrest : text.reverse.dropWhile (· = '\r') = text.reverse := by
    rw [← List.head?_reverse] at hlast
    cases hreverse : text.reverse with
    | nil => rfl
    | cons c rest =>
      rw [hreverse, List.head?_cons] at hlast
      exact List.dropWhile_cons_of_neg fun hc => hlast (congrArg some (of_decide_eq_true hc))
  rw [chopReturns, List.reverse_append, List.reverse_replicate,
    List.dropWhile_append_of_pos hreturns, hrest, List.reverse_reverse]

theorem isChopped_iff {line text : List Char} : IsChopped line text ↔ text = chopReturns line := by
  constructor
  · exact eq_chopReturns_of_isChopped
  · rintro rfl
    exact isChopped_chopReturns line

/-! ## The stretch of a window -/

/-- The line of a file that is nearest to a line number. -/
def nearestLine (lines : List (List Char)) (line : Nat) : Nat :=
  min (max line 1) lines.length

/-- The number of the first line of a window. -/
def firstShown (lines : List (List Char)) (line radius : Nat) : Nat :=
  max 1 (nearestLine lines line - radius)

/-- The number of the last line of a window. -/
def lastShown (lines : List (List Char)) (line radius : Nat) : Nat :=
  min lines.length (nearestLine lines line + radius)

/-- The text that a window shows for a line of the file, by its number. -/
def textAt (lines : List (List Char)) (number : Nat) : List Char :=
  chopReturns (lines[number - 1]?.getD [])

variable {lines : List (List Char)} {line radius : Nat}

theorem nearestLine_bounds (h : lines ≠ []) (line : Nat) :
    1 ≤ nearestLine lines line ∧ nearestLine lines line ≤ lines.length := by
  have hlength := List.length_pos_iff.mpr h
  rw [nearestLine]
  omega

theorem window_nearestLine (lines : List (List Char)) (line radius : Nat) :
    window lines (nearestLine lines line) radius = window lines line radius := by
  have hnearest :
      min (max (nearestLine lines line) 1) lines.length = min (max line 1) lines.length := by
    rw [nearestLine]
    omega
  rw [window, window, hnearest]

theorem map_fst_window_eq_range' (h : lines ≠ []) (line radius : Nat) :
    (window lines line radius).map Prod.fst =
      List.range' (firstShown lines line radius)
        (lastShown lines line radius + 1 - firstShown lines line radius) := by
  obtain ⟨hfirst, hlast⟩ := nearestLine_bounds h line
  rw [← window_nearestLine, map_fst_window hfirst hlast, firstShown, lastShown, Nat.max_comm,
    Nat.min_comm]

theorem text_of_mem_window {entry : Nat × List Char} (h : entry ∈ window lines line radius) :
    entry.2 = textAt lines entry.1 := by
  unfold window at h
  split at h
  · cases h
  · obtain ⟨numbered, hnumbered, rfl⟩ := List.mem_map.mp h
    obtain ⟨hle, hline⟩ := List.mem_zipIdx_iff_le_and_getElem?_sub.mp hnumbered
    have hindex : max (min (max line 1) lines.length - radius) 1 - 1 +
        (numbered.2 - max (min (max line 1) lines.length - radius) 1) = numbered.2 - 1 := by
      omega
    rw [List.getElem?_take, List.getElem?_drop, hindex] at hline
    split at hline
    · rw [textAt, hline, Option.getD_some]
    · cases hline

/-- A window is a table of the lines with the numbers of a stretch. -/
theorem window_eq_map (h : lines ≠ []) (line radius : Nat) :
    window lines line radius =
      (List.range' (firstShown lines line radius)
        (lastShown lines line radius + 1 - firstShown lines line radius)).map fun number =>
          (number, textAt lines number) := by
  rw [← map_fst_window_eq_range' h, List.map_map]
  refine (List.map_id _).symm.trans (List.map_congr_left fun entry hentry => ?_)
  exact Prod.ext rfl (text_of_mem_window hentry)

theorem firstShown_le_lastShown (h : lines ≠ []) (line radius : Nat) :
    firstShown lines line radius ≤ nearestLine lines line ∧
      nearestLine lines line ≤ lastShown lines line radius := by
  obtain ⟨hfirst, hlast⟩ := nearestLine_bounds h line
  rw [firstShown, lastShown]
  omega

theorem nearestLine_mem_window (h : lines ≠ []) (line radius : Nat) :
    nearestLine lines line ∈ (window lines line radius).map Prod.fst := by
  have hends := firstShown_le_lastShown h line radius
  rw [map_fst_window_eq_range' h, List.mem_range'_1]
  omega

theorem window_eq_nil_iff : window lines line radius = [] ↔ lines = [] := by
  constructor
  · intro h
    cases lines with
    | nil => rfl
    | cons text rest =>
      have hnearest := nearestLine_mem_window (List.cons_ne_nil text rest) line radius
      rw [h] at hnearest
      cases hnearest
  · rintro rfl
    rfl

theorem isInfix_range'_of_le {first count first' count' : Nat} (hfirst : first' ≤ first)
    (hlast : first + count ≤ first' + count') :
    List.range' first count <:+: List.range' first' count' := by
  refine ⟨List.range' first' (first - first'),
    List.range' (first + count) (first' + count' - (first + count)), ?_⟩
  have hleft := List.range'_append_1 (s := first') (m := first - first') (n := count)
  rw [Nat.add_sub_cancel' hfirst] at hleft
  have hright := List.range'_append_1 (s := first') (m := first - first' + count)
    (n := first' + count' - (first + count))
  rw [show first' + (first - first' + count) = first + count by omega] at hright
  rw [hleft, hright]
  congr 1
  omega

/-- A larger window has more lines at both ends. -/
theorem isInfix_window (lines : List (List Char)) (line : Nat) {radius larger : Nat}
    (h : radius ≤ larger) : window lines line radius <:+: window lines line larger := by
  by_cases hlines : lines = []
  · rw [hlines]
    exact List.infix_refl _
  · have hsmall := firstShown_le_lastShown hlines line radius
    rw [window_eq_map hlines, window_eq_map hlines]
    refine List.IsInfix.map _ (isInfix_range'_of_le ?_ ?_)
    · rw [firstShown, firstShown]
      omega
    · rw [firstShown, lastShown] at *
      rw [firstShown, lastShown]
      omega

/-! ## Windows in words -/

theorem window?_of_fits (h : nearestLine lines line + radius < Word.bound64) :
    window? lines line radius = some (window lines line radius) := by
  have hfit : Word.fit? Word.bound64 (min (max line 1) lines.length + radius) =
      some (nearestLine lines line + radius) := if_pos h
  cases lines with
  | nil => rfl
  | cons text rest =>
    rw [window?, hfit]
    rfl

/-- What stands in a window. -/
theorem mem_window_iff (h : lines ≠ []) {number : Nat} {text : List Char} :
    (number, text) ∈ window lines line radius ↔
      (firstShown lines line radius ≤ number ∧ number ≤ lastShown lines line radius) ∧
        ∃ full, lines[number - 1]? = some full ∧ IsChopped full text := by
  have hends := firstShown_le_lastShown h line radius
  rw [window_eq_map h, List.mem_map]
  simp only [Prod.mk.injEq, List.mem_range'_1, isChopped_iff]
  constructor
  · rintro ⟨number, hrange, rfl, rfl⟩
    have hone : 1 ≤ firstShown lines line radius := Nat.le_max_left _ _
    have hlength : lastShown lines line radius ≤ lines.length := Nat.min_le_left _ _
    refine ⟨by omega, ?_⟩
    have hfull := List.getElem?_eq_getElem (l := lines) (show number - 1 < lines.length by omega)
    exact ⟨_, hfull, by rw [textAt, hfull, Option.getD_some]⟩
  · rintro ⟨hrange, full, hfull, rfl⟩
    exact ⟨number, by omega, rfl, by rw [textAt, hfull, Option.getD_some]⟩

/-- The window around a line, where its last number fits in a word before it is clamped. It is empty
    exactly if the file is. Otherwise its numbers are all those between two ends, at most the radius
    away from the nearest line and inside the file, this line is among them, and every number has
    the text of its line without carriage returns at its end. A larger radius only adds lines. -/
theorem window?_stretch (lines : List (List Char)) (line radius : Nat)
    (h : nearestLine lines line + radius < Word.bound64) :
    ∃ shown, window? lines line radius = some shown ∧
      (shown = [] ↔ lines = []) ∧
      (lines ≠ [] →
        shown.map Prod.fst =
          List.range' (firstShown lines line radius)
            (lastShown lines line radius + 1 - firstShown lines line radius) ∧
        nearestLine lines line ∈ shown.map Prod.fst ∧
        ∀ number text, (number, text) ∈ shown ↔
          (firstShown lines line radius ≤ number ∧ number ≤ lastShown lines line radius) ∧
            ∃ full, lines[number - 1]? = some full ∧ IsChopped full text) ∧
      ∀ larger, radius ≤ larger → nearestLine lines line + larger < Word.bound64 →
        ∃ more, window? lines line larger = some more ∧ shown <:+: more := by
  refine ⟨window lines line radius, window?_of_fits h, ?empty,
    fun hlines => ⟨?numbers, ?nearest, ?texts⟩, ?larger⟩
  case empty => exact window_eq_nil_iff
  case numbers => exact map_fst_window_eq_range' hlines line radius
  case nearest => exact nearestLine_mem_window hlines line radius
  case texts => exact fun number text => mem_window_iff hlines
  case larger =>
    intro larger hle hfits
    exact ⟨window lines line larger, window?_of_fits hfits, isInfix_window lines line hle⟩

/-- Far below the end of a file of four lines, two of which end in carriage returns. -/
theorem window?_stretch_below_end :
    let lines := ["a", "b\r", "c\r\rd", "\r\r"].map String.toList
    nearestLine lines 99 + 2 < Word.bound64 ∧
    window? lines 99 2 = some [(2, ['b']), (3, ['c', '\r', '\r', 'd']), (4, [])] ∧
    ∃ shown, window? lines 99 2 = some shown ∧ nearestLine lines 99 ∈ shown.map Prod.fst ∧
      nearestLine lines 99 = 4 := by
  intro lines
  have hfits : nearestLine lines 99 + 2 < Word.bound64 := by decide
  obtain ⟨shown, hshown, -, hstretch, -⟩ := window?_stretch lines 99 2 hfits
  obtain ⟨-, hnearest, -⟩ := hstretch (by decide)
  exact ⟨hfits, by decide, shown, hshown, hnearest, by decide⟩

end CodeAudit.Source
