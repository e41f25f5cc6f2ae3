import CodeAudit.Proofs.Progress
import CodeAudit.Proofs.ProgressCounts

/-!
# Bands of progress

A count out of a total is placed in a slice of the progress by a product, a division and a sum. The
product is taken in words of 64 bits and may not fit. If it fits, then so does the sum, in 8 bits:
the division brings the offset back into the slice. Percentages keep the order of the counts, and
meet both ends of the slice. Hence the slices of the roots of a code base, whose ends are rounded
each on its own, follow each other without a gap and without an overlap.

Results:
* `band?_eq`: the computation in words, and when it gives a percentage.
* `Tiles.covers_iff`: slices that follow each other cover what lies between their ends.
* `traces_scanRoots_slices`: the events of each root of a code base lie in its slice.
* `slices_fit_together`: all of this, for every slice and every list of counts.
-/

namespace CodeAudit

open Scan Session

/-! ## Percentages in words -/

variable {start stop done total : Nat}

theorem Word.fit?_of_lt {bound value : Nat} (h : value < bound) : fit? bound value = some value :=
  if_pos h

/-- A slice whose ends are in the wrong order has no length. -/
theorem band_max (htotal : 0 < total) (start stop done : Nat) :
    band start (max start stop) done total = band start stop done total := by
  have hspan : max start stop - start = stop - start := by omega
  rw [band, band, if_neg htotal.ne', if_neg htotal.ne', hspan]

theorem le_band_of_pos (htotal : 0 < total) (start stop done : Nat) :
    start ≤ band start stop done total := by
  rw [← band_max htotal]
  exact le_band (le_max_left _ _) done total

theorem band_le_max (htotal : 0 < total) (start stop done : Nat) :
    band start stop done total ≤ max start stop := by
  rw [← band_max htotal]
  exact band_le (le_max_left _ _) done total

theorem band_zero (htotal : 0 < total) (start stop : Nat) : band start stop 0 total = start := by
  rw [band, if_neg htotal.ne', Nat.zero_min, Nat.mul_zero, Nat.zero_div, Nat.add_zero]

theorem band_of_le (htotal : 0 < total) (hdone : total ≤ done) (start stop : Nat) :
    band start stop done total = max start stop := by
  rw [band, if_neg htotal.ne', min_eq_right hdone, Nat.mul_div_cancel _ htotal]
  omega

/-- The only step that may not fit is the product. -/
theorem band?_eq (hstart : start < Word.bound8) (hstop : stop < Word.bound8) (htotal : 0 < total)
    (done : Nat) :
    band? start stop done total =
      if (stop - start) * min done total < Word.bound64 then some (band start stop done total)
      else none := by
  have hband : band start stop done total =
      start + (stop - start) * min done total / total := if_neg htotal.ne'
  have hsum : band start stop done total < Word.bound8 :=
    (band_le_max htotal start stop done).trans_lt (max_lt hstart hstop)
  have hoffset : (stop - start) * min done total / total < Word.bound8 := by omega
  rw [band?, if_neg htotal.ne']
  by_cases hproduct : (stop - start) * min done total < Word.bound64
  · rw [if_pos hproduct, Word.fit?_of_lt hproduct, Option.bind_eq_bind, Option.bind_some,
      Word.fit?_of_lt hoffset, Option.getD_some]
    show Word.fit? Word.bound8 (start + (stop - start) * min done total / total) = _
    rw [← hband, Word.fit?_of_lt hsum]
  · rw [if_neg hproduct, Word.fit?, if_neg hproduct]
    rfl

theorem band?_of_ne_none (hstart : start < Word.bound8) (hstop : stop < Word.bound8)
    (htotal : 0 < total) (h : band? start stop done total ≠ none) :
    band? start stop done total = some (band start stop done total) := by
  rw [band?_eq hstart hstop htotal] at h ⊢
  split at h
  · rename_i hfits
    exact if_pos hfits
  · exact absurd rfl h

/-! ## Slices that follow each other -/

/-- Do the slices follow each other from a place to another, each beginning where the one before it
    ends? -/
inductive Tiles : Nat → Nat → List (Nat × Nat) → Prop where
  | nil (place : Nat) : Tiles place place []
  | cons {start middle stop : Nat} {rest : List (Nat × Nat)} (hle : start ≤ middle)
      (hrest : Tiles middle stop rest) : Tiles start stop ((start, middle) :: rest)

namespace Tiles

variable {slices : List (Nat × Nat)}

theorem le (h : Tiles start stop slices) : start ≤ stop := by
  induction h with
  | nil place => exact le_rfl
  | cons hle _ ih => exact hle.trans ih

theorem of_monotone {f : Nat → Nat} (hf : Monotone f) (count : Nat) :
    Tiles (f 0) (f count) ((List.range count).map fun i => (f i, f (i + 1))) := by
  induction count generalizing f with
  | zero => exact .nil _
  | succ count ih =>
    rw [List.range_succ_eq_map, List.map_cons, List.map_map]
    have hrest := ih (f := fun i => f (i + 1)) fun _ _ hle => hf (Nat.add_le_add_right hle 1)
    exact .cons (hf (Nat.zero_le 1)) hrest

/-- Slices that follow each other cover what lies between their ends, and nothing else. -/
theorem covers_iff (h : Tiles start stop slices) (hne : slices ≠ []) (place : Nat) :
    (start ≤ place ∧ place ≤ stop) ↔ ∃ slice ∈ slices, slice.1 ≤ place ∧ place ≤ slice.2 := by
  induction h with
  | nil => exact absurd rfl hne
  | @cons start middle stop rest hle hrest ih =>
    have hstop := hrest.le
    rw [List.exists_mem_cons_iff]
    by_cases hempty : rest = []
    · subst hempty
      cases hrest
      simp
    · rw [← ih hempty]
      omega

end Tiles

/-! ## Slices of counts -/

/-- The slices of parts with the given numbers of files out of a total. Each begins where the files
    before it end. -/
def slices (start stop total : Nat) (counts : List Nat) : List (Nat × Nat) :=
  (List.range counts.length).map fun i =>
    (band start stop (totalCount (counts.take i)) total,
      band start stop (totalCount (counts.take (i + 1))) total)

theorem totalCount_concat (counts : List Nat) (count : Nat) :
    totalCount (counts ++ [count]) = totalCount counts + count :=
  List.sum_append.trans (congrArg _ List.sum_singleton)

theorem totalCount_take_mono (counts : List Nat) : Monotone fun i => totalCount (counts.take i) :=
  List.monotone_sum_take counts

theorem slices_concat (start stop total : Nat) (counts : List Nat) (count : Nat) :
    slices start stop total (counts ++ [count]) =
      slices start stop total counts ++
        [(band start stop (totalCount counts) total,
          band start stop (totalCount counts + count) total)] := by
  have hearlier : ∀ i ≤ counts.length, (counts ++ [count]).take i = counts.take i := fun i hi =>
    List.take_append_of_le_length hi
  have hall : (counts ++ [count]).take (counts.length + 1) = counts ++ [count] :=
    List.take_of_length_le List.length_append.le
  rw [slices, List.length_append, List.length_singleton, List.range_succ, List.map_append,
    List.map_singleton, hearlier _ le_rfl, hall, List.take_length, totalCount_concat, slices]
  congr 1
  refine List.map_congr_left fun i hi => ?_
  have hlt := List.mem_range.mp hi
  rw [hearlier i hlt.le, hearlier (i + 1) hlt]

theorem slices_ne_nil (start stop : Nat) {counts : List Nat} (htotal : 0 < totalCount counts) :
    slices start stop (totalCount counts) counts ≠ [] := by
  cases counts with
  | nil => exact absurd htotal (lt_irrefl 0)
  | cons count rest => simp [slices]

theorem tiles_slices {counts : List Nat} (hle : start ≤ stop) (htotal : 0 < totalCount counts) :
    Tiles start stop (slices start stop (totalCount counts) counts) := by
  have hmono : Monotone fun i =>
      band start stop (totalCount (counts.take i)) (totalCount counts) := fun _ _ h =>
    band_mono start stop (totalCount_take_mono counts h) _
  have htiles := Tiles.of_monotone hmono counts.length
  rw [List.take_length, List.take_zero, band_of_le htotal le_rfl, max_eq_right hle] at htiles
  rwa [show totalCount [] = 0 from rfl, band_zero htotal] at htiles

/-! ## Slices of the roots of a code base -/

section Codebase

variable {s : Session} {categories : List Category} {filter : FileFilter}

/-- Do events span a slice? The first is at its start, the last at its end, and all are in it. -/
structure Spans (slice : Nat × Nat) (events : List ProgressEvent) : Prop where
  first : events.head?.map ProgressEvent.percentage = some slice.1
  last : events.getLast?.map ProgressEvent.percentage = some slice.2
  within : ∀ e ∈ events, slice.1 ≤ e.percentage ∧ e.percentage ≤ slice.2

/-- Events that rise are between the stages from which and to which they do. -/
theorem Rises.traces {α : Type} {scan : Scan α} {low : Stage} {high : α → Stage}
    (h : Rises scan low high) :
    Traces scan fun a added => ∀ e ∈ added, low.1 ≤ e.percentage ∧ e.percentage ≤ (high a).1 := by
  intro log a log' hrun
  obtain ⟨added, hadded, -, hok⟩ := h log
  rw [hrun] at hadded hok
  obtain ⟨-, -, hclimbs⟩ := hok a rfl
  refine ⟨added.reverse, ?_, fun e he => ?_⟩
  · rw [ScanLog.events, ScanLog.events, hadded, List.reverse_append]
  · have hmem := List.mem_reverse.mp he
    exact ⟨(Prod.le_def.mp (hclimbs.low_le e hmem)).1, (Prod.le_def.mp (hclimbs.le_high e hmem)).1⟩

theorem Traces.imp {α : Type} {scan : Scan α} {P R : α → List ProgressEvent → Prop}
    (h : Traces scan P) (himp : ∀ a added, P a added → R a added) : Traces scan R := by
  intro log a log' hrun
  obtain ⟨added, hadded, hP⟩ := h log a log' hrun
  exact ⟨added, hadded, himp a added hP⟩

theorem Traces.and {α : Type} {scan : Scan α} {P R : α → List ProgressEvent → Prop}
    (hP : Traces scan P) (hR : Traces scan R) :
    Traces scan fun a added => P a added ∧ R a added := by
  intro log a log' hrun
  obtain ⟨added, hadded, hPa⟩ := hP log a log' hrun
  obtain ⟨added', hadded', hRa⟩ := hR log a log' hrun
  rw [hadded, List.append_cancel_left_eq] at hadded'
  exact ⟨added, hadded, hPa, hadded' ▸ hRa⟩

/-- The first event of the scan of a directory says that it begins. -/
theorem traces_scanTree_first {place : ProgressEvent → ProgressEvent} (hplace : KeepsCounts place)
    (dir : String) :
    Traces (s.scanTree categories filter dir place) fun _ added =>
      added.head? = some (place (.make .discovering 0 "Discovering files")) := by
  rw [scanTree]
  refine .bind_check (.bind_report (.bind_lift fun files _ => .bind_report ?_))
  exact .bind (traces_analyzeAll hplace files) fun _ _ _ => .pure rfl

theorem sliceOf_bounds (place roots done count total : Nat) :
    (sliceOf place roots done count total).1 ≤ (sliceOf place roots done count total).2 ∧
      (sliceOf place roots done count total).2 ≤ 100 := by
  rw [sliceOf_eq]
  exact ⟨sliceStart_mono _ _ (Nat.le_add_right _ _) (Nat.le_add_right _ _),
    (sliceStart_le_scanEnd _ _ _ _).trans (by decide)⟩

/-- The events of a root span the slice that the root is given. -/
theorem traces_scanRoot_spans (roots total : Nat) (merged : Merged) (root : String × Nat) :
    Traces (s.scanRoot categories filter roots total merged root) fun merged' added =>
      merged'.counted = merged.counted + root.2 ∧
        Spans (sliceOf merged.roots roots merged.counted root.2 total) added := by
  obtain ⟨hle, hstop⟩ := sliceOf_bounds merged.roots roots merged.counted root.2 total
  rw [scanRoot]
  generalize sliceOf merged.roots roots merged.counted root.2 total = slice at hle hstop ⊢
  obtain ⟨hs, he⟩ := ProgressSlice.between_start_stop hle hstop
  have htree : Traces (s.scanTree categories filter root.1
      (ProgressSlice.between slice.1 slice.2).place) _ :=
    (rises_scanTree_place _ _).traces.and (traces_scanTree_first (keepsCounts_place _) _)
  rw [hs, he] at htree
  refine .bind_check (.bind htree fun raw added hadded => .bind_report (.pure ⟨rfl, ?_⟩))
  obtain ⟨hwithin, hfirst⟩ := hadded
  constructor
  case first =>
    rw [List.head?_append, hfirst]
    exact congrArg some ((ProgressSlice.scale_zero _).trans hs)
  case last =>
    rw [List.getLast?_concat]
    exact congrArg some (Nat.min_eq_left hstop)
  case within =>
    refine List.forall_mem_append.mpr ⟨hwithin, List.forall_mem_singleton.mpr ?_⟩
    show slice.1 ≤ min slice.2 100 ∧ min slice.2 100 ≤ slice.2
    omega

/-- What is known of the roots that are scanned, by their files, and of the events since the first
    of them: the events of each root span its slice. -/
structure RootsSpanned (total : Nat) (counts : List Nat) (counted : Nat)
    (events : List ProgressEvent) : Prop where
  counted : counted = totalCount counts
  spanned : ∃ blocks, events = blocks.flatten ∧
    List.Forall₂ Spans (slices countEnd scanEnd total counts) blocks

namespace RootsSpanned

variable {counts : List Nat} {counted : Nat} {events : List ProgressEvent}

theorem nil (total : Nat) : RootsSpanned total [] 0 [] where
  counted := rfl
  spanned := ⟨[], rfl, .nil⟩

theorem concat (h : RootsSpanned total counts counted events) (htotal : 0 < total)
    {place roots count : Nat} {added : List ProgressEvent}
    (hspans : Spans (sliceOf place roots counted count total) added) :
    RootsSpanned total (counts ++ [count]) (counted + count) (events ++ added) where
  counted := by rw [h.counted, totalCount_concat]
  spanned := by
    obtain ⟨blocks, hevents, hblocks⟩ := h.spanned
    rw [sliceOf, if_neg htotal.ne', h.counted] at hspans
    refine ⟨blocks ++ [added], ?_, ?_⟩
    · rw [hevents, List.flatten_append, List.flatten_singleton]
    · rw [slices_concat]
      exact List.rel_append hblocks (.cons hspans .nil)

end RootsSpanned

/-- The events of the roots, one root after the other, span the slices of their files. -/
theorem traces_scanRoots_slices (roots : List (String × Nat)) (number : Nat) {total : Nat}
    (htotal : 0 < total) :
    Traces (roots.foldlM (s.scanRoot categories filter number total) {}) fun merged added =>
      RootsSpanned total (roots.map Prod.snd) merged.counted added := by
  refine .foldlM (fun before (merged : Merged) events =>
    RootsSpanned total (before.map Prod.snd) merged.counted events) (.nil total) ?_
  intro before root after _ merged events h
  refine (traces_scanRoot_spans number total merged root).imp fun merged' added hadded => ?_
  rw [List.map_append, hadded.1]
  exact h.concat htotal hadded.2

/-- The events of the scan of a code base that has files. -/
theorem traces_scanCodebase_slices (base : String) (paths requested : List String)
    (options : ScanOptions) {counts : List Nat}
    (hcounts : counts = (s.roots base paths).map fun root =>
      (s.disk.candidates (.ofOptions options s.settings.scan) root).length)
    (htotal : 0 < totalCount counts) :
    Traces (s.scanCodebase base paths requested options) fun _ events =>
      ∃ opening blocks closing, events = opening ++ (blocks.flatten ++ closing) ∧
        List.Forall₂ Spans (slices countEnd scanEnd (totalCount counts) counts) blocks := by
  rw [scanCodebase]
  refine .bind_report (.bind_requireTarget (.bind_lift fun categories _ =>
    .bind_report (.bind (traces_countFiles _) fun counts' counted hknown => ?_)))
  obtain rfl : counts = counts' := hcounts.trans hknown.1.symm
  have hsnd : ((s.roots base paths).zip counts).map Prod.snd = counts :=
    List.map_snd_zip (by rw [hcounts, List.length_map])
  refine .bind (traces_scanRoots_slices _ _ htotal) fun merged added h =>
    .bind_report (.bind_report (.pure ?_))
  obtain ⟨blocks, rfl, hblocks⟩ := h.spanned
  rw [hsnd] at hblocks
  exact ⟨_ :: _ :: counted, blocks, _, rfl, hblocks⟩

end Codebase

/-! ## Slices that fit together -/

/-- Percentages in words of 8 bits, by a product in words of 64 bits. The product is the only step
    that may not fit. If it fits, there is a percentage, it lies in the slice, does not fall when
    more is done, and is at the ends of the slice when nothing or all is done. So the slices of parts
    follow each other and cover the whole slice, whatever the numbers of files in the parts are, and
    the events of the roots of a code base span these slices, one root after the other. -/
theorem slices_fit_together :
    (∀ start stop total, start < Word.bound8 → stop < Word.bound8 → 0 < total →
      (∀ done, band? start stop done total = none ↔
        Word.bound64 ≤ (stop - start) * min done total) ∧
      (∀ done, (stop - start) * min done total < Word.bound64 →
        ∃ percentage, band? start stop done total = some percentage ∧
          start ≤ percentage ∧ percentage ≤ max start stop) ∧
      (∀ done later, done ≤ later → (stop - start) * min later total < Word.bound64 →
        ∃ low high, band? start stop done total = some low ∧
          band? start stop later total = some high ∧ low ≤ high) ∧
      band? start stop 0 total = some start ∧
      ∀ done, total ≤ done → (stop - start) * min done total < Word.bound64 →
        band? start stop done total = some (max start stop)) ∧
    (∀ start stop (counts : List Nat), start ≤ stop → stop < Word.bound8 →
      0 < totalCount counts →
      (∀ i ≤ counts.length,
        band? start stop (totalCount (counts.take i)) (totalCount counts) ≠ none) →
      (∀ i ≤ counts.length, band? start stop (totalCount (counts.take i)) (totalCount counts) =
        some (band start stop (totalCount (counts.take i)) (totalCount counts))) ∧
      Tiles start stop (slices start stop (totalCount counts) counts) ∧
      ∀ place, (start ≤ place ∧ place ≤ stop) ↔
        ∃ slice ∈ slices start stop (totalCount counts) counts,
          slice.1 ≤ place ∧ place ≤ slice.2) ∧
    ∀ (s : Session) (base : String) (paths requested : List String) (options : ScanOptions)
      (counts : List Nat),
      counts = (s.roots base paths).map (fun root =>
        (s.disk.candidates (.ofOptions options s.settings.scan) root).length) →
      0 < totalCount counts →
      Traces (s.scanCodebase base paths requested options) fun _ events =>
        ∃ opening blocks closing, events = opening ++ (blocks.flatten ++ closing) ∧
          List.Forall₂ Spans (slices countEnd scanEnd (totalCount counts) counts) blocks := by
  refine ⟨?bands, ?tiles, ?roots⟩
  case bands =>
    intro start stop total hstart hstop htotal
    have hband := band?_eq hstart hstop htotal
    have hless : ∀ done later, done ≤ later →
        (stop - start) * min done total ≤ (stop - start) * min later total := fun done later h =>
      Nat.mul_le_mul_left _ (min_le_min_right total h)
    refine ⟨fun done => ?overflow, fun done hfits => ?bounds, fun done later hle hfits => ?mono,
      ?zero, fun done hdone hfits => ?full⟩
    case overflow => rw [hband, ite_eq_right_iff]; simp
    case bounds =>
      exact ⟨_, (hband done).trans (if_pos hfits), le_band_of_pos htotal start stop done,
        band_le_max htotal start stop done⟩
    case mono =>
      exact ⟨_, _, (hband done).trans (if_pos ((hless done later hle).trans_lt hfits)),
        (hband later).trans (if_pos hfits), band_mono start stop hle total⟩
    case zero =>
      rw [hband, Nat.zero_min, Nat.mul_zero, if_pos (by decide), band_zero htotal]
    case full => rw [hband, if_pos hfits, band_of_le htotal hdone]
  case tiles =>
    intro start stop counts hle hstop htotal hfits
    have htiles := tiles_slices hle htotal
    exact ⟨fun i hi => band?_of_ne_none (hle.trans_lt hstop) hstop htotal (hfits i hi), htiles,
      htiles.covers_iff (slices_ne_nil start stop htotal)⟩
  case roots =>
    intro s base paths requested options counts hcounts htotal
    exact traces_scanCodebase_slices base paths requested options hcounts htotal

theorem counts_mixed :
    (mixedSession.roots "." ["app", "lib"]).map (fun root => (mixedSession.disk.candidates
      (.ofOptions {} mixedSession.settings.scan) root).length) = [2, 1] := by
  have hfilter : FileFilter.ofOptions {} mixedSession.settings.scan = .ofOptions {} {} := rfl
  have hjoin : Path.join "./lib" "c.blade.php" = "./lib/c.blade.php" := by decide
  have henters : (FileFilter.ofOptions {} {}).excludes "./lib" = false := by decide +kernel
  have haccepts : (FileFilter.ofOptions {} {}).accepts "./lib/c.blade.php" 0 = true := by
    decide +kernel
  have hlists : mixedSession.disk.lists ["lib"] = true := rfl
  have hlib : mixedSession.disk.candidates (.ofOptions {} mixedSession.settings.scan) "./lib" =
      ["./lib/c.blade.php"] := by
    rw [hfilter, Disk.candidates, Disk.walk, Disk.walkPath, find?_mixed.2.2]
    simp [Disk.visit, Disk.visitAll, Disk.sortByName, hjoin, henters, hlists, haccepts, firstPerKey]
  rw [roots_mixed, List.map_cons, List.map_singleton, candidates_mixed, hlib]
  rfl

/-- A slice of the whole way out of a total near the largest word, and a code base of two roots with
    two files and one file, whose slices meet at 61. -/
theorem slices_fit_together_mixed :
    (0 < Word.bound8 ∧ 100 < Word.bound8 ∧ 0 < Word.bound64 - 1 ∧
      band? 0 100 184467440737095516 (Word.bound64 - 1) = some 0 ∧
      band? 0 100 184467440737095517 (Word.bound64 - 1) = none) ∧
    (35 ≤ 75 ∧ 75 < Word.bound8 ∧ 0 < totalCount [2, 0, 1] ∧
      slices 35 75 3 [2, 0, 1] = [(35, 61), (61, 61), (61, 75)] ∧
      Tiles 35 75 (slices 35 75 (totalCount [2, 0, 1]) [2, 0, 1])) ∧
    ∃ result log opening blocks closing,
      (mixedSession.scanCodebase "." ["app", "lib"] ["template"] {}).run = (.ok result, log) ∧
      log.events = opening ++ (blocks.flatten ++ closing) ∧
      List.Forall₂ Spans [(35, 61), (61, 75)] blocks := by
  obtain ⟨hbands, htiles, hroots⟩ := slices_fit_together
  refine ⟨?_, ?_, ?_⟩
  · obtain ⟨hoverflow, -⟩ := hbands 0 100 (Word.bound64 - 1) (by decide) (by decide) (by decide)
    exact ⟨by decide, by decide, by decide, by decide, (hoverflow _).mpr (by decide)⟩
  · refine ⟨by decide, by decide, by decide, by decide, ?_⟩
    exact (htiles 35 75 [2, 0, 1] (by decide) (by decide) (by decide) (by decide)).2.1
  · have hsettles : Settles mixedSession
        (mixedSession.scanCodebase "." ["app", "lib"] ["template"] {}) _ :=
      settles_scanCodebase_of_listed rfl isDir_mixed.1
        fun root _ => Disk.walkError?_eq_none rfl _ root
    have hrun : (mixedSession.scanCodebase "." ["app", "lib"] ["template"] {}).run = (.ok _, _) :=
      Prod.ext (hsettles.run uncancelled_mixed thorough_mixed) rfl
    obtain ⟨events, hevents, opening, blocks, closing, hsplit, hspans⟩ :=
      hroots mixedSession "." ["app", "lib"] ["template"] {} [2, 1] counts_mixed.symm (by decide)
        {} _ _ hrun
    have hslices : slices countEnd scanEnd (totalCount [2, 1]) [2, 1] = [(35, 61), (61, 75)] := by
      decide
    rw [hslices] at hspans
    exact ⟨_, _, opening, blocks, closing, hrun, hevents.trans hsplit, hspans⟩

end CodeAudit
