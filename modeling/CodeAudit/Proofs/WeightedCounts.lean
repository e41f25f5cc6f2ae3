import CodeAudit.Proofs.FileGroups

/-!
# Weighted counts

The weighted sum of counts by severity is taken in words of 32 bits. Counts are cut down to a word
and the sum stops at the largest word, but the product of a weight and a count is taken as it is, so
that it may not fit. A weight of one cannot make a product too large. The other weights can, from a
count on that is less for a greater weight. Wherever the sum is given it is the exact one, cut down
to a word once.

Results:
* `foldl_saturating`: a sum that stops at a limit is a sum that is cut down at its end.
* `weighted?_exact`: when the weighted sum is given, and what it is.
* `weighted?_ofIssues`: a list of fewer than 858993460 issues has a weighted sum.
-/

namespace CodeAudit.SeverityCounts

/-! ## Sums that stop at a limit -/

theorem foldl_saturating {limit start : Nat} (hstart : start ≤ limit) (terms : List Nat) :
    terms.foldl (fun sum term => min (sum + term) limit) start =
      min limit (start + terms.sum) := by
  induction terms generalizing start with
  | nil => rw [List.foldl_nil, List.sum_nil, Nat.add_zero, Nat.min_eq_right hstart]
  | cons term terms ih =>
    rw [List.foldl_cons, ih (Nat.min_le_right _ _), List.sum_cons]
    omega

/-- Values that pass a test are all given, or none is. -/
theorem mapM_ite {α β : Type} (p : α → Prop) [DecidablePred p] (f : α → β) (values : List α) :
    (values.mapM fun value => if p value then some (f value) else none) =
      if ∀ value ∈ values, p value then some (values.map f) else none := by
  induction values with
  | nil => simp
  | cons value values ih =>
    rw [List.mapM_cons, ih]
    simp only [List.forall_mem_cons]
    by_cases hvalue : p value
    · by_cases hvalues : ∀ value ∈ values, p value
      · rw [if_pos hvalue, if_pos hvalues, if_pos ⟨hvalue, hvalues⟩]
        rfl
      · rw [if_pos hvalue, if_neg hvalues, if_neg fun h => hvalues h.2]
        rfl
    · have hnone : ¬ (p value ∧ ∀ value ∈ values, p value) := fun h => hvalue h.1
      rw [if_neg hvalue, if_neg hnone]
      rfl

/-! ## Terms -/

/-- The weight of the issues of a severity, with the count cut down to a word. -/
def term (c : SeverityCounts) (severity : Severity) : Nat :=
  severity.weight * min (c.get severity) maxWord

/-- The sum of the weights of all issues, however large. -/
def exactWeight (c : SeverityCounts) : Nat :=
  (Severity.ranked.map fun severity => severity.weight * c.get severity).sum

variable {c : SeverityCounts}

theorem maxWord_eq : maxWord = 2 ^ 32 - 1 := by decide

/-- A weight of one makes no product too large. -/
theorem term_info_le (c : SeverityCounts) : c.term .info ≤ maxWord := by
  rw [term, Severity.weight, Nat.one_mul]
  exact Nat.min_le_right _ _

/-- With a greater weight, a count that does not fit makes a product that does not fit. -/
theorem term_le_iff {severity : Severity} (h : severity ≠ .info) :
    c.term severity ≤ maxWord ↔ severity.weight * c.get severity < 2 ^ 32 := by
  have hweight : 2 ≤ severity.weight := by
    cases severity with
    | info => exact absurd rfl h
    | _ => decide
  rw [term, maxWord_eq]
  by_cases hcount : c.get severity ≤ 2 ^ 32 - 1
  · rw [Nat.min_eq_left hcount]
    omega
  · have hcut : 2 * (2 ^ 32 - 1) ≤ severity.weight * (2 ^ 32 - 1) := Nat.mul_le_mul_right _ hweight
    have hfull : 2 * 2 ^ 32 ≤ severity.weight * c.get severity :=
      Nat.mul_le_mul hweight (by omega)
    rw [Nat.min_eq_right (by omega)]
    omega

/-- Do all products of a weight and a count fit in a word, that of the least weight apart? -/
def Fits (c : SeverityCounts) : Prop :=
  ∀ severity, severity ≠ .info → severity.weight * c.get severity < 2 ^ 32

theorem forall_term_le_iff :
    (∀ severity ∈ Severity.ranked, c.term severity ≤ maxWord) ↔ c.Fits := by
  constructor
  · intro h severity hinfo
    exact (term_le_iff hinfo).mp (h severity severity.mem_ranked)
  · intro h severity _
    by_cases hinfo : severity = .info
    · rw [hinfo]
      exact term_info_le c
    · exact (term_le_iff hinfo).mpr (h severity hinfo)

/-- Cutting down the counts first does not change a sum that is cut down at its end. -/
theorem min_sum_term (h : c.Fits) :
    min maxWord (Severity.ranked.map c.term).sum = min maxWord c.exactWeight := by
  have hterm : ∀ severity, severity ≠ .info →
      c.term severity = severity.weight * c.get severity := by
    intro severity hinfo
    have hweight : 1 ≤ severity.weight := by cases severity <;> decide
    have hcount : c.get severity ≤ severity.weight * c.get severity :=
      Nat.le_mul_of_pos_left _ hweight
    have hfits := h severity hinfo
    rw [term, maxWord_eq, Nat.min_eq_left (by omega)]
  simp only [exactWeight, Severity.ranked, List.map_cons, List.map_nil, List.sum_cons,
    List.sum_nil, hterm .critical (by decide), hterm .high (by decide), hterm .medium (by decide),
    hterm .low (by decide)]
  -- only the count of the least weight may have been cut down
  have hinfo : c.term .info = min (c.get .info) maxWord := Nat.one_mul _
  have hexact : Severity.info.weight * c.get .info = c.get .info := Nat.one_mul _
  rw [hinfo, hexact]
  omega

theorem mul_get_le_exactWeight (c : SeverityCounts) (severity : Severity) :
    severity.weight * c.get severity ≤ c.exactWeight := by
  simp only [exactWeight, Severity.ranked, List.map_cons, List.map_nil, List.sum_cons,
    List.sum_nil]
  cases severity <;> omega

theorem fits_of_exactWeight_lt (h : c.exactWeight < 2 ^ 32) : c.Fits := by
  intro severity _
  exact Nat.lt_of_le_of_lt (c.mul_get_le_exactWeight severity) h

/-! ## Weighted sums -/

theorem weighted?_of_fits (h : c.Fits) : c.weighted? = some (min maxWord c.exactWeight) := by
  unfold weighted?
  show (Severity.ranked.mapM fun severity =>
    if c.term severity ≤ maxWord then some (c.term severity) else none).map _ = _
  rw [mapM_ite, if_pos (forall_term_le_iff.mpr h), Option.map_some,
    foldl_saturating (Nat.zero_le _), Nat.zero_add, min_sum_term h]

theorem weighted?_of_not_fits (h : ¬ c.Fits) : c.weighted? = none := by
  unfold weighted?
  show (Severity.ranked.mapM fun severity =>
    if c.term severity ≤ maxWord then some (c.term severity) else none).map _ = _
  rw [mapM_ite, if_neg (mt forall_term_le_iff.mp h), Option.map_none]

/-- The weighted sum is given exactly if the product of each weight but the least with its count is
    below `2 ^ 32`. It is then the exact sum, at most the largest word of 32 bits. -/
theorem weighted?_exact (c : SeverityCounts) :
    (c.weighted? = some (min (2 ^ 32 - 1)
        (Severity.ranked.map fun severity => severity.weight * c.get severity).sum) ↔
      ∀ severity, severity ≠ .info → severity.weight * c.get severity < 2 ^ 32) ∧
    (c.weighted? = none ↔
      ∃ severity, severity ≠ .info ∧ 2 ^ 32 ≤ severity.weight * c.get severity) := by
  have hnot : (∃ severity, severity ≠ .info ∧ 2 ^ 32 ≤ severity.weight * c.get severity) ↔
      ¬ c.Fits := by
    unfold Fits
    simp only [not_forall, not_lt, exists_prop]
  rw [hnot, ← maxWord_eq]
  show (c.weighted? = some (min maxWord c.exactWeight) ↔ c.Fits) ∧ (c.weighted? = none ↔ ¬ c.Fits)
  by_cases h : c.Fits
  · simp [weighted?_of_fits h, h]
  · simp [weighted?_of_not_fits h, h]

/-- One more critical issue than 858993459 and the weighted sum, which would be the largest word, is
    not given. The count fits in a word of 64 bits, and even in one of 32. -/
theorem weighted?_overflows :
    ({ critical := 858993460 } : SeverityCounts).weighted? = none ∧
    ({ critical := 858993459 } : SeverityCounts).weighted? = some (2 ^ 32 - 1) ∧
    min (2 ^ 32 - 1) (Severity.ranked.map fun severity =>
      severity.weight * ({ critical := 858993460 } : SeverityCounts).get severity).sum =
        2 ^ 32 - 1 ∧
    858993460 < Word.bound32 := by
  decide

/-! ## Lists of issues -/

theorem exactWeight_ofIssues (issues : List Issue) :
    (ofIssues issues).exactWeight = (issues.map fun issue => issue.severity.weight).sum := by
  induction issues using List.reverseRecOn with
  | nil => rfl
  | append_singleton issues issue ih =>
    have hadded : (Severity.ranked.map fun severity =>
        severity.weight * if issue.severity = severity then 1 else 0).sum =
          issue.severity.weight := by
      cases issue.severity <;> rfl
    rw [List.map_append, List.sum_append, ← ih, ofIssues_append_singleton, List.map_singleton,
      List.sum_singleton]
    simp only [exactWeight, get_add, Nat.mul_add, List.sum_map_add, hadded]

theorem exactWeight_le (c : SeverityCounts) : c.exactWeight ≤ 5 * c.total := by
  simp only [exactWeight, Severity.ranked, List.map_cons, List.map_nil, List.sum_cons,
    List.sum_nil, Severity.weight, get, total]
  omega

/-- Fewer issues than a fifth of the words of 32 bits have a weighted sum. It is the sum of their
    weights. -/
theorem weighted?_ofIssues {issues : List Issue} (h : issues.length < 858993460) :
    (ofIssues issues).weighted? = some (issues.map fun issue => issue.severity.weight).sum := by
  have hlt : (ofIssues issues).exactWeight < 2 ^ 32 := by
    have hle := (ofIssues issues).exactWeight_le
    rw [total_ofIssues] at hle
    omega
  rw [weighted?_of_fits (fits_of_exactWeight_lt hlt), maxWord_eq, Nat.min_eq_right (by omega),
    exactWeight_ofIssues]

end CodeAudit.SeverityCounts
