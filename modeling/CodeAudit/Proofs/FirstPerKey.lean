import CodeAudit.Check.Subject

/-!
# First values

`firstPerKey` goes through pairs and keeps the first value of each key. What it keeps comes from the
pairs, has different keys, and lacks no key.

Results:
* `mem_of_mem_firstPerKey`, `exists_mem_firstPerKey`: the values that are kept, and the keys.
* `pairwise_firstPerKey`: what is kept has different keys.
* `map_firstPerKey`: values may be changed before or after.
* `firstPerKey_eq_map`: nothing is left out if the keys differ.
* `filter_firstPerKey`: what is kept for one key.
* `firstPerKey_append_singleton`: one more pair adds its value if its key is new.
-/

namespace CodeAudit

variable {κ α β : Type} [BEq κ]

theorem mem_of_mem_firstPerKey {seen : List κ} {pairs : List (κ × α)}
    {value : α} (h : value ∈ firstPerKey seen pairs) : ∃ key, (key, value) ∈ pairs := by
  induction pairs generalizing seen with
  | nil => cases h
  | cons pair rest ih =>
    obtain ⟨key, first⟩ := pair
    rw [firstPerKey] at h
    split at h
    · obtain ⟨key', hm⟩ := ih h
      exact ⟨key', List.mem_cons_of_mem _ hm⟩
    · rcases List.mem_cons.mp h with rfl | h
      · exact ⟨key, List.mem_cons_self⟩
      · obtain ⟨key', hm⟩ := ih h
        exact ⟨key', List.mem_cons_of_mem _ hm⟩

/-- A value that is given first for its key is given for a key that did not occur before. -/
theorem fresh_of_mem_firstPerKey [LawfulBEq κ] {seen : List κ}
    {pairs : List (κ × α)} {value : α} (h : value ∈ firstPerKey seen pairs) :
    ∃ key, (key, value) ∈ pairs ∧ key ∉ seen := by
  induction pairs generalizing seen with
  | nil => cases h
  | cons pair rest ih =>
    obtain ⟨key, first⟩ := pair
    rw [firstPerKey] at h
    split at h
    · obtain ⟨key', hmem, hfresh⟩ := ih h
      exact ⟨key', List.mem_cons_of_mem _ hmem, hfresh⟩
    · rename_i hseen
      rcases List.mem_cons.mp h with rfl | h
      · refine ⟨key, List.mem_cons_self, ?_⟩
        rwa [List.contains_iff_mem] at hseen
      · obtain ⟨key', hmem, hfresh⟩ := ih h
        exact ⟨key', List.mem_cons_of_mem _ hmem, fun hm => hfresh (List.mem_cons_of_mem _ hm)⟩

/-- The first values of their keys have different keys, each before the other. -/
theorem pairwise_firstPerKey [LawfulBEq κ] {R : α → α → Prop} (seen : List κ)
    (pairs : List (κ × α)) (hR : ∀ p ∈ pairs, ∀ q ∈ pairs, p.1 ≠ q.1 → R p.2 q.2) :
    (firstPerKey seen pairs).Pairwise R := by
  induction pairs generalizing seen with
  | nil => exact .nil
  | cons pair rest ih =>
    have hrest := fun seen => ih seen fun p hp q hq =>
      hR p (List.mem_cons_of_mem _ hp) q (List.mem_cons_of_mem _ hq)
    obtain ⟨key, first⟩ := pair
    rw [firstPerKey]
    split
    · exact hrest seen
    · refine .cons (fun value hvalue => ?_) (hrest (key :: seen))
      obtain ⟨key', hmem, hfresh⟩ := fresh_of_mem_firstPerKey hvalue
      have hne : key ≠ key' := fun h => hfresh (by rw [h]; exact List.mem_cons_self)
      exact hR (key, first) List.mem_cons_self (key', value) (List.mem_cons_of_mem _ hmem) hne

/-- Each key has its first value. -/
theorem exists_mem_firstPerKey [LawfulBEq κ] {seen : List κ}
    {pairs : List (κ × α)} {key : κ} {value : α} (h : (key, value) ∈ pairs) (hseen : key ∉ seen) :
    ∃ first ∈ firstPerKey seen pairs, (key, first) ∈ pairs := by
  induction pairs generalizing seen with
  | nil => cases h
  | cons pair rest ih =>
    obtain ⟨key', value'⟩ := pair
    have hlater : ∀ seen : List κ, key ∉ seen → (key, value) ∈ rest →
        ∃ first ∈ firstPerKey seen rest, (key, first) ∈ (key', value') :: rest := by
      intro seen hseen hrest
      obtain ⟨first, hfirst, hpair⟩ := ih hrest hseen
      exact ⟨first, hfirst, List.mem_cons_of_mem _ hpair⟩
    rw [firstPerKey]
    split
    · rename_i hkey
      rcases List.mem_cons.mp h with heq | hrest
      · cases heq
        exact absurd (List.contains_iff_mem.mp hkey) hseen
      · exact hlater seen hseen hrest
    · by_cases heq : key = key'
      · subst heq
        exact ⟨value', List.mem_cons_self, List.mem_cons_self⟩
      · have hrest : (key, value) ∈ rest :=
          (List.mem_cons.mp h).resolve_left fun hpair => heq (congrArg Prod.fst hpair)
        obtain ⟨first, hfirst, hpair⟩ := hlater (key' :: seen) (by simp [heq, hseen]) hrest
        exact ⟨first, List.mem_cons_of_mem _ hfirst, hpair⟩

/-- Whether a value is kept depends on its key only. -/
theorem map_firstPerKey (f : α → β) (seen : List κ) (pairs : List (κ × α)) :
    (firstPerKey seen pairs).map f =
      firstPerKey seen (pairs.map fun pair => (pair.1, f pair.2)) := by
  induction pairs generalizing seen with
  | nil => rfl
  | cons pair rest ih =>
    rw [List.map_cons, firstPerKey, firstPerKey]
    split
    · exact ih seen
    · rw [List.map_cons, ih]

/-- If the keys differ, then all values are kept. -/
theorem firstPerKey_eq_map [LawfulBEq κ] {seen : List κ} {pairs : List (κ × α)}
    (hkeys : (pairs.map Prod.fst).Nodup) (hseen : ∀ pair ∈ pairs, pair.1 ∉ seen) :
    firstPerKey seen pairs = pairs.map Prod.snd := by
  induction pairs generalizing seen with
  | nil => rfl
  | cons pair rest ih =>
    obtain ⟨key, value⟩ := pair
    rw [List.map_cons, List.nodup_cons] at hkeys
    rw [List.forall_mem_cons] at hseen
    have hfresh : ¬ seen.contains key = true := by
      rw [List.contains_iff_mem]
      exact hseen.1
    rw [firstPerKey, if_neg hfresh, List.map_cons, ih hkeys.2]
    intro pair hpair hmem
    rcases List.mem_cons.mp hmem with hkey | hmem
    · exact hkeys.1 (List.mem_map.mpr ⟨pair, hpair, hkey⟩)
    · exact hseen.2 pair hpair hmem

/-- What is kept for one key, if the values tell their keys. -/
theorem filter_firstPerKey [LawfulBEq κ] {seen : List κ} {pairs : List (κ × α)} {key : κ}
    {test : α → Bool} (htest : ∀ pair ∈ pairs, test pair.2 = (pair.1 == key)) (hseen : key ∉ seen) :
    (firstPerKey seen pairs).filter test =
      ((pairs.find? fun pair => pair.1 == key).map Prod.snd).toList := by
  induction pairs generalizing seen with
  | nil => rfl
  | cons pair rest ih =>
    obtain ⟨other, value⟩ := pair
    rw [List.forall_mem_cons] at htest
    rw [firstPerKey]
    split
    · rename_i hother
      have hne : (other == key) = false := by
        rw [beq_eq_false_iff_ne]
        rintro rfl
        exact hseen (List.contains_iff_mem.mp hother)
      rw [ih htest.2 hseen, List.find?_cons_of_neg (by simp [hne])]
    · by_cases hkey : other = key
      · subst hkey
        -- The later values have other keys.
        have hlater : (firstPerKey (other :: seen) rest).filter test = [] := by
          rw [List.filter_eq_nil_iff]
          intro later hmem htrue
          obtain ⟨key, hpair, hfresh⟩ := fresh_of_mem_firstPerKey hmem
          rw [htest.2 _ hpair, beq_iff_eq] at htrue
          exact hfresh (htrue ▸ List.mem_cons_self)
        rw [List.filter_cons_of_pos (by rw [htest.1, beq_self_eq_true]), hlater,
          List.find?_cons_of_pos (by simp)]
        rfl
      · have hne : (other == key) = false := beq_eq_false_iff_ne.mpr hkey
        have hseen' : key ∉ other :: seen := by simp [hseen, Ne.symm hkey]
        rw [List.filter_cons_of_neg (by rw [htest.1, hne]; exact Bool.false_ne_true),
          ih htest.2 hseen', List.find?_cons_of_neg (by simp [hne])]

theorem firstPerKey_append_singleton [LawfulBEq κ] (seen : List κ) (pairs : List (κ × α))
    (key : κ) (value : α) :
    firstPerKey seen (pairs ++ [(key, value)]) =
      firstPerKey seen pairs ++
        if (seen ++ pairs.map Prod.fst).contains key then [] else [value] := by
  induction pairs generalizing seen with
  | nil =>
    simp only [List.nil_append, List.map_nil, List.append_nil, firstPerKey]
  | cons pair rest ih =>
    obtain ⟨key', value'⟩ := pair
    rw [List.cons_append, firstPerKey, firstPerKey]
    split
    · rename_i hseen
      rw [ih]
      congr 2
      have hmem := List.contains_iff_mem.mp hseen
      rw [Bool.eq_iff_iff, List.contains_iff_mem, List.contains_iff_mem]
      grind
    · rw [ih, List.cons_append]
      congr 3
      rw [Bool.eq_iff_iff, List.contains_iff_mem, List.contains_iff_mem]
      grind

end CodeAudit
