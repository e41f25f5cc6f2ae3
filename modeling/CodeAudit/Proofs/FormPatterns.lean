import CodeAudit.Check.Form
import CodeAudit.Proofs.PatternMatches

/-!
# What the check of forms looks for

The check of forms searches for the starts and ends of forms, for the attribute of a form that
posts, and for request tokens. Here is what its four patterns find, without patterns. All names are
matched in any case, and most of them only at the edge of a word.

Results:
* `edge_before_iff`, `edge_after_iff`: the edges of a word.
* `leadsBy_formStart`, `leadsBy_formEnd`: where forms start and end.
* `postMethod_isIn_iff`, `requestToken_isIn_iff`: which tags post, and which texts mention a token.
-/

namespace CodeAudit.Check.Form

open Text Pattern

/-! ## Words in any case -/

theorem isAlpha_of_isLower_toLower {c : Char} (h : c.toLower.isLower = true) :
    c.isAlpha = true := by
  by_cases hupper : c.val ≥ 'A'.val ∧ c.val ≤ 'Z'.val
  · exact Bool.or_eq_true_iff.mpr (.inl (decide_eq_true hupper))
  · have hsame : c.toLower = c := dif_neg hupper
    rw [hsame] at h
    exact Bool.or_eq_true_iff.mpr (.inr h)

theorem toNat_lt_of_isAlpha {c : Char} (h : c.isAlpha = true) : c.toNat < 128 := by
  have hle : c.val ≤ 'z'.val := by
    rcases Bool.or_eq_true_iff.mp h with hupper | hlower
    · have hrange : c.val ≥ 'A'.val ∧ c.val ≤ 'Z'.val := of_decide_eq_true hupper
      exact UInt32.le_trans hrange.2 (by decide)
    · exact of_decide_eq_true (Bool.and_eq_true_iff.mp hlower).2
  exact Nat.lt_of_le_of_lt hle (by decide)

/-- What matches a letter is a letter. The two letters that a character outside of ASCII matches
    are left out, as no end of a word needs them here. -/
theorem isWord_of_foldCase {c letter : Char} (h : foldCase c = letter)
    (hlower : letter.isLower = true) (hs : letter ≠ 's') (hk : letter ≠ 'k') :
    isWord c = true := by
  subst h
  have hfold : foldCase c = c.toLower := by
    unfold foldCase at hs hk ⊢
    split
    · rename_i hlong
      exact absurd (if_pos hlong) hs
    · split
      · rename_i hlong hsign
        rw [if_neg hlong] at hk
        exact absurd (if_pos hsign) hk
      · rfl
  have halpha := isAlpha_of_isLower_toLower (hfold ▸ hlower)
  have halphanum : c.isAlphanum = true := Bool.or_eq_true_iff.mpr (.inl halpha)
  rw [isWord, if_pos (toNat_lt_of_isAlpha halpha), halphanum]
  rfl

section Edges

variable {word : List Char} {previous : Option Char}

/-- The edge in front of a word character. -/
theorem edge_before_iff (h : word.head?.any isWord = true) (rest : List Char) :
    previous.any isWord ≠ (word ++ rest).head?.any isWord ↔ previous.any isWord = false := by
  obtain ⟨c, hc⟩ := Option.isSome_iff_exists.mp (Option.isSome_of_any h)
  rw [List.head?_append, hc, Option.some_or, ← hc, h, ne_eq, Bool.not_eq_true]

/-- The edge behind a word character. -/
theorem edge_after_iff (h : word.getLast?.any isWord = true) (before rest : List Char) :
    ((before ++ word).getLast?.or previous).any isWord ≠ rest.head?.any isWord ↔
      rest.head?.any isWord = false := by
  obtain ⟨c, hc⟩ := Option.isSome_iff_exists.mp (Option.isSome_of_any h)
  rw [List.getLast?_append, hc, Option.some_or, Option.some_or, ← hc, h, ne_comm, ne_eq,
    Bool.not_eq_true]

/-- The first and the last character of a word are word characters, whatever their case. -/
theorem any_isWord_of_map {stretch : List Char} (h : stretch.map foldCase = word)
    (ends : List Char → Option Char)
    (hends : ends (stretch.map foldCase) = (ends stretch).map foldCase)
    {letter : Char} (hletter : ends word = some letter)
    (hlower : letter.isLower = true ∧ letter ≠ 's' ∧ letter ≠ 'k') :
    (ends stretch).any isWord = true := by
  rw [h, hletter] at hends
  obtain ⟨c, hc, hfold⟩ := Option.map_eq_some_iff.mp hends.symm
  rw [hc]
  exact isWord_of_foldCase hfold hlower.1 hlower.2.1 hlower.2.2

end Edges

/-- What follows a word at the start of a text, whatever the case of its letters. -/
def afterWord? (word text : List Char) : Option (List Char) :=
  if (text.take word.length).map foldCase = word then some (text.drop word.length) else none

theorem afterWord?_eq_some_iff {word text rest : List Char} :
    afterWord? word text = some rest ↔
      ∃ stretch, text = stretch ++ rest ∧ stretch.map foldCase = word := by
  rw [afterWord?]
  constructor
  · intro h
    split at h
    · rename_i hword
      cases h
      exact ⟨text.take word.length, (List.take_append_drop _ _).symm, hword⟩
    · cases h
  · rintro ⟨stretch, rfl, rfl⟩
    rw [List.length_map, List.take_left, List.drop_left, if_pos rfl]

/-! ## Starts and ends of forms -/

/-- What follows the start of a form. -/
def afterStart? (text : List Char) : Option (List Char) :=
  (afterWord? "<form".toList text).filter fun rest => !rest.head?.any isWord

/-- What follows blanks and a closing bracket. -/
def afterBracket? (text : List Char) : Option (List Char) :=
  match text.dropWhile isBlank with
  | '>' :: rest => some rest
  | _ => none

/-- What follows the end of a form. -/
def afterEnd? (text : List Char) : Option (List Char) :=
  (afterWord? "</form".toList text).bind afterBracket?

theorem leadsBy_formStart : formStart.LeadsBy afterStart? := by
  intro previous text rest
  have hedge : ∀ stretch : List Char, stretch.map foldCase = "<form".toList →
      ((stretch.getLast?.or previous).any isWord ≠ rest.head?.any isWord ↔
        rest.head?.any isWord = false) := by
    intro stretch hword
    have hlast := any_isWord_of_map hword List.getLast? List.getLast?_map rfl (by decide)
    exact edge_after_iff hlast [] rest
  simp only [afterStart?, Option.filter_eq_some_iff, afterWord?_eq_some_iff, formStart, fits_seq,
    fits_anyCase, fits_wordEdge, Bool.not_eq_true']
  constructor
  · rintro ⟨⟨stretch, rfl, hword⟩, hrest⟩
    exact ⟨stretch, rfl, stretch, [], (List.append_nil _).symm, hword, rfl,
      (hedge stretch hword).mpr hrest⟩
  · rintro ⟨_, rfl, stretch, _, rfl, hword, rfl, hrest⟩
    exact ⟨⟨stretch, by rw [List.append_nil], hword⟩, (hedge stretch hword).mp hrest⟩

theorem afterBracket?_eq_some_iff {text rest : List Char} :
    afterBracket? text = some rest ↔
      ∃ gap, text = gap ++ '>' :: rest ∧ ∀ c ∈ gap, isBlank c = true := by
  rw [afterBracket?]
  constructor
  · intro h
    split at h
    · rename_i hdrop
      cases h
      refine ⟨text.takeWhile isBlank, ?_, List.all_eq_true.mp List.all_takeWhile⟩
      rw [← hdrop, List.takeWhile_append_dropWhile]
    · cases h
  · rintro ⟨gap, rfl, hgap⟩
    rw [List.dropWhile_append_of_pos hgap, List.dropWhile_cons_of_neg (by decide)]
    rfl

theorem leadsBy_formEnd : formEnd.LeadsBy afterEnd? := by
  intro previous text rest
  simp only [afterEnd?, Option.bind_eq_some_iff, afterWord?_eq_some_iff, afterBracket?_eq_some_iff,
    formEnd, fits_seq, fits_anyCase, fits_blanks, fits_char]
  constructor
  · rintro ⟨_, ⟨stretch, rfl, hword⟩, gap, rfl, hgap⟩
    exact ⟨stretch ++ gap ++ ['>'], by simp, stretch ++ gap, ['>'], rfl,
      ⟨stretch, gap, rfl, hword, hgap⟩, rfl⟩
  · rintro ⟨_, rfl, _, _, rfl, ⟨stretch, gap, rfl, hword, hgap⟩, rfl⟩
    exact ⟨gap ++ '>' :: rest, ⟨stretch, by simp, hword⟩, gap, rfl, hgap⟩

/-! ## Tags that post, and tokens -/

/-- Does a tag hold `method=post` as words of its own? The case of the letters does not matter, and
    there may be blanks around the equals sign and a quote before the value. -/
def CarriesPost (tag : List Char) : Prop :=
  ∃ before name gap₁ gap₂ quote gap₃ value after : List Char,
    tag = before ++ (name ++ (gap₁ ++ '=' :: (gap₂ ++ (quote ++ (gap₃ ++ (value ++ after)))))) ∧
    name.map foldCase = "method".toList ∧ value.map foldCase = "post".toList ∧
    (∀ c ∈ gap₁ ++ gap₂ ++ gap₃, isBlank c = true) ∧ quote ∈ [[], ['"'], ['\'']] ∧
    before.getLast?.any isWord = false ∧ after.head?.any isWord = false

theorem postMethod_isIn_iff {tag : List Char} : postMethod.isIn tag = true ↔ CarriesPost tag := by
  have hstart : ∀ name : List Char, name.map foldCase = "method".toList →
      name.head?.any isWord = true := fun name hname =>
    any_isWord_of_map hname List.head? List.head?_map rfl (by decide)
  have hstop : ∀ value : List Char, value.map foldCase = "post".toList →
      value.getLast?.any isWord = true := fun value hvalue =>
    any_isWord_of_map hvalue List.getLast? List.getLast?_map rfl (by decide)
  have hquotes : ∀ quote : List Char, ((∃ x ∈ "\"'".toList, quote = [x]) ∨ quote = []) ↔
      quote ∈ [[], ['"'], ['\'']] := by
    simp [or_comm]
  simp only [isIn_iff, postMethod, fits_seq, fits_wordEdge, fits_anyCase, fits_blanks, fits_char,
    fits_opt, fits_oneOf, hquotes, CarriesPost, List.forall_mem_append]
  constructor
  · rintro ⟨before, _, after, htag, _, _, rfl, ⟨_, value, rfl, ⟨_, gap₃, rfl, ⟨_, quote, rfl,
      ⟨_, gap₂, rfl, ⟨_, _, rfl, ⟨_, gap₁, rfl, ⟨_, name, rfl, ⟨rfl, hbefore⟩, hname⟩, hgap₁⟩,
      rfl⟩, hgap₂⟩, hquote⟩, hgap₃⟩, hvalue⟩, rfl, hafter⟩
    rw [edge_before_iff (hstart name hname)] at hbefore
    rw [edge_after_iff (hstop value hvalue)] at hafter
    exact ⟨before, name, gap₁, gap₂, quote, gap₃, value, after, by simpa using htag, hname, hvalue,
      ⟨⟨hgap₁, hgap₂⟩, hgap₃⟩, hquote, hbefore, hafter⟩
  · rintro ⟨before, name, gap₁, gap₂, quote, gap₃, value, after, rfl, hname, hvalue,
      ⟨⟨hgap₁, hgap₂⟩, hgap₃⟩, hquote, hbefore, hafter⟩
    rw [← edge_before_iff (hstart name hname)] at hbefore
    rw [← edge_after_iff (hstop value hvalue)] at hafter
    exact ⟨before, _, after, by simp, _, _, rfl, ⟨_, value, rfl, ⟨_, gap₃, rfl, ⟨_, quote, rfl,
      ⟨_, gap₂, rfl, ⟨_, _, rfl, ⟨_, gap₁, rfl, ⟨_, name, rfl, ⟨rfl, hbefore⟩, hname⟩, hgap₁⟩,
      rfl⟩, hgap₂⟩, hquote⟩, hgap₃⟩, hvalue⟩, rfl, hafter⟩

instance : DecidablePred CarriesPost := fun _ => decidable_of_iff _ postMethod_isIn_iff

/-- Is the function called in the text? -/
def Calls (name text : List Char) : Prop :=
  ∃ before gap after, text = before ++ (name ++ (gap ++ '(' :: after)) ∧
    (∀ c ∈ gap, isBlank c = true) ∧ before.getLast?.any isWord = false

theorem call_isIn_iff {name : String} (hname : name.toList.head?.any isWord = true)
    {text : List Char} :
    (wordEdge ++ lit name ++ blanks ++ char '(').isIn text = true ↔ Calls name.toList text := by
  simp only [isIn_iff, fits_seq, fits_wordEdge, fits_lit, fits_blanks, fits_char, Calls]
  constructor
  · rintro ⟨before, _, after, rfl, _, _, rfl, ⟨_, gap, rfl, ⟨_, _, rfl, ⟨rfl, hbefore⟩, rfl⟩,
      hgap⟩, rfl⟩
    exact ⟨before, gap, after, by simp, hgap, (edge_before_iff hname _).mp hbefore⟩
  · rintro ⟨before, gap, after, rfl, hgap, hbefore⟩
    exact ⟨before, _, after, by simp, _, _, rfl, ⟨_, gap, rfl, ⟨[], _, rfl,
      ⟨rfl, (edge_before_iff hname _).mpr hbefore⟩, rfl⟩, hgap⟩, rfl⟩

/-- Does a text mention the token: as a directive, or by a call of one of the two functions that
    give it? -/
def MentionsToken (text : List Char) : Prop :=
  (∃ before after, text = before ++ ("@csrf".toList ++ after) ∧ after.head?.any isWord = false) ∨
    Calls "csrf_field".toList text ∨ Calls "csrf_token".toList text

theorem requestToken_isIn_iff {text : List Char} :
    requestToken.isIn text = true ↔ MentionsToken text := by
  have hdirective : (lit "@csrf" ++ wordEdge).isIn text = true ↔
      ∃ before after, text = before ++ ("@csrf".toList ++ after) ∧
        after.head?.any isWord = false := by
    have hlast : "@csrf".toList.getLast?.any isWord = true := by decide
    simp only [isIn_iff, fits_seq, fits_lit, fits_wordEdge]
    constructor
    · rintro ⟨before, _, after, rfl, _, _, rfl, rfl, rfl, hafter⟩
      exact ⟨before, after, by rw [List.append_nil], (edge_after_iff hlast [] after).mp hafter⟩
    · rintro ⟨before, after, rfl, hafter⟩
      exact ⟨before, _, after, rfl, _, [], by rw [List.append_nil], rfl, rfl,
        (edge_after_iff hlast [] after).mpr hafter⟩
  rw [requestToken, isIn_choice_iff, isIn_choice_iff, hdirective, call_isIn_iff (by decide),
    call_isIn_iff (by decide)]
  rfl

instance : DecidablePred MentionsToken := fun _ => decidable_of_iff _ requestToken_isIn_iff

end CodeAudit.Check.Form
