import CodeAudit.Proofs.Findings
import CodeAudit.Proofs.FormPatterns
import CodeAudit.Proofs.TemplateComments

/-!
# Forms that post

The check of forms reads a template line by line and gathers the opening tag of a form up to the
first closing bracket. `formTexts` gives the forms of a template with all that follows their start,
and `openingTag` reads the tag up to the bracket that ends it, which is the first one outside of
quoted values. The two readings differ where a value in quotes holds a bracket, as in an arrow: what
follows it in the tag is not seen, and a form whose method stands there is taken for one that does
not post.

Results:
* `readLines_some`, `readLines_none_eq`: what is reported about an open form, and about all of them.
* `untilBracket_openingTag`: up to its first bracket, quoted or not, the tag is what the check reads.
* `run_reports_forms`: which forms are reported, and when these are all those that should be.
* `arrow_hides_method`: a form that is not reported.
-/

namespace CodeAudit.Check.Form

open Text Pattern

/-! ## Forms of a template -/

/-- A line of a template, or what is left of one, with its number. -/
abbrev Piece := Nat × List Char

/-- The first start of a form: the number of its line, with what follows on this line and the lines
    after it. -/
def enterForm : List Piece → Option (Piece × List Piece)
  | [] => none
  | (row, text) :: later =>
    match cutWhere afterStart? text with
    | some parts => some ((row, parts.2), later)
    | none => enterForm later

/-- What stands up to the end of a form, or all that is left, and what follows the end. -/
def leaveForm : List Piece → List (List Char) × List Piece
  | [] => ([], [])
  | (row, text) :: later =>
    match cutWhere afterEnd? text with
    | some parts => ([parts.1], (row, parts.2) :: later)
    | none => (text :: (leaveForm later).1, (leaveForm later).2)

/-- The characters of pieces. -/
def sizeOfPieces : List Piece → Nat
  | [] => 0
  | piece :: later => piece.2.length + sizeOfPieces later

section Cuts

variable {text : List Char} {parts : List Char × List Char}

theorem exists_of_cutWhere_afterStart? (h : cutWhere afterStart? text = some parts) :
    ∃ start, text = parts.1 ++ start ++ parts.2 ∧ start.length = 5 := by
  obtain ⟨place, rfl, hplace⟩ := append_of_cutWhere h
  obtain ⟨hafter, -⟩ := Option.filter_eq_some_iff.mp hplace
  obtain ⟨start, rfl, hword⟩ := afterWord?_eq_some_iff.mp hafter
  exact ⟨start, by simp, by simpa using congrArg List.length hword⟩

theorem length_of_cutWhere_afterStart? (h : cutWhere afterStart? text = some parts) :
    parts.2.length < text.length := by
  obtain ⟨start, rfl, hlength⟩ := exists_of_cutWhere_afterStart? h
  simp only [List.length_append]
  omega

theorem exists_of_cutWhere_afterEnd? (h : cutWhere afterEnd? text = some parts) :
    ∃ stop, text = parts.1 ++ stop ++ '>' :: parts.2 := by
  obtain ⟨place, rfl, hplace⟩ := append_of_cutWhere h
  obtain ⟨rest, hafter, hbracket⟩ := Option.bind_eq_some_iff.mp hplace
  obtain ⟨stretch, rfl, -⟩ := afterWord?_eq_some_iff.mp hafter
  obtain ⟨gap, rfl, -⟩ := afterBracket?_eq_some_iff.mp hbracket
  exact ⟨stretch ++ gap, by simp⟩

theorem length_of_cutWhere_afterEnd? (h : cutWhere afterEnd? text = some parts) :
    parts.2.length < text.length := by
  obtain ⟨stop, rfl⟩ := exists_of_cutWhere_afterEnd? h
  simp only [List.length_append, List.length_cons]
  omega

end Cuts

theorem sizeOfPieces_enterForm {pieces later : List Piece} {first : Piece}
    (h : enterForm pieces = some (first, later)) :
    sizeOfPieces (first :: later) < sizeOfPieces pieces := by
  fun_induction enterForm pieces with
  | case1 => cases h
  | case2 row text later parts hcut =>
    cases h
    have hshorter := length_of_cutWhere_afterStart? hcut
    simp only [sizeOfPieces]
    omega
  | case3 row text later _ ih =>
    exact Nat.lt_of_lt_of_le (ih h) (Nat.le_add_left _ _)

theorem sizeOfPieces_leaveForm (pieces : List Piece) :
    sizeOfPieces (leaveForm pieces).2 ≤ sizeOfPieces pieces := by
  fun_induction leaveForm pieces with
  | case1 => exact Nat.le_refl _
  | case2 row text later parts hcut =>
    have hshorter := length_of_cutWhere_afterEnd? hcut
    simp only [sizeOfPieces]
    omega
  | case3 row text later _ ih =>
    exact Nat.le_trans ih (Nat.le_add_left _ _)

/-- A form of a template. -/
structure FormText where
  /-- The number of the line that it starts on. -/
  row : Nat
  /-- What follows its start, up to the end of the template. -/
  text : List (List Char)
  /-- What stands between its start and its end. -/
  body : List (List Char)

/-- The form that starts in front of a piece. It ends at the first end that follows, or with the
    template. -/
def formBefore (first : Piece) (later : List Piece) : FormText :=
  ⟨first.1, (first :: later).map Prod.snd, (leaveForm (first :: later)).1⟩

/-- The forms of a template. The next one starts after the end of the one before. -/
def formTexts (pieces : List Piece) : List FormText :=
  match _ : enterForm pieces with
  | none => []
  | some (first, later) => formBefore first later :: formTexts (leaveForm (first :: later)).2
termination_by sizeOfPieces pieces
decreasing_by
  exact Nat.lt_of_le_of_lt (sizeOfPieces_leaveForm _) (sizeOfPieces_enterForm ‹_›)

theorem formTexts_of_none {pieces : List Piece} (h : enterForm pieces = none) :
    formTexts pieces = [] := by
  rw [formTexts]
  split
  · rfl
  · simp_all

theorem formTexts_of_some {pieces later : List Piece} {first : Piece}
    (h : enterForm pieces = some (first, later)) :
    formTexts pieces = formBefore first later :: formTexts (leaveForm (first :: later)).2 := by
  rw [formTexts]
  split <;> simp_all

/-! ## Opening tags -/

/-- Where a reader of an opening tag stands. -/
inductive TagPlace where
  /-- Between attributes or in the name of one. -/
  | name
  /-- After an equals sign. -/
  | equals
  /-- In a value without quotes. -/
  | bare
  /-- In a value that the quote ends. -/
  | quoted (quote : Char)

/-- Where the reader stands after one more character. -/
def TagPlace.next : TagPlace → Char → TagPlace
  | name, c => if c = '=' then equals else name
  | equals, c => if isBlank c then equals else if c = '"' ∨ c = '\'' then quoted c else bare
  | bare, c => if isBlank c then name else bare
  | quoted quote, c => if c = quote then name else quoted quote

/-- Does a closing bracket end the tag here? -/
def TagPlace.isOpen : TagPlace → Bool
  | quoted _ => false
  | _ => true

/-- An opening tag: what stands before the first closing bracket outside of quoted values. -/
def openingTag (place : TagPlace) : List Char → List Char
  | [] => []
  | c :: text => if c = '>' ∧ place.isOpen then [] else c :: openingTag (place.next c) text

/-- What stands before the first closing bracket, quoted or not. -/
def untilBracket (text : List Char) : List Char :=
  text.takeWhile (· ≠ '>')

theorem untilBracket_bracket (text : List Char) : untilBracket ('>' :: text) = [] := rfl

theorem untilBracket_append {before : List Char} (h : '>' ∉ before) (text : List Char) :
    untilBracket (before ++ text) = before ++ untilBracket text := by
  refine List.takeWhile_append_of_pos fun c hc => ?_
  exact decide_eq_true (ne_of_mem_of_not_mem hc h)

/-- A bracket is no character of a word. -/
theorem exists_untilBracket_append (text : List Char) :
    ∃ tail, text = untilBracket text ++ tail ∧ tail.head?.any isWord = false := by
  by_cases hbracket : '>' ∈ text
  · obtain ⟨before, after, rfl, hbefore⟩ := List.eq_append_cons_of_mem hbracket
    rw [untilBracket_append hbefore, untilBracket_bracket, List.append_nil]
    exact ⟨'>' :: after, rfl, rfl⟩
  · have hall := untilBracket_append hbracket []
    rw [List.append_nil] at hall
    exact ⟨[], by rw [hall, List.append_nil]; exact (List.append_nil text).symm, rfl⟩

/-- Up to the first bracket there is no difference between the tag and the text. -/
theorem untilBracket_openingTag (place : TagPlace) (text : List Char) :
    untilBracket (openingTag place text) = untilBracket text := by
  induction text generalizing place with
  | nil => rfl
  | cons c text ih =>
    rw [openingTag]
    by_cases hc : c = '>'
    · subst hc
      split <;> rfl
    · have hsingle : '>' ∉ [c] := by simpa using Ne.symm hc
      rw [if_neg (fun h => hc h.1)]
      calc
        untilBracket ([c] ++ openingTag (place.next c) text)
          = [c] ++ untilBracket (openingTag (place.next c) text) := untilBracket_append hsingle _
        _ = [c] ++ untilBracket text := by rw [ih]
        _ = untilBracket ([c] ++ text) := (untilBracket_append hsingle _).symm

/-- Lines on one line, with a space after each. -/
def spaced (lines : List (List Char)) : List Char :=
  lines.flatMap (· ++ [' '])

theorem spaced_cons (line : List Char) (lines : List (List Char)) :
    spaced (line :: lines) = line ++ ' ' :: spaced lines := by
  simp [spaced]

namespace FormText

/-- The opening tag of a form. -/
def tag (f : FormText) : List Char := openingTag .name (spaced f.text)

/-- Is there a token in the form? -/
def HasToken (f : FormText) : Prop := ∃ line ∈ f.body, MentionsToken line

instance (f : FormText) : Decidable f.HasToken :=
  inferInstanceAs (Decidable (∃ line ∈ f.body, MentionsToken line))

/-- Does the form post without a token? -/
def Unprotected (f : FormText) : Prop := CarriesPost f.tag ∧ ¬ f.HasToken

instance (f : FormText) : Decidable f.Unprotected := inferInstanceAs (Decidable (_ ∧ _))

end FormText

/-! ## The check, piece by piece -/

/-- A form of which nothing was read yet. -/
def OpenForm.entered (row : Nat) : OpenForm := ⟨row, [], false, false⟩

theorem enter?_none (row : Nat) (text : List Char) :
    enter? row none text = (cutWhere afterStart? text).map fun parts =>
      ((OpenForm.entered row).extendTag parts.2, parts.2) := by
  have hfind := congrArg (Option.map Prod.snd) (leadsBy_formStart.find? text)
  rw [Option.map_map, Option.map_map] at hfind
  have henter := congrArg
    (Option.map fun rest => ((OpenForm.entered row).extendTag rest, rest)) hfind
  rw [Option.map_map, Option.map_map] at henter
  exact henter

/-- A stretch of a line in which a form is open. -/
theorem readLine_some (s : Subject) (row fuel : Nat) (form : OpenForm) (text : List Char) :
    readLine s row (fuel + 1) (some form) text =
      match cutWhere afterEnd? text with
      | none => ([], some (form.readBody text))
      | some parts =>
        ((form.readBody parts.1).issues s ++ (readLine s row fuel none parts.2).1,
          (readLine s row fuel none parts.2).2) := by
  have hfind := leadsBy_formEnd.find? text
  simp only [readLine, enter?]
  cases hclose : formEnd.find? text with
  | none =>
    rw [hclose, Option.map_none, eq_comm, Option.map_eq_none_iff] at hfind
    rw [hfind]
  | some close =>
    rw [hclose, Option.map_some, eq_comm, Option.map_eq_some_iff] at hfind
    obtain ⟨parts, hparts, heq⟩ := hfind
    obtain ⟨hbody, hrest⟩ := Prod.mk.inj heq
    simp only [hparts, ← hbody, ← hrest, Option.getD_some]

theorem readLine_none (s : Subject) (row fuel : Nat) (text : List Char) :
    readLine s row (fuel + 1) none text =
      match cutWhere afterStart? text with
      | none => ([], none)
      | some parts =>
        readLine s row (fuel + 1) (some ((OpenForm.entered row).extendTag parts.2)) parts.2 := by
  rw [readLine, enter?_none]
  cases cutWhere afterStart? text with
  | none => rfl
  | some parts => rfl

/-- A line has fewer forms than characters. -/
theorem readLine_fuel (s : Subject) (row : Nat) {fuel₁ fuel₂ : Nat} {form : Option OpenForm}
    {text : List Char} (h₁ : text.length < fuel₁) (h₂ : text.length < fuel₂) :
    readLine s row fuel₁ form text = readLine s row fuel₂ form text := by
  induction fuel₁ generalizing fuel₂ form text with
  | zero => cases h₁
  | succ fuel₁ ih =>
    obtain ⟨fuel₂, rfl⟩ := Nat.exists_eq_succ_of_ne_zero (Nat.ne_zero_of_lt h₂)
    -- entering a form takes no fuel, so open forms come first
    have hopen : ∀ (form : OpenForm) (text : List Char), text.length < fuel₁ + 1 →
        text.length < fuel₂ + 1 →
        readLine s row (fuel₁ + 1) (some form) text =
          readLine s row (fuel₂ + 1) (some form) text := by
      intro form text h₁ h₂
      rw [readLine_some, readLine_some]
      cases hcut : cutWhere afterEnd? text with
      | none => rfl
      | some parts =>
        have hshorter := length_of_cutWhere_afterEnd? hcut
        have hrest : readLine s row fuel₁ none parts.2 = readLine s row fuel₂ none parts.2 :=
          ih (by omega) (by omega)
        simp only [hrest]
    cases form with
    | some form => exact hopen form text h₁ h₂
    | none =>
      rw [readLine_none, readLine_none]
      cases hcut : cutWhere afterStart? text with
      | none => rfl
      | some parts =>
        have hshorter := length_of_cutWhere_afterStart? hcut
        exact hopen _ parts.2 (by omega) (by omega)

section Steps

variable (s : Subject) {row : Nat} {text : List Char} {later : List Piece}
  {parts : List Char × List Char}

/-- What follows the start of a form is read with the fuel that its own length asks for. -/
theorem readLine_enter (h : cutWhere afterStart? text = some parts) :
    readLine s row (text.length + 1) none text =
      readLine s row (parts.2.length + 1) (some ((OpenForm.entered row).extendTag parts.2))
        parts.2 := by
  have hshorter := length_of_cutWhere_afterStart? h
  rw [readLine_none, h]
  exact readLine_fuel s row (Nat.lt_succ_of_lt hshorter) (Nat.lt_succ_self _)

/-- So is what follows the end of a form. -/
theorem readLine_leave (h : cutWhere afterEnd? text = some parts) (form : OpenForm) :
    readLine s row (text.length + 1) (some form) text =
      ((form.readBody parts.1).issues s ++ (readLine s row (parts.2.length + 1) none parts.2).1,
        (readLine s row (parts.2.length + 1) none parts.2).2) := by
  have hrest : readLine s row text.length none parts.2 =
      readLine s row (parts.2.length + 1) none parts.2 :=
    readLine_fuel s row (length_of_cutWhere_afterEnd? h) (Nat.lt_succ_self _)
  simp only [readLine_some, h, hrest]

theorem readLines_skip (h : cutWhere afterStart? text = none) :
    readLines s none ((row, text) :: later) = readLines s none later := by
  rw [readLines, Option.map_none, readLine_none, h]
  rfl

theorem readLines_enter (h : cutWhere afterStart? text = some parts) :
    readLines s none ((row, text) :: later) =
      readLines s (some (.entered row)) ((row, parts.2) :: later) := by
  rw [readLines, Option.map_none, readLine_enter s h, readLines, Option.map_some]

theorem readLines_inside (h : cutWhere afterEnd? text = none) (form : OpenForm) :
    readLines s (some form) ((row, text) :: later) =
      readLines s (some ((form.extendTag text).readBody text)) later := by
  rw [readLines, Option.map_some, readLine_some, h]
  rfl

theorem readLines_leave (h : cutWhere afterEnd? text = some parts) (form : OpenForm) :
    readLines s (some form) ((row, text) :: later) =
      ((form.extendTag text).readBody parts.1).issues s ++
        readLines s none ((row, parts.2) :: later) := by
  simp only [readLines, Option.map_some, Option.map_none, readLine_leave s h, List.append_assoc]

end Steps

/-! ## The tag that the check gathers -/

theorem cut?_of_notMem {c : Char} {text : List Char} (h : c ∉ text) : cut? [c] text = none := by
  rw [cut?_eq_none_iff (List.cons_ne_nil _ _)]
  intro hin
  exact h (hin.subset List.mem_cons_self)

theorem cut?_append_cons {c : Char} {before : List Char} (h : c ∉ before) (after : List Char) :
    cut? [c] (before ++ c :: after) = some (before, after) := by
  induction before with
  | nil => simp [cut?]
  | cons d before ih =>
    rw [List.mem_cons, not_or] at h
    rw [List.cons_append, cut?, ih h.2]
    simp [h.1]

namespace OpenForm

theorem hasToken_extendTag (form : OpenForm) (text : List Char) :
    (form.extendTag text).hasToken = form.hasToken := by
  fun_cases extendTag form text <;> rfl

theorem tagClosed_extendTag (form : OpenForm) {text : List Char} (h : '>' ∈ text) :
    (form.extendTag text).tagClosed = true := by
  obtain ⟨before, after, rfl, hbefore⟩ := List.eq_append_cons_of_mem h
  rw [extendTag, cut?_append_cons hbefore]
  split
  · assumption
  · rfl

/-- The tag of an open form after more lines. -/
def tagWith (form : OpenForm) (lines : List (List Char)) : List Char :=
  if form.tagClosed then form.tag else form.tag ++ untilBracket (spaced lines)

theorem tagWith_nil (form : OpenForm) : form.tagWith [] = form.tag := by
  simp [tagWith, spaced, untilBracket]

theorem tagWith_of_closed {form : OpenForm} (h : form.tagClosed = true)
    (lines : List (List Char)) : form.tagWith lines = form.tag := if_pos h

theorem tagWith_extendTag (form : OpenForm) (text : List Char) (lines : List (List Char)) :
    (form.extendTag text).tagWith lines = form.tagWith (text :: lines) := by
  obtain ⟨row, tag, closed, hasToken⟩ := form
  cases closed with
  | true => rfl
  | false =>
    by_cases hbracket : '>' ∈ text
    · obtain ⟨before, after, rfl, hbefore⟩ := List.eq_append_cons_of_mem hbracket
      simp [extendTag, tagWith, cut?_append_cons hbefore, spaced_cons,
        untilBracket_append hbefore, untilBracket_bracket]
    · have hspace : '>' ∉ text ++ [' '] := by simpa using hbracket
      have huntil := untilBracket_append hspace (spaced lines)
      simp_all [extendTag, tagWith, cut?_of_notMem hbracket, spaced_cons]

/-- What an open form has become when it ends, given the pieces from here to the end of the
    template. -/
def ended (form : OpenForm) (pieces : List Piece) : OpenForm :=
  ⟨form.row, form.tagWith (pieces.map Prod.snd), true,
    form.hasToken || (leaveForm pieces).1.any requestToken.isIn⟩

end OpenForm

/-- An open form is read up to its end. -/
theorem readLines_some (s : Subject) (form : OpenForm) (pieces : List Piece) :
    readLines s (some form) pieces =
      (form.ended pieces).issues s ++ readLines s none (leaveForm pieces).2 := by
  -- The form that is handed on from piece to piece changes, what it ends as does not.
  fun_induction leaveForm pieces generalizing form with
  | case1 => simp [readLines, OpenForm.issues, OpenForm.ended, OpenForm.tagWith_nil, leaveForm]
  | case2 row text later parts hcut =>
    obtain ⟨stop, htext⟩ := exists_of_cutWhere_afterEnd? hcut
    have hbracket : '>' ∈ text := by simp [htext]
    have hended : (form.extendTag text).readBody parts.1 = form.ended ((row, text) :: later) := by
      have htag := OpenForm.tagWith_extendTag form text (later.map Prod.snd)
      have hclosed := form.tagClosed_extendTag hbracket
      rw [OpenForm.tagWith_of_closed hclosed] at htag
      simp only [OpenForm.ended, OpenForm.readBody, List.map_cons, ← htag, row_extendTag,
        OpenForm.hasToken_extendTag, leaveForm, hcut, hclosed]
      simp
    rw [readLines_leave s hcut, hended]
  | case3 row text later hcut ih =>
    have hended : ((form.extendTag text).readBody text).ended later =
        form.ended ((row, text) :: later) := by
      have htag := OpenForm.tagWith_extendTag form text (later.map Prod.snd)
      simp only [OpenForm.ended, OpenForm.readBody, List.map_cons, ← htag, row_extendTag,
        OpenForm.hasToken_extendTag, leaveForm, hcut, List.any_cons, Bool.or_assoc]
      rfl
    rw [readLines_inside s hcut, ih, hended]

/-- What is read before a form starts makes no difference. -/
theorem readLines_none_of_enterForm (s : Subject) {pieces later : List Piece} {first : Piece}
    (h : enterForm pieces = some (first, later)) :
    readLines s none pieces = readLines s (some (.entered first.1)) (first :: later) := by
  fun_induction enterForm pieces with
  | case1 => cases h
  | case2 row text later parts hcut =>
    cases h
    exact readLines_enter s hcut
  | case3 row text later hcut ih => rw [readLines_skip s hcut, ih h]

theorem readLines_none_of_enterForm_eq_none (s : Subject) {pieces : List Piece}
    (h : enterForm pieces = none) : readLines s none pieces = [] := by
  fun_induction enterForm pieces with
  | case1 => rfl
  | case2 => cases h
  | case3 row text later hcut ih => rw [readLines_skip s hcut, ih h]

/-! ## What is reported -/

/-- The finding about a form that posts without a token. -/
def missingToken (s : Subject) (f : FormText) : Issue :=
  s.report .template "missing_csrf" .high f.row "POST form without CSRF token"
    "The form posts without a CSRF token" "Add @csrf inside the form"

/-- What a tag holds before a closing bracket it holds as a whole. -/
theorem carriesPost_of_untilBracket {tag : List Char} (h : CarriesPost (untilBracket tag)) :
    CarriesPost tag := by
  obtain ⟨before, name, gap₁, gap₂, quote, gap₃, value, after, htag, hname, hvalue, hgap, hquote,
    hbefore, hafter⟩ := h
  obtain ⟨tail, hsplit, htail⟩ := exists_untilBracket_append tag
  refine ⟨before, name, gap₁, gap₂, quote, gap₃, value, after ++ tail, ?_, hname, hvalue, hgap,
    hquote, hbefore, ?_⟩
  · rw [hsplit, htag]
    simp only [List.append_assoc, List.cons_append]
  · cases after with
    | nil => exact htail
    | cons c after => exact hafter

theorem issues_ended (s : Subject) (first : Piece) (later : List Piece) :
    ((OpenForm.entered first.1).ended (first :: later)).issues s =
      if (formBefore first later).Unprotected ∧
          CarriesPost (untilBracket (formBefore first later).tag) then
        [missingToken s (formBefore first later)]
      else [] := by
  have hrow : ((OpenForm.entered first.1).ended (first :: later)).row =
      (formBefore first later).row := rfl
  have htag : ((OpenForm.entered first.1).ended (first :: later)).tag =
      untilBracket (formBefore first later).tag :=
    (untilBracket_openingTag .name _).symm
  have htoken : ((OpenForm.entered first.1).ended (first :: later)).hasToken = true ↔
      (formBefore first later).HasToken := by
    simp only [OpenForm.ended, OpenForm.entered, Bool.false_or, List.any_eq_true,
      requestToken_isIn_iff]
    rfl
  generalize (OpenForm.entered first.1).ended (first :: later) = form at *
  have hcond : (postMethod.isIn form.tag && !form.hasToken) = true ↔
      (formBefore first later).Unprotected ∧
        CarriesPost (untilBracket (formBefore first later).tag) := by
    rw [Bool.and_eq_true, Bool.not_eq_true', ← Bool.not_eq_true, htoken, postMethod_isIn_iff, htag]
    constructor
    · rintro ⟨hpost, hnone⟩
      exact ⟨⟨carriesPost_of_untilBracket hpost, hnone⟩, hpost⟩
    · rintro ⟨⟨-, hnone⟩, hpost⟩
      exact ⟨hpost, hnone⟩
  simp only [OpenForm.issues, hcond, hrow, missingToken]

/-- The forms that the check reports. -/
theorem readLines_none_eq (s : Subject) (pieces : List Piece) :
    readLines s none pieces = ((formTexts pieces).filter fun f =>
      f.Unprotected ∧ CarriesPost (untilBracket f.tag)).map (missingToken s) := by
  fun_induction formTexts pieces with
  | case1 pieces henter => exact readLines_none_of_enterForm_eq_none s henter
  | case2 pieces first later henter ih =>
    rw [readLines_none_of_enterForm s henter, readLines_some, ih, issues_ended, List.filter_cons]
    by_cases hform : (formBefore first later).Unprotected ∧
        CarriesPost (untilBracket (formBefore first later).tag)
    · rw [if_pos hform, if_pos (decide_eq_true hform)]
      rfl
    · rw [if_neg hform, if_neg (by simpa only [decide_eq_true_eq] using hform)]
      rfl

/-- A filter that keeps less keeps as much only if it keeps the same. -/
theorem map_filter_eq_iff {α β : Type} {p q : α → Bool} (hle : ∀ a, p a = true → q a = true)
    (f : α → β) (l : List α) :
    (l.filter p).map f = (l.filter q).map f ↔ ∀ a ∈ l, q a = true → p a = true := by
  constructor
  · intro h a ha hq
    have hfilter : (l.filter q).filter p = l.filter p := by
      rw [List.filter_filter]
      apply List.filter_congr
      intro b _
      cases hp : p b with
      | false => rfl
      | true => rw [hle b hp]; rfl
    have hlength : ((l.filter q).filter p).length = (l.filter q).length := by
      rw [hfilter]
      simpa using congrArg List.length h
    exact List.length_filter_eq_length_iff.mp hlength a (List.mem_filter.mpr ⟨ha, hq⟩)
  · intro h
    congr 1
    apply List.filter_congr
    intro a ha
    exact Bool.eq_iff_iff.mpr ⟨hle a, h a ha⟩

/-- The check reports the forms that post without a token and show so before the first closing
    bracket. These are all that post without a token if none of them has a closing bracket in a
    value before. -/
theorem run_reports_forms (s : Subject) :
    run s = ((formTexts s.templateLines).filter fun f =>
        f.Unprotected ∧ CarriesPost (untilBracket f.tag)).map (missingToken s) ∧
      (run s = ((formTexts s.templateLines).filter fun f => f.Unprotected).map (missingToken s) ↔
        ∀ f ∈ formTexts s.templateLines, f.Unprotected → CarriesPost (untilBracket f.tag)) := by
  have hrun := readLines_none_eq s s.templateLines
  refine ⟨hrun, ?_⟩
  rw [run, hrun, map_filter_eq_iff]
  · simp only [decide_eq_true_eq]
    exact forall₂_congr fun f _ => ⟨fun h hf => (h hf).2, fun h hf => ⟨hf, h hf⟩⟩
  · intro f hf
    rw [decide_eq_true_eq] at hf ⊢
    exact hf.1

/-- The rest of an opening tag with an arrow in its address. -/
def arrowTag : List Char :=
  " action=\"/posts/\x7b\x7b $post->id \x7d\x7d\" method=\"POST\">".toList

/-- A template with one form that posts and has no token. -/
def arrowTemplate : Subject :=
  .ofSource "resources/views/a.blade.php"
    ⟨.blade, "<form".toList ++ arrowTag ++ "\n</form>\n".toList, none, none⟩ .view
    Subject.defaultRadius

/-- The form in the template. -/
def arrowForm : FormText := formBefore (1, arrowTag) [(2, "</form>".toList)]

theorem formTexts_arrowTemplate : formTexts arrowTemplate.templateLines = [arrowForm] := by
  have hlines : arrowTemplate.templateLines =
      [(1, "<form".toList ++ arrowTag), (2, "</form>".toList)] := by
    rw [Subject.templateLines, Source.blankTemplateComments, Source.blankTemplateFrom_eq_self]
    · decide +kernel
    · decide +kernel
  have henter : enterForm [(1, "<form".toList ++ arrowTag), (2, "</form>".toList)] =
      some ((1, arrowTag), [(2, "</form>".toList)]) := by decide +kernel
  have hleave : (leaveForm [(1, arrowTag), (2, "</form>".toList)]).2 = [(2, [])] := by
    decide +kernel
  have hlater : formTexts [(2, [])] = [] := formTexts_of_none (by decide +kernel)
  rw [hlines, formTexts_of_some henter, hleave, hlater, arrowForm]

/-- The tag is taken to end at the arrow, before its method. -/
theorem arrow_hides_method :
    (∃ f ∈ formTexts arrowTemplate.templateLines, f.row = 1 ∧ f.Unprotected) ∧
      run arrowTemplate = [] := by
  have hform : arrowForm.Unprotected := by decide +kernel
  have hcut : ¬ CarriesPost (untilBracket arrowForm.tag) := by decide +kernel
  constructor
  · rw [formTexts_arrowTemplate]
    exact ⟨arrowForm, List.mem_singleton.mpr rfl, rfl, hform⟩
  · rw [run, readLines_none_eq, formTexts_arrowTemplate]
    simp [hcut]

end CodeAudit.Check.Form
