import CodeAudit.Text.CharClass

/-!
# Searching and trimming

Plain searches for a fixed word, and the removal of white space at the ends. `cut?` splits a text
at the first occurrence of a word; `length_cut?` says that nothing is lost.
-/

namespace CodeAudit.Text

/-- Does the text begin with the word? -/
def beginsWith (word : String) (text : List Char) : Bool :=
  word.toList.isPrefixOf text

/-- Does the text end with the word? -/
def endsWith (word : String) (text : List Char) : Bool :=
  word.toList.isSuffixOf text

/-- Does the word occur in the text? -/
def occurs (word : List Char) : List Char → Bool
  | [] => word.isEmpty
  | c :: rest => word.isPrefixOf (c :: rest) || occurs word rest

/-- Does the word occur in the text? -/
def mentions (word : String) (text : List Char) : Bool :=
  occurs word.toList text

/-- What stands before and after the first occurrence of the word. -/
def cut? (word : List Char) : List Char → Option (List Char × List Char)
  | [] => if word.isEmpty then some ([], []) else none
  | c :: rest =>
    if word.isPrefixOf (c :: rest) then some ([], (c :: rest).drop word.length)
    else (cut? word rest).map fun parts => (c :: parts.1, parts.2)

/-- What follows each occurrence of the word, where occurrences do not overlap. -/
def tails (word : List Char) : Nat → List Char → List (List Char)
  | 0, _ => []
  | fuel + 1, text =>
    match cut? word text with
    | none => []
    | some (_, rest) => rest :: tails word fuel rest

/-- The text without white space at its start. -/
def trimStart (text : List Char) : List Char :=
  text.dropWhile isBlank

/-- The text without white space at its end. -/
def trimEnd (text : List Char) : List Char :=
  (text.reverse.dropWhile isBlank).reverse

/-- The text without white space at its ends. -/
def trim (text : List Char) : List Char :=
  trimEnd (trimStart text)

/-- A line that holds white space only. -/
def isBlankLine (text : List Char) : Bool :=
  text.all isBlank

/-- Pieces of a text between the separators, at least one. -/
def splitAt (separator : Char) : List Char → List (List Char)
  | [] => [[]]
  | c :: rest =>
    if c = separator then [] :: splitAt separator rest
    else
      match splitAt separator rest with
      | [] => [[c]]
      | piece :: pieces => (c :: piece) :: pieces

/-- What stands after the last separator, or the whole text. -/
def afterLast (separator : Char) (text : List Char) : List Char :=
  (text.reverse.takeWhile (· ≠ separator)).reverse

/-- ASCII capitals become small letters; all else stays. -/
def lowerAscii (text : List Char) : List Char :=
  text.map Char.toLower

theorem length_le_of_isPrefixOf {word text : List Char} (h : word.isPrefixOf text = true) :
    word.length ≤ text.length := by
  induction word generalizing text with
  | nil => simp
  | cons c word ih =>
    cases text with
    | nil => simp [List.isPrefixOf] at h
    | cons d text =>
      simp only [List.isPrefixOf, Bool.and_eq_true] at h
      have := ih h.2
      simp only [List.length_cons]
      omega

theorem length_cut? {word text before after : List Char}
    (h : cut? word text = some (before, after)) :
    before.length + word.length + after.length = text.length := by
  induction text generalizing before with
  | nil =>
    simp only [cut?] at h
    split at h <;> simp_all
  | cons c rest ih =>
    simp only [cut?] at h
    split at h
    · rename_i hp
      have hle := length_le_of_isPrefixOf hp
      simp only [Option.some.injEq, Prod.mk.injEq] at h
      obtain ⟨rfl, rfl⟩ := h
      simp only [List.length_nil, List.length_drop, List.length_cons] at *
      omega
    · obtain ⟨⟨a, b⟩, hab, heq⟩ := Option.map_eq_some_iff.mp h
      simp only [Prod.mk.injEq] at heq
      obtain ⟨rfl, rfl⟩ := heq
      have := ih hab
      simp only [List.length_cons]
      omega

end CodeAudit.Text
