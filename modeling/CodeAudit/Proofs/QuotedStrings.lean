import CodeAudit.Proofs.EncodedText
import CodeAudit.Source.Quoting

/-!
# Blanking quoted strings keeps every offset

Checks look for things in a line whose strings are blanked and then cut the line itself at the
offsets that they found. This is sound because blanking works byte by byte. A byte stays if no
string is open before it or none is open after it, which are the bytes outside of strings and the
quotes around strings; every other byte becomes a space.

When a string is open is said by a grammar of bytes, `Closed`. The reader of quotes is the machine
of that grammar, and it may read the bytes of a text or its characters: no byte of a character
beyond ASCII looks like a quote or a backslash.

Results:
* `closed_iff`: the reader is outside of strings exactly after what the grammar derives.
* `utf8_blank`: blanking the characters of a text blanks its bytes.
* `getElem?_blankBytes`: what each byte becomes.
* `blank_append`, `blank_blank`: blanking goes from left to right, and only once.
* `blankStrings_keeps_offsets`: all of this about a line.
-/

namespace CodeAudit.Source

open Text

/-! ## Which bytes are inside of strings -/

/-- Is a byte a quote of either kind? -/
def IsQuote (b : UInt8) : Prop :=
  b = '\''.toUInt8 ∨ b = '"'.toUInt8

instance : DecidablePred IsQuote := fun b =>
  inferInstanceAs (Decidable (b = '\''.toUInt8 ∨ b = '"'.toUInt8))

/-- What may stand between the quotes of a string: bytes that are neither its quote nor a
    backslash, and backslashes with any byte after each. -/
inductive Contents (quote : UInt8) : List UInt8 → Prop where
  | nil : Contents quote []
  | plain {b : UInt8} {rest : List UInt8} :
    b ≠ quote → b ≠ '\\'.toUInt8 → Contents quote rest → Contents quote (b :: rest)
  | escaped {b : UInt8} {rest : List UInt8} :
    Contents quote rest → Contents quote ('\\'.toUInt8 :: b :: rest)

/-- Bytes after which no string is open: bytes that are no quotes, and strings with the quotes on
    both sides. -/
inductive Closed : List UInt8 → Prop where
  | nil : Closed []
  | plain {b : UInt8} {rest : List UInt8} : ¬ IsQuote b → Closed rest → Closed (b :: rest)
  | string {quote : UInt8} {contents rest : List UInt8} :
    IsQuote quote → Contents quote contents → Closed rest →
      Closed (quote :: (contents ++ quote :: rest))

/-- Bytes that end a string and leave none open. -/
def Ends (quote : UInt8) (bytes : List UInt8) : Prop :=
  ∃ contents rest, bytes = contents ++ quote :: rest ∧ Contents quote contents ∧ Closed rest

/-- Is the byte at an offset outside of strings, or a quote around one? -/
def StandsOutside (bytes : List UInt8) (i : Nat) : Prop :=
  Closed (bytes.take i) ∨ Closed (bytes.take (i + 1))

namespace Quoting

/-- The state after a text. -/
def read (s : Quoting) (text : List Char) : Quoting :=
  text.foldl step s

/-- The state after one more byte, which is read as a character. -/
def stepByte (s : Quoting) (b : UInt8) : Quoting :=
  s.step (Char.ofUInt8 b)

/-- The state after some bytes. -/
def readBytes (s : Quoting) (bytes : List UInt8) : Quoting :=
  bytes.foldl stepByte s

/-- The rest of a line with the contents of strings blanked, byte by byte. -/
def blankBytes : Quoting → List UInt8 → List UInt8
  | _, [] => []
  | s, b :: rest =>
    (if s.keeps (Char.ofUInt8 b) then b else ' '.toUInt8) :: blankBytes (s.stepByte b) rest

@[simp] theorem read_cons (s : Quoting) (c : Char) (text : List Char) :
    s.read (c :: text) = (s.step c).read text := rfl

@[simp] theorem readBytes_nil (s : Quoting) : s.readBytes [] = s := rfl

@[simp] theorem readBytes_cons (s : Quoting) (b : UInt8) (rest : List UInt8) :
    s.readBytes (b :: rest) = (s.stepByte b).readBytes rest := rfl

theorem readBytes_append (s : Quoting) (a b : List UInt8) :
    s.readBytes (a ++ b) = (s.readBytes a).readBytes b := List.foldl_append

/-- A character stays exactly if it is met, or left, outside of strings. -/
theorem keeps_iff (s : Quoting) (c : Char) :
    s.keeps c = true ↔ s = outside ∨ s.step c = outside := by
  cases s with
  | outside => simp [keeps]
  | inside q escaped =>
    cases escaped with
    | true => simp [keeps, step]
    | false =>
      by_cases hbackslash : c = '\\'
      · simp [keeps, step, hbackslash]
      · by_cases hq : c = q <;> simp [keeps, step, hbackslash, hq]

end Quoting

/-! ## The reader is the machine of the grammar -/

theorem closed_cons_of_isQuote {b : UInt8} (hb : IsQuote b) (bytes : List UInt8) :
    Closed (b :: bytes) ↔ Ends b bytes := by
  constructor
  · intro h
    cases h with
    | plain hplain _ => exact absurd hb hplain
    | string _ hcontents hrest => exact ⟨_, _, rfl, hcontents, hrest⟩
  · rintro ⟨contents, rest, rfl, hcontents, hrest⟩
    exact .string hb hcontents hrest

theorem closed_cons_of_not_isQuote {b : UInt8} (hb : ¬ IsQuote b) (bytes : List UInt8) :
    Closed (b :: bytes) ↔ Closed bytes := by
  constructor
  · intro h
    cases h with
    | plain _ hrest => exact hrest
    | string hquote _ _ => exact absurd hquote hb
  · exact .plain hb

section Ends

variable {quote b : UInt8} (bytes : List UInt8)

/-- The quote ends the string. -/
theorem ends_cons_quote (hquote : quote ≠ '\\'.toUInt8) (hb : b = quote) :
    Ends quote (b :: bytes) ↔ Closed bytes := by
  constructor
  · rintro ⟨contents, rest, hbytes, hcontents, hrest⟩
    cases hcontents with
    | nil =>
      cases hbytes
      exact hrest
    | plain hne _ _ =>
      cases hbytes
      exact absurd hb hne
    | escaped _ =>
      cases hbytes
      exact absurd hb.symm hquote
  · intro hrest
    exact ⟨[], bytes, by rw [hb, List.nil_append], .nil, hrest⟩

/-- A backslash takes the next byte with it. -/
theorem ends_cons_backslash (hquote : quote ≠ '\\'.toUInt8) (hb : b = '\\'.toUInt8) :
    Ends quote (b :: bytes) ↔ ∃ a rest, bytes = a :: rest ∧ Ends quote rest := by
  constructor
  · rintro ⟨contents, rest, hbytes, hcontents, hrest⟩
    cases hcontents with
    | nil =>
      cases hbytes
      exact absurd hb hquote
    | plain _ hne _ =>
      cases hbytes
      exact absurd hb hne
    | escaped hcontents =>
      cases hbytes
      exact ⟨_, _, rfl, _, _, rfl, hcontents, hrest⟩
  · rintro ⟨a, _, rfl, contents, rest, rfl, hcontents, hrest⟩
    exact ⟨b :: a :: contents, rest, rfl, hb ▸ .escaped hcontents, hrest⟩

/-- Any other byte stands for itself. -/
theorem ends_cons_plain (hquote : b ≠ quote) (hbackslash : b ≠ '\\'.toUInt8) :
    Ends quote (b :: bytes) ↔ Ends quote bytes := by
  constructor
  · rintro ⟨contents, rest, hbytes, hcontents, hrest⟩
    cases hcontents with
    | nil =>
      cases hbytes
      exact absurd rfl hquote
    | plain _ _ hcontents =>
      cases hbytes
      exact ⟨_, _, rfl, hcontents, hrest⟩
    | escaped _ =>
      cases hbytes
      exact absurd rfl hbackslash
  · rintro ⟨contents, rest, rfl, hcontents, hrest⟩
    exact ⟨b :: contents, rest, rfl, .plain hquote hbackslash hcontents, hrest⟩

end Ends

namespace Quoting

/-- What may follow a state and leave no string open. -/
def Leaves : Quoting → List UInt8 → Prop
  | outside, bytes => Closed bytes
  | inside q false, bytes => Ends q.toUInt8 bytes
  | inside q true, bytes => ∃ b rest, bytes = b :: rest ∧ Ends q.toUInt8 rest

/-- Can the state be reached from outside of strings? -/
def Proper : Quoting → Prop
  | outside => True
  | inside q _ => q = '\'' ∨ q = '"'

theorem proper_outside : outside.Proper := trivial

theorem Proper.step {s : Quoting} (h : s.Proper) (c : Char) : (s.step c).Proper := by
  cases s with
  | outside =>
    rw [Quoting.step]
    split
    · assumption
    · trivial
  | inside q escaped =>
    cases escaped with
    | true => exact h
    | false =>
      rw [Quoting.step]
      split
      · exact h
      · split
        · trivial
        · exact h

theorem Proper.stepByte {s : Quoting} (h : s.Proper) (b : UInt8) : (s.stepByte b).Proper :=
  h.step _

theorem Proper.utf8Size {q : Char} {escaped : Bool} (h : (inside q escaped).Proper) :
    q.utf8Size = 1 := by
  rcases h with rfl | rfl <;> rfl

theorem Proper.ne_backslash {q : Char} {escaped : Bool} (h : (inside q escaped).Proper) :
    q.toUInt8 ≠ '\\'.toUInt8 := by
  rcases h with rfl | rfl <;> decide

theorem stepByte_outside (b : UInt8) :
    (IsQuote b ∧ outside.stepByte b = inside (Char.ofUInt8 b) false) ∨
      (¬ IsQuote b ∧ outside.stepByte b = outside) := by
  have hsingle : Char.ofUInt8 b = '\'' ↔ b = '\''.toUInt8 := ofUInt8_eq_iff rfl
  have hdouble : Char.ofUInt8 b = '"' ↔ b = '"'.toUInt8 := ofUInt8_eq_iff rfl
  simp only [stepByte, Quoting.step, hsingle, hdouble]
  by_cases h : IsQuote b
  · exact .inl ⟨h, if_pos h⟩
  · exact .inr ⟨h, if_neg h⟩

theorem stepByte_inside {q : Char} (h : (inside q false).Proper) (b : UInt8) :
    (b = '\\'.toUInt8 ∧ (inside q false).stepByte b = inside q true) ∨
      (b = q.toUInt8 ∧ (inside q false).stepByte b = outside) ∨
      (b ≠ '\\'.toUInt8 ∧ b ≠ q.toUInt8 ∧ (inside q false).stepByte b = inside q false) := by
  have hbackslash : Char.ofUInt8 b = '\\' ↔ b = '\\'.toUInt8 := ofUInt8_eq_iff rfl
  have hquote : Char.ofUInt8 b = q ↔ b = q.toUInt8 := ofUInt8_eq_iff h.utf8Size
  simp only [stepByte, Quoting.step, hbackslash, hquote]
  by_cases hb : b = '\\'.toUInt8
  · exact .inl ⟨hb, if_pos hb⟩
  · simp only [if_neg hb]
    by_cases hq : b = q.toUInt8
    · exact .inr (.inl ⟨hq, if_pos hq⟩)
    · exact .inr (.inr ⟨hb, hq, if_neg hq⟩)

/-- What may follow a state, by its first byte. -/
theorem leaves_cons {s : Quoting} (h : s.Proper) (b : UInt8) (bytes : List UInt8) :
    s.Leaves (b :: bytes) ↔ (s.stepByte b).Leaves bytes := by
  cases s with
  | outside =>
    rcases stepByte_outside b with ⟨hb, hstep⟩ | ⟨hb, hstep⟩
    · rw [hstep, Leaves, Leaves, toUInt8_ofUInt8]
      exact closed_cons_of_isQuote hb bytes
    · rw [hstep]
      exact closed_cons_of_not_isQuote hb bytes
  | inside q escaped =>
    cases escaped with
    | true =>
      constructor
      · rintro ⟨_, rest, hbytes, hends⟩
        cases hbytes
        exact hends
      · exact fun hends => ⟨b, bytes, rfl, hends⟩
    | false =>
      rcases stepByte_inside h b with ⟨hb, hstep⟩ | ⟨hb, hstep⟩ | ⟨hb, hq, hstep⟩
      · rw [hstep]
        exact ends_cons_backslash bytes h.ne_backslash hb
      · rw [hstep]
        exact ends_cons_quote bytes h.ne_backslash hb
      · rw [hstep]
        exact ends_cons_plain bytes hq hb

theorem readBytes_eq_outside_iff {s : Quoting} (h : s.Proper) (bytes : List UInt8) :
    s.readBytes bytes = outside ↔ s.Leaves bytes := by
  induction bytes generalizing s with
  | nil =>
    cases s with
    | outside => exact iff_of_true rfl Closed.nil
    | inside q escaped => cases escaped <;> simp [Leaves, Ends]
  | cons b bytes ih =>
    rw [readBytes_cons, leaves_cons h]
    exact ih (h.stepByte b)

/-- No string is open exactly when the reader stands outside of strings. -/
theorem closed_iff (bytes : List UInt8) : Closed bytes ↔ outside.readBytes bytes = outside :=
  (readBytes_eq_outside_iff proper_outside bytes).symm

instance : DecidablePred Closed := fun bytes => decidable_of_iff _ (closed_iff bytes).symm

example : Closed (utf8 "f('it\\'s')".toList) ∧ ¬ Closed (utf8 "f('it\\'".toList) := by
  decide +kernel

/-! ## Bytes of characters beyond ASCII -/

/-- The state with no backslash pending. -/
def calm : Quoting → Quoting
  | outside => outside
  | inside q _ => inside q false

@[simp] theorem calm_calm (s : Quoting) : s.calm.calm = s.calm := by
  cases s <;> rfl

theorem calm_eq_outside_iff (s : Quoting) : s.calm = outside ↔ s = outside := by
  cases s <;> simp [calm]

theorem Proper.calm {s : Quoting} (h : s.Proper) : s.calm.Proper := by
  cases s with
  | outside => trivial
  | inside q escaped => exact h

/-- A character beyond ASCII only takes a pending backslash away. -/
theorem step_beyond {s : Quoting} (h : s.Proper) {c : Char} (hc : c.utf8Size ≠ 1) :
    s.step c = s.calm := by
  cases s with
  | outside =>
    rw [step, if_neg]
    · rfl
    · rintro (rfl | rfl) <;> exact hc rfl
  | inside q escaped =>
    cases escaped with
    | true => rfl
    | false =>
      have hbackslash : c ≠ '\\' := by
        rintro rfl
        exact hc rfl
      have hquote : c ≠ q := by
        rintro rfl
        exact hc h.utf8Size
      rw [step, if_neg hbackslash, if_neg hquote]
      rfl

theorem keeps_beyond {s : Quoting} (h : s.Proper) {c : Char} (hc : c.utf8Size ≠ 1) :
    s.keeps c = true ↔ s = outside := by
  rw [keeps_iff, step_beyond h hc, calm_eq_outside_iff, or_self_iff]

theorem readBytes_beyond {s : Quoting} (h : s.Proper) {bytes : List UInt8} (hne : bytes ≠ [])
    (hbytes : ∀ b ∈ bytes, 128 ≤ b) : s.readBytes bytes = s.calm := by
  induction bytes generalizing s with
  | nil => exact absurd rfl hne
  | cons b rest ih =>
    have hstep : s.stepByte b = s.calm :=
      step_beyond h (utf8Size_ofUInt8 (hbytes b List.mem_cons_self))
    rw [readBytes_cons, hstep]
    cases rest with
    | nil => rfl
    | cons b' rest =>
      rw [ih h.calm (List.cons_ne_nil _ _) fun b hb => hbytes b (List.mem_cons_of_mem _ hb),
        calm_calm]

theorem blankBytes_beyond {s : Quoting} (h : s.Proper) {bytes : List UInt8}
    (hbytes : ∀ b ∈ bytes, 128 ≤ b) :
    s.blankBytes bytes =
      if s = outside then bytes else List.replicate bytes.length ' '.toUInt8 := by
  induction bytes generalizing s with
  | nil => rw [blankBytes, List.length_nil, List.replicate_zero, ite_self]
  | cons b rest ih =>
    have hb : (Char.ofUInt8 b).utf8Size ≠ 1 := utf8Size_ofUInt8 (hbytes b List.mem_cons_self)
    have hrest := ih h.calm fun b hb => hbytes b (List.mem_cons_of_mem _ hb)
    rw [blankBytes, stepByte, step_beyond h hb, hrest]
    simp only [keeps_beyond h hb, calm_eq_outside_iff]
    by_cases hs : s = outside
    · simp only [if_pos hs]
    · simp only [if_neg hs]
      rfl

/-! ## Characters and bytes -/

theorem readBytes_utf8EncodeChar {s : Quoting} (h : s.Proper) (c : Char) :
    s.readBytes (String.utf8EncodeChar c) = s.step c := by
  by_cases hc : c.utf8Size = 1
  · rw [utf8EncodeChar_ascii hc, readBytes_cons, readBytes_nil, stepByte, ofUInt8_toUInt8 hc]
  · rw [readBytes_beyond h String.utf8EncodeChar_ne_nil (le_of_mem_utf8EncodeChar hc),
      step_beyond h hc]

theorem blankBytes_utf8EncodeChar {s : Quoting} (h : s.Proper) (c : Char) :
    s.blankBytes (String.utf8EncodeChar c) =
      if s.keeps c then String.utf8EncodeChar c else List.replicate c.utf8Size ' '.toUInt8 := by
  by_cases hc : c.utf8Size = 1
  · rw [utf8EncodeChar_ascii hc, blankBytes, ofUInt8_toUInt8 hc, blankBytes, hc]
    split <;> rfl
  · rw [blankBytes_beyond h (le_of_mem_utf8EncodeChar hc), String.length_utf8EncodeChar]
    simp only [keeps_beyond h hc]

theorem blankBytes_append (s : Quoting) (a b : List UInt8) :
    s.blankBytes (a ++ b) = s.blankBytes a ++ (s.readBytes a).blankBytes b := by
  induction a generalizing s with
  | nil => rfl
  | cons x a ih =>
    rw [List.cons_append, blankBytes, blankBytes, ih, readBytes_cons, List.cons_append]

/-- Reading the bytes of a text is reading its characters. -/
theorem readBytes_utf8 {s : Quoting} (h : s.Proper) (text : List Char) :
    s.readBytes (utf8 text) = s.read text := by
  induction text generalizing s with
  | nil => rfl
  | cons c text ih =>
    rw [utf8_cons, readBytes_append, readBytes_utf8EncodeChar h, ih (h.step c), read_cons]

/-- Blanking the characters of a text blanks its bytes. -/
theorem utf8_blank {s : Quoting} (h : s.Proper) (text : List Char) :
    utf8 (s.blank text) = s.blankBytes (utf8 text) := by
  induction text generalizing s with
  | nil => rfl
  | cons c text ih =>
    rw [utf8_cons, blankBytes_append, readBytes_utf8EncodeChar h, blankBytes_utf8EncodeChar h,
      ← ih (h.step c), blank]
    split
    · rfl
    · rw [utf8_append, utf8_replicate_space]

theorem length_blankBytes (s : Quoting) (bytes : List UInt8) :
    (s.blankBytes bytes).length = bytes.length := by
  induction bytes generalizing s with
  | nil => rfl
  | cons b bytes ih => rw [blankBytes, List.length_cons, List.length_cons, ih]

theorem byteLength_blank {s : Quoting} (h : s.Proper) (text : List Char) :
    byteLength (s.blank text) = byteLength text := by
  rw [← length_utf8, utf8_blank h, length_blankBytes, length_utf8]

/-- What each byte becomes. -/
theorem getElem?_blankBytes (s : Quoting) (bytes : List UInt8) (i : Nat) :
    (s.blankBytes bytes)[i]? = bytes[i]?.map fun b =>
      if (s.readBytes (bytes.take i)).keeps (Char.ofUInt8 b) then b else ' '.toUInt8 := by
  induction bytes generalizing s i with
  | nil => rfl
  | cons b bytes ih =>
    cases i with
    | zero => rfl
    | succ i =>
      rw [blankBytes, List.getElem?_cons_succ, List.getElem?_cons_succ, List.take_succ_cons,
        readBytes_cons, ih]

theorem keeps_iff_standsOutside {bytes : List UInt8} {i : Nat} {b : UInt8}
    (h : bytes[i]? = some b) :
    (outside.readBytes (bytes.take i)).keeps (Char.ofUInt8 b) = true ↔ StandsOutside bytes i := by
  have htake : bytes.take (i + 1) = bytes.take i ++ [b] := by
    rw [List.take_add_one, h]
    rfl
  rw [keeps_iff, StandsOutside, closed_iff, closed_iff, htake, readBytes_append]
  rfl

/-! ## Parts of a line -/

theorem blank_append (s : Quoting) (a b : List Char) :
    s.blank (a ++ b) = s.blank a ++ (s.read a).blank b := by
  induction a generalizing s with
  | nil => rfl
  | cons c a ih =>
    rw [List.cons_append, blank, blank, ih, read_cons]
    split
    · rfl
    · rw [List.append_assoc]

theorem blank_spaces {q : Char} (h : (inside q false).Proper) (n : Nat) (text : List Char) :
    (inside q false).blank (List.replicate n ' ' ++ text) =
      List.replicate n ' ' ++ (inside q false).blank text := by
  have hq : ' ' ≠ q := by
    rcases h with rfl | rfl <;> decide
  induction n with
  | zero => rfl
  | succ n ih =>
    have hkeeps : (inside q false).keeps ' ' = false := by simp [keeps, hq]
    have hstep : (inside q false).step ' ' = inside q false := by simp [step, hq]
    rw [List.replicate_succ, List.cons_append, blank, hkeeps, hstep, ih]
    rfl

/-- What is kept leaves no backslash pending. -/
theorem calm_of_keeps {s : Quoting} {c : Char} (h : s.keeps c = true) :
    s.calm = s ∧ (s.step c).calm = s.step c := by
  constructor
  · cases s with
    | outside => rfl
    | inside q escaped =>
      cases escaped with
      | true => cases h
      | false => rfl
  · rcases (keeps_iff s c).mp h with rfl | hout
    · rw [step]
      split <;> rfl
    · rw [hout]
      rfl

/-- What is not kept stands inside of a string, and so does what follows it. -/
theorem calm_of_not_keeps {s : Quoting} {c : Char} (h : ¬ s.keeps c = true) :
    ∃ q, s.calm = inside q false ∧ (s.step c).calm = inside q false := by
  cases s with
  | outside => exact absurd rfl h
  | inside q escaped =>
    refine ⟨q, rfl, ?_⟩
    cases escaped with
    | true => rfl
    | false =>
      rw [step]
      by_cases hbackslash : c = '\\'
      · rw [if_pos hbackslash]
        rfl
      · have hquote : c ≠ q := by
          rintro rfl
          exact h (by simp [keeps, hbackslash])
        rw [if_neg hbackslash, if_neg hquote]
        rfl

/-- A blanked text has nothing left to blank. Its backslashes are gone, so that none is pending
    where one was. -/
theorem blank_blank {s : Quoting} (h : s.Proper) (text : List Char) :
    s.calm.blank (s.blank text) = s.blank text := by
  induction text generalizing s with
  | nil => rfl
  | cons c text ih =>
    have hrest := ih (h.step c)
    rw [blank]
    by_cases hkeeps : s.keeps c = true
    · obtain ⟨hcalm, hstep⟩ := calm_of_keeps hkeeps
      rw [hstep] at hrest
      rw [if_pos hkeeps, hcalm, blank, if_pos hkeeps, hrest]
    · obtain ⟨q, hcalm, hstep⟩ := calm_of_not_keeps hkeeps
      have hproper : (inside q false).Proper := hcalm ▸ h.calm
      rw [hstep] at hrest
      rw [if_neg hkeeps, hcalm, blank_spaces hproper, hrest]

end Quoting

/-- The first bytes of a blanked line are the first bytes of the line, blanked. -/
theorem takeBytes?_blankStrings {n : Nat} {line start : List Char}
    (h : takeBytes? n line = some start) :
    takeBytes? n (blankStrings line) = some (blankStrings start) := by
  obtain ⟨⟨rest, rfl⟩, hlength⟩ := takeBytes?_eq_some_iff.mp h
  refine takeBytes?_eq_some_iff.mpr ⟨?_, ?_⟩
  · rw [blankStrings, blankStrings, Quoting.blank_append]
    exact List.prefix_append _ _
  · rw [blankStrings, Quoting.byteLength_blank Quoting.proper_outside, hlength]

/-- Blanking the strings of a line, byte by byte, gives valid UTF-8 of the same length. A byte
    outside of strings and a quote around a string stay, and every other byte becomes a space. What
    is blanked stays as it is, and the start of a line is blanked like the line. -/
theorem blankStrings_keeps_offsets (line : List Char) :
    String.fromUTF8? (Quoting.outside.blankBytes (utf8 line)).toByteArray =
        some (String.ofList (blankStrings line)) ∧
      byteLength (blankStrings line) = byteLength line ∧
      (∀ i b, (utf8 line)[i]? = some b →
        (StandsOutside (utf8 line) i → (utf8 (blankStrings line))[i]? = some b) ∧
        (¬ StandsOutside (utf8 line) i → (utf8 (blankStrings line))[i]? = some ' '.toUInt8)) ∧
      blankStrings (blankStrings line) = blankStrings line ∧
      ∀ n start, takeBytes? n line = some start →
        takeBytes? n (blankStrings line) = some (blankStrings start) := by
  have hbytes : utf8 (blankStrings line) = Quoting.outside.blankBytes (utf8 line) :=
    Quoting.utf8_blank Quoting.proper_outside line
  refine ⟨?_, Quoting.byteLength_blank Quoting.proper_outside line, ?_,
    Quoting.blank_blank Quoting.proper_outside line, fun _ _ => takeBytes?_blankStrings⟩
  · rw [← hbytes, fromUTF8?_utf8]
  · intro i b hb
    have hkeeps := Quoting.keeps_iff_standsOutside hb
    rw [hbytes, Quoting.getElem?_blankBytes, hb, Option.map_some]
    constructor
    · intro houtside
      rw [if_pos (hkeeps.mpr houtside)]
    · intro hinside
      rw [if_neg fun h => hinside (hkeeps.mp h)]

end CodeAudit.Source
