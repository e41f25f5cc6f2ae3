import CodeAudit.Text.Bytes

/-!
# Texts as bytes

A text is a list of characters, and offsets into it count the bytes of its UTF-8 form. The one byte
of an ASCII character is the character itself, and the bytes of any other character are 128 or more.
So whatever looks for ASCII characters finds the same places among the bytes and among the
characters, and every place that it finds is the start of a character.

Results:
* `takeBytes?_eq_some_iff`, `dropBytes?_append`: a cut at a byte offset is a cut of the text.
* `utf8_prefix_iff`: the bytes of one text begin those of another only if the text begins the other.
* `exists_split_of_getElem?_utf8`: a byte below 128 starts a character.
* `fromUTF8?_utf8`: the bytes of a text are valid and give the text back.
-/

namespace CodeAudit.Text

/-- The bytes of a text. -/
def utf8 (text : List Char) : List UInt8 :=
  text.flatMap String.utf8EncodeChar

@[simp] theorem utf8_nil : utf8 [] = [] := rfl

theorem utf8_cons (c : Char) (text : List Char) :
    utf8 (c :: text) = String.utf8EncodeChar c ++ utf8 text := rfl

@[simp] theorem utf8_append (a b : List Char) : utf8 (a ++ b) = utf8 a ++ utf8 b :=
  List.flatMap_append

@[simp] theorem length_utf8 (text : List Char) : (utf8 text).length = byteLength text := by
  induction text with
  | nil => rfl
  | cons c text ih =>
    rw [utf8_cons, List.length_append, String.length_utf8EncodeChar, ih, byteLength_cons]

theorem byteLength_pos {text : List Char} (h : text ≠ []) : 0 < byteLength text := by
  cases text with
  | nil => exact absurd rfl h
  | cons c text =>
    rw [byteLength_cons]
    exact Nat.add_pos_left c.utf8Size_pos _

/-! ## Bytes of one character -/

theorem utf8EncodeChar_ascii {c : Char} (h : c.utf8Size = 1) :
    String.utf8EncodeChar c = [c.toUInt8] :=
  String.utf8EncodeChar_eq_singleton h

theorem utf8_cons_ascii {c : Char} (h : c.utf8Size = 1) (text : List Char) :
    utf8 (c :: text) = c.toUInt8 :: utf8 text := by
  rw [utf8_cons, utf8EncodeChar_ascii h, List.singleton_append]

theorem utf8_replicate_space (n : Nat) :
    utf8 (List.replicate n ' ') = List.replicate n ' '.toUInt8 := by
  induction n with
  | zero => rfl
  | succ n ih => rw [List.replicate_succ, utf8_cons_ascii rfl, ih, List.replicate_succ]

/-- The bytes of a character beyond ASCII are all beyond ASCII. -/
theorem le_of_mem_utf8EncodeChar {c : Char} (h : c.utf8Size ≠ 1) :
    ∀ b ∈ String.utf8EncodeChar c, 128 ≤ b := by
  intro b hb
  rw [ne_eq, Char.utf8Size_eq_one_iff] at h
  have hval : ¬ c.val.toNat ≤ 127 := h
  rw [String.utf8EncodeChar, if_neg hval] at hb
  rw [UInt8.le_iff_toNat_le]
  -- two, three or four bytes, each of which has its high bit added
  split at hb
  · simp only [List.mem_cons, List.not_mem_nil, or_false] at hb
    rcases hb with rfl | rfl <;> simp <;> omega
  · split at hb
    · simp only [List.mem_cons, List.not_mem_nil, or_false] at hb
      rcases hb with rfl | rfl | rfl <;> simp <;> omega
    · simp only [List.mem_cons, List.not_mem_nil, or_false] at hb
      rcases hb with rfl | rfl | rfl | rfl <;> simp <;> omega

/-- An ASCII character can be read from its byte. -/
theorem ofUInt8_toUInt8 {c : Char} (h : c.utf8Size = 1) : Char.ofUInt8 c.toUInt8 = c := by
  rw [Char.utf8Size_eq_one_iff] at h
  have hval : c.val.toNat ≤ 127 := h
  apply Char.ext
  apply UInt32.toNat_inj.mp
  change c.toUInt8.toUInt32.toNat = c.val.toNat
  rw [UInt8.toNat_toUInt32, Char.toUInt8, UInt32.toNat_toUInt8]
  omega

theorem toUInt8_ofUInt8 (b : UInt8) : (Char.ofUInt8 b).toUInt8 = b := by
  apply UInt8.toNat_inj.mp
  change b.toUInt32.toUInt8.toNat = b.toNat
  rw [UInt8.toUInt8_toUInt32]

theorem ofUInt8_eq_iff {c : Char} (h : c.utf8Size = 1) {b : UInt8} :
    Char.ofUInt8 b = c ↔ b = c.toUInt8 := by
  constructor
  · rintro rfl
    exact (toUInt8_ofUInt8 b).symm
  · rintro rfl
    exact ofUInt8_toUInt8 h

theorem utf8Size_ofUInt8 {b : UInt8} (h : 128 ≤ b) : (Char.ofUInt8 b).utf8Size ≠ 1 := by
  rw [ne_eq, Char.utf8Size_eq_one_iff]
  intro hle
  have hlow : b.toUInt32.toNat ≤ 127 := hle
  have hhigh : 128 ≤ b.toNat := h
  rw [UInt8.toNat_toUInt32] at hlow
  omega

/-! ## Cuts at byte offsets -/

theorem takeBytes?_cons (c : Char) (n : Nat) (text : List Char) :
    takeBytes? (c.utf8Size + n) (c :: text) = (takeBytes? n text).map (c :: ·) := by
  obtain ⟨m, hm⟩ := Nat.exists_eq_add_one_of_ne_zero (Nat.ne_of_gt c.utf8Size_pos)
  rw [hm, Nat.add_right_comm, takeBytes?, if_pos (by omega), hm, Nat.add_right_comm,
    Nat.add_sub_cancel_left]

theorem dropBytes?_cons (c : Char) (n : Nat) (text : List Char) :
    dropBytes? (c.utf8Size + n) (c :: text) = dropBytes? n text := by
  obtain ⟨m, hm⟩ := Nat.exists_eq_add_one_of_ne_zero (Nat.ne_of_gt c.utf8Size_pos)
  rw [hm, Nat.add_right_comm, dropBytes?, if_pos (by omega), hm, Nat.add_right_comm,
    Nat.add_sub_cancel_left]

theorem takeBytes?_append (pre post : List Char) :
    takeBytes? (byteLength pre) (pre ++ post) = some pre := by
  induction pre with
  | nil => rw [byteLength_nil, takeBytes?.eq_1]
  | cons c pre ih => rw [byteLength_cons, List.cons_append, takeBytes?_cons, ih, Option.map_some]

theorem dropBytes?_append (pre post : List Char) :
    dropBytes? (byteLength pre) (pre ++ post) = some post := by
  induction pre with
  | nil => rw [byteLength_nil, dropBytes?.eq_1, List.nil_append]
  | cons c pre ih => rw [byteLength_cons, List.cons_append, dropBytes?_cons, ih]

/-- The first bytes of a text, if they end where a character ends. -/
theorem takeBytes?_eq_some_iff {n : Nat} {text start : List Char} :
    takeBytes? n text = some start ↔ start <+: text ∧ byteLength start = n := by
  constructor
  · intro h
    induction text generalizing n start with
    | nil =>
      cases n with
      | zero =>
        cases h
        exact ⟨List.nil_prefix, rfl⟩
      | succ n => cases h
    | cons c text ih =>
      cases n with
      | zero =>
        cases h
        exact ⟨List.nil_prefix, rfl⟩
      | succ n =>
        rw [takeBytes?] at h
        split at h
        · obtain ⟨rest, hrest, rfl⟩ := Option.map_eq_some_iff.mp h
          obtain ⟨hinit, hlength⟩ := ih hrest
          refine ⟨List.cons_prefix_cons.mpr ⟨rfl, hinit⟩, ?_⟩
          rw [byteLength_cons, hlength]
          omega
        · cases h
  · rintro ⟨⟨post, rfl⟩, rfl⟩
    exact takeBytes?_append start post

/-! ## Places in the bytes -/

/-- The bytes of one text begin those of another only if the text begins the other. -/
theorem utf8_prefix_iff {a b : List Char} : utf8 a <+: utf8 b ↔ a <+: b := by
  constructor
  · rintro ⟨rest, hrest⟩
    apply List.isPrefix_of_utf8Encode_append_eq_utf8Encode rest.toByteArray
    change (utf8 a).toByteArray ++ rest.toByteArray = (utf8 b).toByteArray
    rw [← List.toByteArray_append, hrest]
  · rintro ⟨rest, rfl⟩
    rw [utf8_append]
    exact List.prefix_append _ _

/-- A byte below 128 starts a character. -/
theorem exists_split_of_getElem?_utf8 {text : List Char} {n : Nat} {b : UInt8}
    (h : (utf8 text)[n]? = some b) (hb : b < 128) :
    ∃ pre post, text = pre ++ post ∧ byteLength pre = n := by
  induction text generalizing n with
  | nil => cases h
  | cons c text ih =>
    by_cases hn : n = 0
    · exact ⟨[], c :: text, rfl, hn.symm⟩
    rw [utf8_cons] at h
    rcases Nat.lt_or_ge n (String.utf8EncodeChar c).length with hlt | hge
    · -- past the first byte of a character there are only bytes beyond ASCII
      rw [List.getElem?_append_left hlt] at h
      rw [String.length_utf8EncodeChar] at hlt
      have hsize : c.utf8Size ≠ 1 := by omega
      have hhigh := le_of_mem_utf8EncodeChar hsize b (List.mem_of_getElem? h)
      exact absurd hb (UInt8.not_lt.mpr hhigh)
    · rw [List.getElem?_append_right hge] at h
      obtain ⟨pre, post, rfl, hlength⟩ := ih h
      refine ⟨c :: pre, post, rfl, ?_⟩
      rw [String.length_utf8EncodeChar] at hge hlength
      rw [byteLength_cons, hlength]
      omega

/-- The bytes of a text are valid and give the text back. -/
theorem fromUTF8?_utf8 (text : List Char) :
    String.fromUTF8? (utf8 text).toByteArray = some (String.ofList text) := by
  have hvalid : (utf8 text).toByteArray.IsValidUTF8 := ByteArray.isValidUTF8_utf8Encode
  rw [String.fromUTF8?, dif_pos hvalid]
  rfl

end CodeAudit.Text
