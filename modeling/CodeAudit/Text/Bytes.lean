/-!
# Byte offsets

Texts are lists of characters. Positions in a text are counted in the bytes of its UTF-8 form, so
an offset may fall inside a character; the cuts below then have no result.
-/

namespace CodeAudit.Text

/-- Number of bytes of a text. -/
def byteLength (text : List Char) : Nat :=
  text.foldr (fun c size => c.utf8Size + size) 0

/-- What stands from byte offset `n` on, if `n` is a character boundary of the text. -/
def dropBytes? : Nat → List Char → Option (List Char)
  | 0, text => some text
  | _ + 1, [] => none
  | n + 1, c :: rest => if c.utf8Size ≤ n + 1 then dropBytes? (n + 1 - c.utf8Size) rest else none

/-- The first `n` bytes, if `n` is a character boundary of the text. -/
def takeBytes? : Nat → List Char → Option (List Char)
  | 0, _ => some []
  | _ + 1, [] => none
  | n + 1, c :: rest =>
    if c.utf8Size ≤ n + 1 then (takeBytes? (n + 1 - c.utf8Size) rest).map (c :: ·) else none

/-- The bytes from `start` up to `stop`, if both are character boundaries in this order. -/
def slice? (start stop : Nat) (text : List Char) : Option (List Char) :=
  if start ≤ stop then (dropBytes? start text).bind (takeBytes? (stop - start)) else none

/-- The character that ends at byte offset `offset` (`char_before`). -/
def charBefore? (text : List Char) (offset : Nat) : Option Char :=
  (takeBytes? offset text).bind List.getLast?

/-! ## What a cut leaves -/

@[simp] theorem byteLength_nil : byteLength [] = 0 := rfl

@[simp] theorem byteLength_cons (c : Char) (text : List Char) :
    byteLength (c :: text) = c.utf8Size + byteLength text := rfl

@[simp] theorem byteLength_append (a b : List Char) :
    byteLength (a ++ b) = byteLength a + byteLength b := by
  induction a with
  | nil => rw [List.nil_append, byteLength_nil, Nat.zero_add]
  | cons c cs ih => rw [List.cons_append, byteLength_cons, byteLength_cons, ih, Nat.add_assoc]

/-- A cut leaves no more than the text. -/
theorem length_dropBytes?_le {n : Nat} {text rest : List Char} (h : dropBytes? n text = some rest) :
    rest.length ≤ text.length := by
  induction text generalizing n with
  | nil => cases n <;> simp_all [dropBytes?]
  | cons c cs ih =>
    cases n with
    | zero => simp_all [dropBytes?]
    | succ n =>
      simp only [dropBytes?] at h
      split at h
      · have := ih h
        simp only [List.length_cons]
        omega
      · simp at h

end CodeAudit.Text
