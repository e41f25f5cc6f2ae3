/-!
# UTF-8

Decoding of bytes. `decode?` refuses bytes that are not UTF-8; `decodeLossy` puts a replacement
character in the place of every longest stretch that could have begun a character and does not go
on as one.
-/

namespace CodeAudit.Text

/-- The bytes of a text. -/
def encode (text : String) : List UInt8 :=
  text.toUTF8.toList

/-- The replacement character. -/
def replacement : Char := '\ufffd'

/-- Does a byte go on a character? -/
def isTail (b : UInt8) : Bool := 0x80 ≤ b && b ≤ 0xbf

/-- What the first byte of a character asks for: how many bytes follow, the bounds of the first of
    them, and the bits that it gives itself. -/
structure Lead where
  tails : Nat
  low : UInt8
  high : UInt8
  bits : Nat

/-- What the first byte of a character asks for, unless no character begins with it. -/
def lead? (b : UInt8) : Option Lead :=
  if b < 0x80 then some ⟨0, 0, 0, b.toNat⟩
  else if b < 0xc2 then none
  else if b < 0xe0 then some ⟨1, 0x80, 0xbf, b.toNat - 0xc0⟩
  else if b == 0xe0 then some ⟨2, 0xa0, 0xbf, 0⟩
  else if b == 0xed then some ⟨2, 0x80, 0x9f, 0xd⟩
  else if b < 0xf0 then some ⟨2, 0x80, 0xbf, b.toNat - 0xe0⟩
  else if b == 0xf0 then some ⟨3, 0x90, 0xbf, 0⟩
  else if b < 0xf4 then some ⟨3, 0x80, 0xbf, b.toNat - 0xf0⟩
  else if b == 0xf4 then some ⟨3, 0x80, 0x8f, 4⟩
  else none

/-- The bytes that follow a first byte as part of its character, as far as they fit. -/
def tailsOf (lead : Lead) (rest : List UInt8) : List UInt8 :=
  match rest.take lead.tails with
  | [] => []
  | first :: more =>
    if lead.low ≤ first && first ≤ lead.high then first :: more.takeWhile isTail else []

/-- The character of a first byte and all its following bytes. -/
def charOf (lead : Lead) (tails : List UInt8) : Char :=
  Char.ofNat (tails.foldl (fun n b => n * 64 + (b.toNat - 0x80)) lead.bits)

/-- Reads one character, or what is left of one: the character, if it is whole, and the bytes after
    it. -/
def readChar (b : UInt8) (rest : List UInt8) : Option Char × List UInt8 :=
  match lead? b with
  | none => (none, rest)
  | some lead =>
    let tails := tailsOf lead rest
    (if tails.length = lead.tails then some (charOf lead tails) else none, rest.drop tails.length)

/-- Reading a character leaves no more bytes than there are after its first. -/
theorem length_readChar_le (b : UInt8) (rest : List UInt8) :
    (readChar b rest).2.length ≤ rest.length := by
  unfold readChar
  split
  · exact Nat.le_refl _
  · simp only [List.length_drop]
    omega

/-- Decodes bytes, with the replacement for what is no character. -/
def decodeLossy (bytes : List UInt8) : List Char :=
  match bytes with
  | [] => []
  | b :: rest => (readChar b rest).1.getD replacement :: decodeLossy (readChar b rest).2
termination_by bytes.length
decreasing_by exact Nat.lt_succ_of_le (length_readChar_le b rest)

/-- Decodes bytes, all of which must be characters. -/
def decode? (bytes : List UInt8) : Option (List Char) :=
  match bytes with
  | [] => some []
  | b :: rest =>
    match (readChar b rest).1 with
    | none => none
    | some char => (decode? (readChar b rest).2).map (char :: ·)
termination_by bytes.length
decreasing_by exact Nat.lt_succ_of_le (length_readChar_le b rest)

end CodeAudit.Text
