import CodeAudit.Json.Basic
import CodeAudit.Word

/-!
# Reading JSON

A reader of JSON texts. A value may stand in white space, and nothing else may follow it. Escapes
above the basic plane come in pairs of units; half a pair is refused, and so are control
characters in strings.
-/

namespace CodeAudit.Json

/-- White space between tokens. -/
def isSpace (c : Char) : Bool :=
  c == ' ' || c == '\t' || c == '\n' || c == '\r'

/-- The text without white space at its start. -/
def skipSpace (text : List Char) : List Char :=
  text.dropWhile isSpace

/-! ## Strings -/

/-- The value of a hexadecimal digit. -/
def hexValue? (c : Char) : Option Nat :=
  if '0' ≤ c && c ≤ '9' then some (c.toNat - 48)
  else if 'a' ≤ c && c ≤ 'f' then some (c.toNat - 87)
  else if 'A' ≤ c && c ≤ 'F' then some (c.toNat - 55)
  else none

/-- The value of four hexadecimal digits. -/
def unit? (a b c d : Char) : Option Nat := do
  let a ← hexValue? a
  let b ← hexValue? b
  let c ← hexValue? c
  let d ← hexValue? d
  return ((a * 16 + b) * 16 + c) * 16 + d

/-- The character that two units of a pair stand for. -/
def pair? (high low : Nat) : Option Char :=
  if 0xd800 ≤ high && high < 0xdc00 && 0xdc00 ≤ low && low < 0xe000 then
    some (Char.ofNat (0x10000 + (high - 0xd800) * 0x400 + (low - 0xdc00)))
  else none

/-- The character that a unit stands for by itself. -/
def single? (unit : Nat) : Option Char :=
  if 0xd800 ≤ unit && unit < 0xe000 then none else some (Char.ofNat unit)

/-- The character that a short escape stands for. -/
def shortEscape? : Char → Option Char
  | '"' => some '"'
  | '\\' => some '\\'
  | '/' => some '/'
  | 'b' => some '\x08'
  | 'f' => some '\x0c'
  | 'n' => some '\n'
  | 'r' => some '\r'
  | 't' => some '\t'
  | _ => none

/-- Reads a string up to its closing quote. `read` holds the characters so far, the last one
    first. -/
def readString (read : List Char) : List Char → Option (String × List Char)
  | [] => none
  | '"' :: rest => some (String.ofList read.reverse, rest)
  | '\\' :: 'u' :: a :: b :: c :: d :: '\\' :: 'u' :: e :: f :: g :: h :: rest =>
    match unit? a b c d with
    | none => none
    | some unit =>
      match single? unit with
      | some char => readString (char :: read) ('\\' :: 'u' :: e :: f :: g :: h :: rest)
      | none =>
        match (unit? e f g h).bind (pair? unit) with
        | some char => readString (char :: read) rest
        | none => none
  | '\\' :: 'u' :: a :: b :: c :: d :: rest =>
    match (unit? a b c d).bind single? with
    | some char => readString (char :: read) rest
    | none => none
  | '\\' :: c :: rest =>
    match shortEscape? c with
    | some char => readString (char :: read) rest
    | none => none
  | c :: rest => if c.toNat < 32 || c == '\\' then none else readString (c :: read) rest

/-! ## Numbers -/

/-- Reads digits. -/
def readDigits (text : List Char) : List Char × List Char :=
  text.span Char.isDigit

/-- Reads a fraction, if there is one; none if it has no digits. -/
def readFraction? : List Char → Option (List Char × List Char)
  | '.' :: rest =>
    match readDigits rest with
    | ([], _) => none
    | (digits, rest) => some ('.' :: digits, rest)
  | rest => some ([], rest)

/-- Reads an exponent, if there is one; none if it has no digits. -/
def readExponent? : List Char → Option (List Char × List Char)
  | [] => some ([], [])
  | e :: rest =>
    if e == 'e' || e == 'E' then
      let (sign, rest) :=
        match rest with
        | '+' :: rest => (['+'], rest)
        | '-' :: rest => (['-'], rest)
        | rest => ([], rest)
      match readDigits rest with
      | ([], _) => none
      | (digits, rest) => some (e :: sign ++ digits, rest)
    else some ([], e :: rest)

/-- The number that a sign, digits and the rest of its writing stand for. -/
def number (negative : Bool) (digits tail : List Char) : Json :=
  let size := digits.foldl (fun (n : Nat) c => 10 * n + (c.toNat - 48)) 0
  let written := (if negative then ['-'] else []) ++ digits ++ tail
  if !tail.isEmpty then decimal (String.ofList written)
  else if negative then
    if size = 0 || Word.bound63 < size then decimal (String.ofList written) else int (-(size : Int))
  else if Word.bound64 ≤ size then decimal (String.ofList written)
  else int size

/-- Reads a number. Zeros in front are refused. -/
def readNumber? (text : List Char) : Option (Json × List Char) := do
  let (negative, text) :=
    match text with
    | '-' :: rest => (true, rest)
    | rest => (false, rest)
  let (digits, rest) := readDigits text
  if digits.isEmpty || (digits.head? == some '0' && digits.length ≠ 1) then none
  let (fraction, rest) ← readFraction? rest
  let (exponent, rest) ← readExponent? rest
  return (number negative digits (fraction ++ exponent), rest)

/-! ## Values -/

/-- Puts a field behind others; a later field replaces an earlier one of its name. -/
def putField (fields : List (String × Json)) (name : String) (value : Json) :
    List (String × Json) :=
  fields.filter (·.1 != name) ++ [(name, value)]

mutual

/-- Reads a value, with at most `fuel` steps. -/
def readValue? : Nat → List Char → Option (Json × List Char)
  | 0, _ => none
  | fuel + 1, text =>
    match skipSpace text with
    | 'n' :: 'u' :: 'l' :: 'l' :: rest => some (null, rest)
    | 't' :: 'r' :: 'u' :: 'e' :: rest => some (bool true, rest)
    | 'f' :: 'a' :: 'l' :: 's' :: 'e' :: rest => some (bool false, rest)
    | '"' :: rest => (readString [] rest).map fun (s, rest) => (str s, rest)
    | '[' :: rest =>
      match skipSpace rest with
      | ']' :: rest => some (arr [], rest)
      | rest => (readItems? fuel rest).map fun (items, rest) => (arr items, rest)
    | '\x7b' :: rest =>
      match skipSpace rest with
      | '\x7d' :: rest => some (obj [], rest)
      | rest => (readFields? fuel [] rest).map fun (fields, rest) => (obj fields, rest)
    | text => readNumber? text

/-- Reads items up to the bracket that closes them. -/
def readItems? : Nat → List Char → Option (List Json × List Char)
  | 0, _ => none
  | fuel + 1, text =>
    match readValue? fuel text with
    | none => none
    | some (item, rest) =>
      match skipSpace rest with
      | ']' :: rest => some ([item], rest)
      | ',' :: rest => (readItems? fuel rest).map fun (items, rest) => (item :: items, rest)
      | _ => none

/-- Reads fields behind others up to the brace that closes them. -/
def readFields? : Nat → List (String × Json) → List Char → Option (List (String × Json) × List Char)
  | 0, _, _ => none
  | fuel + 1, fields, text =>
    match skipSpace text with
    | '"' :: rest =>
      match readString [] rest with
      | none => none
      | some (name, rest) =>
        match skipSpace rest with
        | ':' :: rest =>
          match readValue? fuel rest with
          | none => none
          | some (value, rest) =>
            match skipSpace rest with
            | '\x7d' :: rest => some (putField fields name value, rest)
            | ',' :: rest => readFields? fuel (putField fields name value) rest
            | _ => none
        | _ => none
    | _ => none

end

/-- Reads a text that holds one value and nothing else. -/
def parse? (text : String) : Option Json :=
  let chars := text.toList
  match readValue? (2 * chars.length + 1) chars with
  | some (value, rest) => if (skipSpace rest).isEmpty then some value else none
  | none => none

end CodeAudit.Json
