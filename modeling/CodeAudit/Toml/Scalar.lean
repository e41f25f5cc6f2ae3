import CodeAudit.Json.Parser
import CodeAudit.Toml.Table
import CodeAudit.Word

/-!
# Scalars of a settings file

Readers of strings, numbers and dates. A reader takes the text from where it stands and gives what
it read and the rest of the text, or nothing if the text does not read.
-/

namespace CodeAudit.Toml

/-- Something that is read from the start of a text. -/
abbrev Reading (α : Type) := List Char → Option (α × List Char)

/-! ## Characters -/

/-- White space within a line. -/
def isGap (c : Char) : Bool := c == ' ' || c == '\t'

/-- The text without white space at the start of its line. -/
def skipGap (text : List Char) : List Char := text.dropWhile isGap

/-- A character that comments and strings may hold as it is. -/
def isVisible (c : Char) : Bool :=
  c == '\t' || (0x20 ≤ c.toNat && c.toNat ≤ 0x7e) || 0x80 ≤ c.toNat

/-- What follows a line end at the start of the text. -/
def newline? : List Char → Option (List Char)
  | '\n' :: rest => some rest
  | '\r' :: '\n' :: rest => some rest
  | _ => none

/-! ## Strings -/

/-- The value of hexadecimal digits. -/
def hexNumber? (digits : List Char) : Option Nat :=
  digits.foldlM (fun n c => (Json.hexValue? c).map (16 * n + ·)) 0

/-- The character with a code, unless it is half of a pair or beyond the last one. -/
def scalar? (code : Nat) : Option Char :=
  if (0xd800 ≤ code && code < 0xe000) || 0x110000 ≤ code then none else some (Char.ofNat code)

/-- Reads an escape after its backslash. -/
def escape? : Reading Char
  | 'b' :: rest => some ('\x08', rest)
  | 't' :: rest => some ('\t', rest)
  | 'n' :: rest => some ('\n', rest)
  | 'f' :: rest => some ('\x0c', rest)
  | 'r' :: rest => some ('\r', rest)
  | '"' :: rest => some ('"', rest)
  | '\\' :: rest => some ('\\', rest)
  | 'u' :: rest => code? 4 rest
  | 'U' :: rest => code? 8 rest
  | _ => none
where
  /-- Reads the code of a character in `n` digits. -/
  code? (n : Nat) : Reading Char := fun text =>
    if (text.take n).length = n then
      ((hexNumber? (text.take n)).bind scalar?).map fun c => (c, text.drop n)
    else none

/-- Reads a string with escapes up to its quote, with at most `fuel` steps. `read` holds what was
    read, the last character first. -/
def basic? : Nat → List Char → Reading String
  | 0, _, _ => none
  | fuel + 1, read, text =>
    match text with
    | [] => none
    | '"' :: rest => some (String.ofList read.reverse, rest)
    | '\\' :: rest =>
      match escape? rest with
      | none => none
      | some (c, rest) => basic? fuel (c :: read) rest
    | c :: rest => if isVisible c then basic? fuel (c :: read) rest else none

/-- Reads a string without escapes up to its quote. -/
def literal? : Reading String := fun text =>
  let body := text.takeWhile fun c => isVisible c && c != '\''
  match text.drop body.length with
  | '\'' :: rest => some (String.ofList body, rest)
  | _ => none

/-- What follows a backslash that joins two lines: the line end, and all white space after it. -/
def joined? (text : List Char) : Option (List Char) :=
  (newline? (skipGap text)).map (skipLines text.length)
where
  /-- The text without white space and line ends at its start, with at most `fuel` line ends. -/
  skipLines : Nat → List Char → List Char
    | 0, text => skipGap text
    | fuel + 1, text =>
      match newline? (skipGap text) with
      | some rest => skipLines fuel rest
      | none => skipGap text

/-- Reads the body of a string of several lines up to its three quotes, with at most `fuel` steps.
    Up to two more quotes in front of those belong to the string. -/
def lines? (quote : Char) (escapes : Bool) : Nat → List Char → Reading String
  | 0, _, _ => none
  | fuel + 1, read, text =>
    match text with
    | [] => none
    | c :: rest =>
      if c == quote then
        match text.takeWhile (· == quote) with
        | [_] => lines? quote escapes fuel (quote :: read) rest
        | [_, _] => lines? quote escapes fuel (quote :: quote :: read) (text.drop 2)
        | run =>
          let extra := min (run.length - 3) 2
          some (String.ofList (List.replicate extra quote ++ read).reverse, text.drop (3 + extra))
      else if escapes && c == '\\' then
        match escape? rest with
        | some (c, rest) => lines? quote escapes fuel (c :: read) rest
        | none =>
          match joined? rest with
          | some rest => lines? quote escapes fuel read rest
          | none => none
      else
        match newline? text with
        | some rest => lines? quote escapes fuel ('\n' :: read) rest
        | none => if isVisible c then lines? quote escapes fuel (c :: read) rest else none

/-- Reads a string after its opening quotes, where a line end right after them does not count. -/
def afterQuotes? (quote : Char) (escapes : Bool) : Reading String := fun text =>
  let text := (newline? text).getD text
  lines? quote escapes (text.length + 1) [] text

/-- Reads a string of one line. -/
def shortString? : Reading String
  | '"' :: rest => basic? (rest.length + 1) [] rest
  | '\'' :: rest => literal? rest
  | _ => none

/-- Reads a string of any sort. -/
def string? : Reading String
  | '"' :: '"' :: '"' :: rest => afterQuotes? '"' true rest
  | '\'' :: '\'' :: '\'' :: rest => afterQuotes? '\'' false rest
  | text => shortString? text

/-! ## Numbers -/

/-- Reads at least one digit, with single underscores between digits, which are dropped. -/
def digits? (isDigit : Char → Bool) : Nat → Reading (List Char)
  | 0, _ => none
  | fuel + 1, text =>
    match text with
    | [] => none
    | c :: rest =>
      if !isDigit c then none
      else
        match rest with
        | '_' :: more =>
          (digits? isDigit fuel more).map fun (digits, rest) => (c :: digits, rest)
        | d :: _ =>
          if isDigit d then
            (digits? isDigit fuel rest).map fun (digits, rest) => (c :: digits, rest)
          else some ([c], rest)
        | [] => some ([c], [])

/-- Reads a sign, if there is one; true for the minus. -/
def sign : List Char → Option Bool × List Char
  | '+' :: rest => (some false, rest)
  | '-' :: rest => (some true, rest)
  | text => (none, text)

/-- Reads the digits of an integer, which do not begin with a zero unless there is one digit. -/
def wholeDigits? : Reading (List Char)
  | '0' :: rest => some (['0'], rest)
  | text => digits? Char.isDigit text.length text

/-- The value of digits in a base. -/
def valueIn (base : Nat) (digits : List Char) : Nat :=
  digits.foldl (fun n c => base * n + (Json.hexValue? c).getD 0) 0

/-- An integer, if it has 64 bits. -/
def integer64? (n : Int) : Option Toml :=
  if -Word.bound63 ≤ n && n < Word.bound63 then some (integer n) else none

/-- Reads digits of a base after its mark. -/
def based? (base : Nat) (isDigit : Char → Bool) : Reading Toml := fun text => do
  let (digits, rest) ← digits? isDigit text.length text
  let value ← integer64? (valueIn base digits)
  return (value, rest)

/-- Reads an integer. -/
def integer? : Reading Toml
  | '0' :: 'x' :: rest => based? 16 (fun c => (Json.hexValue? c).isSome) rest
  | '0' :: 'o' :: rest => based? 8 (fun c => '0' ≤ c && c ≤ '7') rest
  | '0' :: 'b' :: rest => based? 2 (fun c => c == '0' || c == '1') rest
  | text => do
    let (sign, text) := sign text
    let (digits, rest) ← wholeDigits? text
    let size : Int := valueIn 10 digits
    let value ← integer64? (if sign = some true then -size else size)
    return (value, rest)

/-- Reads an exponent: its value and the rest. -/
def exponent? : Reading Int
  | [] => none
  | e :: rest =>
    if e == 'e' || e == 'E' then do
      let (sign, text) := sign rest
      let (digits, rest) ← digits? Char.isDigit text.length text
      let size : Int := valueIn 10 digits
      return (if sign = some true then -size else size, rest)
    else none

/-- Is the number `digits · 10 ^ exponent` nearer to infinity than to any binary fraction of 64
    bits? -/
def isInfinite (digits : List Char) (exponent : Int) : Bool :=
  let digits := digits.dropWhile (· == '0')
  let order : Int := digits.length + exponent
  if digits.isEmpty || order < 308 then false
  else if 310 < order then true
  else
    let bound := Nat.pow 2 1024 - Nat.pow 2 970
    let size := valueIn 10 digits
    if 0 ≤ exponent then bound ≤ size * Nat.pow 10 exponent.toNat
    else bound * Nat.pow 10 (-exponent).toNat ≤ size

/-- What a reader took from the start of a text. -/
def taken (text rest : List Char) : String :=
  String.ofList (text.take (text.length - rest.length))

/-- Reads a number with a fraction or an exponent, or one of the special ones. -/
def float? : Reading Toml := fun text => do
  let (sign, body) := sign text
  match body with
  | 'i' :: 'n' :: 'f' :: rest => return (float (taken text rest), rest)
  | 'n' :: 'a' :: 'n' :: rest => return (float (taken text rest), rest)
  | _ =>
    let (whole, rest) ← wholeDigits? body
    match rest with
    | '.' :: after =>
      let (fraction, rest) ← digits? Char.isDigit after.length after
      let (exponent, rest) := (exponent? rest).getD (0, rest)
      if sign ≠ some true && isInfinite (whole ++ fraction) (exponent - fraction.length) then none
      return (float (taken text rest), rest)
    | _ =>
      let (exponent, rest) ← exponent? rest
      if sign ≠ some true && isInfinite whole exponent then none
      return (float (taken text rest), rest)

/-! ## Dates -/

/-- Reads a number of exactly `n` digits that lies between two bounds. -/
def field? (n low high : Nat) : Reading Nat := fun text =>
  let digits := text.take n
  let value := valueIn 10 digits
  if digits.length = n && digits.all Char.isDigit && low ≤ value && value ≤ high then
    some (value, text.drop n)
  else none

/-- What follows a character at the start of a text. -/
def after? (c : Char) : List Char → Option (List Char)
  | x :: rest => if x = c then some rest else none
  | [] => none

/-- The number of days of a month. -/
def daysIn (year month : Nat) : Nat :=
  if month = 2 then
    if year % 4 = 0 && (year % 100 ≠ 0 || year % 400 = 0) then 29 else 28
  else if month = 4 || month = 6 || month = 9 || month = 11 then 30
  else 31

/-- What follows a date. -/
def date? (text : List Char) : Option (List Char) := do
  let (year, rest) ← field? 4 0 9999 text
  let rest ← after? '-' rest
  let (month, rest) ← field? 2 1 12 rest
  let rest ← after? '-' rest
  let (_, rest) ← field? 2 1 (daysIn year month) rest
  return rest

/-- What follows a time of day. -/
def time? (text : List Char) : Option (List Char) := do
  let (_, rest) ← field? 2 0 23 text
  let rest ← after? ':' rest
  let (_, rest) ← field? 2 0 59 rest
  let rest ← after? ':' rest
  let (_, rest) ← field? 2 0 60 rest
  match rest with
  | '.' :: fraction =>
    if fraction.head?.any Char.isDigit then return fraction.dropWhile Char.isDigit
    else none
  | _ => return rest

/-- What follows the offset of a time, if there is one. -/
def offset? (text : List Char) : Option (List Char) :=
  match text with
  | 'Z' :: rest => some rest
  | 'z' :: rest => some rest
  | c :: rest =>
    if c == '+' || c == '-' then do
      let (_, rest) ← field? 2 0 23 rest
      let rest ← after? ':' rest
      let (_, rest) ← field? 2 0 59 rest
      return rest
    else some text
  | [] => some []

/-- Reads a date, a time or both. A blank may stand between them when a time follows it. -/
def datetime? : Reading Toml := fun text =>
  match date? text with
  | none => (time? text).map fun rest => (datetime (taken text rest), rest)
  | some rest =>
    match rest with
    | c :: further =>
      if c == 'T' || c == 't' || c == ' ' then
        match time? further with
        | some rest => (offset? rest).map fun rest => (datetime (taken text rest), rest)
        | none => some (datetime (taken text rest), rest)
      else some (datetime (taken text rest), rest)
    | [] => some (datetime (taken text []), [])

/-- Reads a date or a number. -/
def numeric? : Reading Toml := fun text =>
  ((datetime? text).orElse fun _ => float? text).orElse fun _ => integer? text

end CodeAudit.Toml
