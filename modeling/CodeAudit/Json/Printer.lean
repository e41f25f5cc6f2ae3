import CodeAudit.Json.Basic

/-!
# Writing JSON

Two layouts: `compact` writes a value without blanks, `pretty` puts every item on a line of its
own, indented by two spaces a level. Both escape the quote, the backslash and the control
characters, and leave all else as it is.
-/

namespace CodeAudit.Json

/-- The hexadecimal digit of a number below sixteen. -/
def hexDigit (n : Nat) : Char :=
  if n < 10 then Char.ofNat (48 + n) else Char.ofNat (87 + n)

/-- The escaped form of a character of a string. -/
def escapeChar (c : Char) : List Char :=
  if c = '"' then ['\\', '"']
  else if c = '\\' then ['\\', '\\']
  else if c = '\n' then ['\\', 'n']
  else if c = '\r' then ['\\', 'r']
  else if c = '\t' then ['\\', 't']
  else if c.toNat = 8 then ['\\', 'b']
  else if c.toNat = 12 then ['\\', 'f']
  else if c.toNat < 32 then
    ['\\', 'u', '0', '0', hexDigit (c.toNat / 16), hexDigit (c.toNat % 16)]
  else [c]

/-- A string with its quotes. -/
def quote (s : String) : String :=
  "\"" ++ String.ofList (s.toList.flatMap escapeChar) ++ "\""

mutual

/-- The value without blanks. -/
def compact : Json → String
  | null => "null"
  | bool b => if b then "true" else "false"
  | int n => toString n
  | decimal written => written
  | str s => quote s
  | arr items => "[" ++ compactItems items ++ "]"
  | obj fields => "\x7b" ++ compactFields fields ++ "\x7d"

/-- Items with commas between them. -/
def compactItems : List Json → String
  | [] => ""
  | [item] => item.compact
  | item :: rest => item.compact ++ "," ++ compactItems rest

/-- Fields with commas between them. -/
def compactFields : List (String × Json) → String
  | [] => ""
  | [(name, value)] => quote name ++ ":" ++ value.compact
  | (name, value) :: rest => quote name ++ ":" ++ value.compact ++ "," ++ compactFields rest

end

/-- The blanks that begin a line at a level. -/
def indent (level : Nat) : String :=
  String.ofList (List.replicate (2 * level) ' ')

mutual

/-- The value laid out over lines, at a level. -/
def prettyAt (level : Nat) : Json → String
  | null => "null"
  | bool b => if b then "true" else "false"
  | int n => toString n
  | decimal written => written
  | str s => quote s
  | arr [] => "[]"
  | arr (item :: rest) =>
    "[\n" ++ prettyItems (level + 1) (item :: rest) ++ "\n" ++ indent level ++ "]"
  | obj [] => "\x7b\x7d"
  | obj (field :: rest) =>
    "\x7b\n" ++ prettyFields (level + 1) (field :: rest) ++ "\n" ++ indent level ++ "\x7d"

/-- Items on lines of their own. -/
def prettyItems (level : Nat) : List Json → String
  | [] => ""
  | [item] => indent level ++ prettyAt level item
  | item :: rest => indent level ++ prettyAt level item ++ ",\n" ++ prettyItems level rest

/-- Fields on lines of their own. -/
def prettyFields (level : Nat) : List (String × Json) → String
  | [] => ""
  | [(name, value)] => indent level ++ quote name ++ ": " ++ prettyAt level value
  | (name, value) :: rest =>
    indent level ++ quote name ++ ": " ++ prettyAt level value ++ ",\n" ++ prettyFields level rest

end

/-- The value laid out over lines. -/
def pretty (value : Json) : String :=
  prettyAt 0 value

end CodeAudit.Json
