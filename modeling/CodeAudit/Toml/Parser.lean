import CodeAudit.Toml.Scalar

/-!
# Reading a settings file

A file is a sequence of lines: headers, which open tables, and keys with values, which go into the
table opened last. Arrays may span lines and hold comments; inline tables may not. Values nest at
most 79 deep, and a dotted key has fewer than 80 parts.
-/

namespace CodeAudit.Toml

/-- How deep values may nest. -/
def maxNesting : Nat := 79

/-- How many parts a dotted key may have. -/
def maxKeyParts : Nat := 79

/-! ## Blanks and comments -/

/-- The text without a comment at its start. -/
def skipComment (text : List Char) : List Char :=
  match text with
  | '#' :: rest => rest.dropWhile isVisible
  | _ => text

/-- What follows the end of a line that holds nothing more but white space and a comment. The last
    line needs no line end. -/
def lineEnd? (text : List Char) : Option (List Char) :=
  match skipComment (skipGap text) with
  | [] => some []
  | rest => newline? rest

/-- The text without white space, comments and line ends at its start, with at most `fuel` line
    ends. -/
def skipLines : Nat → List Char → List Char
  | 0, text => skipGap text
  | fuel + 1, text =>
    match newline? (skipComment (skipGap text)) with
    | some rest => skipLines fuel rest
    | none => skipGap text

/-- The text without white space, comments and line ends at its start. -/
def skipBetween (text : List Char) : List Char :=
  skipLines text.length text

/-! ## Keys -/

/-- A character of a key without quotes. -/
def isBareKeyChar (c : Char) : Bool :=
  c.isAlphanum || c == '-' || c == '_'

/-- Reads one part of a key. -/
def keyPart? : Reading String := fun text =>
  match text with
  | '"' :: _ => shortString? text
  | '\'' :: _ => shortString? text
  | _ =>
    match text.takeWhile isBareKeyChar with
    | [] => none
    | part => some (String.ofList part, text.drop part.length)

/-- Reads a dotted key of at most `fuel` parts. White space may stand around each. -/
def keyParts? : Nat → Reading (List String)
  | 0, _ => none
  | fuel + 1, text =>
    match keyPart? (skipGap text) with
    | none => none
    | some (part, rest) =>
      match skipGap rest with
      | '.' :: rest => (keyParts? fuel rest).map fun (parts, rest) => (part :: parts, rest)
      | rest => some ([part], rest)

/-- Reads a dotted key: its path and its last part. -/
def key? : Reading (List String × String) := fun text => do
  let (parts, rest) ← keyParts? maxKeyParts text
  let last ← parts.getLast?
  return ((parts.dropLast, last), rest)

/-! ## Values -/

/-- Reads the items of an array up to its bracket, with at most `fuel` items. A comma may follow the
    last item. -/
def items? (value : Reading Toml) : Nat → Reading (List Toml)
  | 0, _ => none
  | fuel + 1, text =>
    match skipBetween text with
    | ']' :: rest => some ([], rest)
    | text =>
      match value text with
      | none => none
      | some (item, rest) =>
        match skipBetween rest with
        | ',' :: rest => (items? value fuel rest).map fun (items, rest) => (item :: items, rest)
        | ']' :: rest => some ([item], rest)
        | _ => none

/-- Reads the fields of an inline table up to its brace, with at most `fuel` fields. -/
def fields? (value : Reading Toml) : Nat → Entries → Reading Entries
  | 0, _, _ => none
  | fuel + 1, entries, text => do
    let ((path, key), rest) ← key? text
    let rest ← after? '=' rest
    let (item, rest) ← value (skipGap rest)
    let entries ← entries.assignInline path key item
    match skipGap rest with
    | ',' :: rest => fields? value fuel entries rest
    | '\x7d' :: rest => return (entries, rest)
    | _ => none

/-- Reads an inline table after its opening brace. -/
def inlineTable? (value : Reading Toml) : Reading Entries := fun text =>
  match skipGap text with
  | '\x7d' :: rest => some ([], rest)
  | text => fields? value text.length [] text

/-- Reads a value in which values nest at most `depth` deep. -/
def value? : Nat → Reading Toml
  | _, '"' :: rest => (string? ('"' :: rest)).map fun (s, rest) => (string s, rest)
  | _, '\'' :: rest => (string? ('\'' :: rest)).map fun (s, rest) => (string s, rest)
  | _, 't' :: 'r' :: 'u' :: 'e' :: rest => some (boolean true, rest)
  | _, 'f' :: 'a' :: 'l' :: 's' :: 'e' :: rest => some (boolean false, rest)
  | depth + 1, '[' :: rest =>
    (items? (value? depth) (rest.length + 1) rest).map fun (items, rest) => (array items, rest)
  | depth + 1, '\x7b' :: rest =>
    (inlineTable? (value? depth) rest).map fun (entries, rest) => (table .inline entries, rest)
  | _, text => numeric? text

/-! ## Files -/

/-- What was read of a file: all tables, and the path of the table opened last. -/
structure Document where
  root : Entries := []
  current : List String := []

namespace Document

/-- Reads a line that opens a table. -/
def header? (doc : Document) : Reading Document := fun text => do
  match text with
  | '[' :: '[' :: rest =>
    let ((path, key), rest) ← key? rest
    let rest ← after? ']' rest
    let rest ← after? ']' rest
    let rest ← lineEnd? rest
    let root ← doc.root.openElement path key
    return (⟨root, path ++ [key]⟩, rest)
  | '[' :: rest =>
    let ((path, key), rest) ← key? rest
    let rest ← after? ']' rest
    let rest ← lineEnd? rest
    let root ← doc.root.openTable path key
    return (⟨root, path ++ [key]⟩, rest)
  | _ => none

/-- Reads a line with a key and its value. -/
def assignment? (doc : Document) : Reading Document := fun text => do
  let ((path, key), rest) ← key? text
  let rest ← after? '=' rest
  let (value, rest) ← value? maxNesting (skipGap rest)
  let rest ← lineEnd? rest
  let root ← doc.root.assignBelow doc.current path key value
  return ({ doc with root }, rest)

/-- Reads the lines of a text, at most `fuel` of them. -/
def lines? : Nat → Document → List Char → Option Document
  | 0, _, _ => none
  | fuel + 1, doc, text =>
    match skipGap text with
    | [] => some doc
    | '[' :: rest =>
      match doc.header? ('[' :: rest) with
      | none => none
      | some (doc, rest) => lines? fuel doc rest
    | c :: rest =>
      if c == '#' || c == '\n' || c == '\r' then
        match lineEnd? (c :: rest) with
        | none => none
        | some rest => lines? fuel doc rest
      else
        match doc.assignment? (c :: rest) with
        | none => none
        | some (doc, rest) => lines? fuel doc rest

end Document

/-- Reads a settings file: the entries of its root table. A byte order mark in front of it does not
    count. -/
def parse? (text : List Char) : Option Entries :=
  let text :=
    match text with
    | '\ufeff' :: rest => rest
    | _ => text
  (Document.lines? (text.length + 1) {} text).map Document.root

end CodeAudit.Toml
