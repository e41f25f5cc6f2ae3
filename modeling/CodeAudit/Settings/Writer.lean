import CodeAudit.Json.Printer
import CodeAudit.Settings.Basic

/-!
# Writing settings

The text of a settings file. Arrays of two or more items have every item on a line of its own. A
string is written in the first of four forms in which it needs no escape, and with escapes if there
is none.
-/

namespace CodeAudit

namespace Settings

/-! ## Strings -/

/-- A character that must be escaped in every string. -/
def isControl (c : Char) : Bool :=
  c != '\t' && c != '\n' && (c.toNat < 0x20 || c.toNat == 0x7f)

/-- The longest run of a character in a text, given the length of the run before it. -/
def longestRun (mark : Char) (run : Nat) : List Char → Nat
  | [] => run
  | c :: rest =>
    if c == mark then longestRun mark (run + 1) rest else max run (longestRun mark 0 rest)

/-- How a string is quoted: with escapes or as it is, on one line or on several. -/
structure Quotes where
  escapes : Bool
  spansLines : Bool
  deriving DecidableEq, Repr

/-- The quotes of a string. Double quotes are preferred to single ones, and one line to several. -/
def quotesOf (s : List Char) : Quotes :=
  let newline := s.contains '\n'
  let singles := longestRun '\'' 0 s
  let doubles := longestRun '"' 0 s
  if s.any isControl then ⟨true, newline⟩
  else if !s.contains '\\' && doubles = 0 && !newline then ⟨true, false⟩
  else if singles = 0 && !newline then ⟨false, false⟩
  else if !s.contains '\\' && doubles ≤ 2 then ⟨true, true⟩
  else if singles ≤ 2 then ⟨false, true⟩
  else ⟨true, newline⟩

/-- Four hexadecimal digits in capitals. -/
def hexCode (n : Nat) : List Char :=
  [n / 4096 % 16, n / 256 % 16, n / 16 % 16, n % 16].map fun d => (Json.hexDigit d).toUpper

/-- The escaped form of a character. Line ends stay in a string that spans lines. -/
def escape (spansLines : Bool) (c : Char) : List Char :=
  match c with
  | '\x08' => "\\b".toList
  | '\t' => "\\t".toList
  | '\n' => if spansLines then ['\n'] else "\\n".toList
  | '\x0c' => "\\f".toList
  | '\r' => "\\r".toList
  | '\\' => "\\\\".toList
  | c => if isControl c then "\\u".toList ++ hexCode c.toNat else [c]

/-- A text with escapes, after `run` double quotes. Two of them in a row stay in a string that spans
    lines. -/
def escaped (spansLines : Bool) (run : Nat) : List Char → List Char
  | [] => []
  | c :: rest =>
    if c == '"' then
      if spansLines && run < 2 then '"' :: escaped spansLines (run + 1) rest
      else '\\' :: '"' :: escaped spansLines 0 rest
    else escape spansLines c ++ escaped spansLines 0 rest

/-- A string with its quotes. A line end in front does not count where a string spans lines. -/
def quote (s : String) : String :=
  let chars := s.toList
  let quotes := quotesOf chars
  let mark := if quotes.escapes then "\"" else "'"
  let marks := if quotes.spansLines then mark ++ mark ++ mark else mark
  let start := if quotes.spansLines && chars.contains '\n' then "\n" else ""
  let body := if quotes.escapes then String.ofList (escaped quotes.spansLines 0 chars) else s
  marks ++ start ++ body ++ marks

/-! ## Files -/

/-- An array of strings. -/
def array : List String → String
  | [] => "[]"
  | [item] => "[" ++ quote item ++ "]"
  | items => "[" ++ String.join (items.map fun item => "\n    " ++ quote item ++ ",") ++ "\n]"

/-- A line with a key and its value. -/
def line (key value : String) : String :=
  key ++ " = " ++ value ++ "\n"

/-- The text of a settings file. -/
def render (s : Settings) : String :=
  "[scan]\n" ++
  line "file_extensions" (array s.scan.fileExtensions) ++
  line "excluded_paths" (array s.scan.excludedPaths) ++
  line "max_file_size" (toString s.scan.maxFileSize) ++
  line "default_paths" (array s.scan.defaultPaths) ++
  line "context_radius" (toString s.scan.contextRadius) ++
  line "parallel" (if s.scan.parallel then "true" else "false") ++
  "\n[rules]\n" ++
  line "disabled" (array s.rules.disabled) ++
  match s.rules.failOn with
  | none => ""
  | some severity => line "fail_on" (quote severity.name)

end Settings

end CodeAudit
