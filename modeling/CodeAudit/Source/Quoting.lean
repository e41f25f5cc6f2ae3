import CodeAudit.Text.Bytes

/-!
# Quoted strings on a line

Single and double quotes delimit strings, and a backslash inside one takes the next character out
of play. Every line starts outside of strings. `blankStrings` replaces what the quotes enclose by
spaces, a space for each byte, so that offsets into the blanked line are offsets into the line.
-/

namespace CodeAudit.Source

open Text

/-- Where a reading of a line stands with respect to quoted strings. -/
inductive Quoting where
  /-- Outside of strings. -/
  | outside
  /-- Inside a string that the quote ends, just after a backslash or not. -/
  | inside (quote : Char) (escaped : Bool)
  deriving DecidableEq, Repr

namespace Quoting

/-- The state after one more character. -/
def step : Quoting → Char → Quoting
  | outside, c => if c = '\'' ∨ c = '"' then inside c false else outside
  | inside q true, _ => inside q false
  | inside q false, c =>
    if c = '\\' then inside q true else if c = q then outside else inside q false

/-- Does the character stay when strings are blanked? It does outside of strings, and so does the
    quote that ends a string. -/
def keeps : Quoting → Char → Bool
  | outside, _ => true
  | inside _ true, _ => false
  | inside q false, c => c ≠ '\\' && c = q

/-- The rest of a line with the contents of strings blanked. -/
def blank : Quoting → List Char → List Char
  | _, [] => []
  | s, c :: rest =>
    if s.keeps c then c :: blank (s.step c) rest
    else List.replicate c.utf8Size ' ' ++ blank (s.step c) rest

end Quoting

/-- The line with the contents of strings blanked, byte by byte (`strip_strings`). -/
def blankStrings (line : List Char) : List Char :=
  Quoting.outside.blank line

end CodeAudit.Source
