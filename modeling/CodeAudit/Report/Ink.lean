/-!
# Ink

Texts for a terminal, with styles and colours. A text may itself hold the mark that ends a style;
the style is then taken up again behind it.
-/

namespace CodeAudit

/-- Colours of letters. -/
inductive Color where
  | red
  | green
  | yellow
  | blue
  | cyan
  deriving DecidableEq, Repr

/-- The number of a colour. -/
def Color.code : Color → String
  | red => "31"
  | green => "32"
  | yellow => "33"
  | blue => "34"
  | cyan => "36"

/-- How a text looks. -/
structure Ink where
  bold : Bool := false
  dim : Bool := false
  underline : Bool := false
  reversed : Bool := false
  color : Option Color := none
  deriving DecidableEq, Repr

namespace Ink

/-- The mark that ends a style. -/
def reset : String := "\x1b[0m"

/-- The numbers of a style, the colour last. -/
def codes (ink : Ink) : List String :=
  (if ink.bold then ["1"] else []) ++
  (if ink.dim then ["2"] else []) ++
  (if ink.underline then ["4"] else []) ++
  (if ink.reversed then ["7"] else []) ++
  ink.color.toList.map Color.code

/-- The mark that begins a style. -/
def start (ink : Ink) : String :=
  "\x1b[" ++ String.intercalate ";" ink.codes ++ "m"

/-- The text with the mark put behind every end of a style inside of it. -/
def reopen (mark : List Char) : List Char → List Char
  | [] => []
  | '\x1b' :: '[' :: '0' :: 'm' :: rest => reset.toList ++ mark ++ reopen mark rest
  | c :: rest => c :: reopen mark rest

/-- The text in this ink, on a terminal with colours or without. -/
def paint (colored : Bool) (ink : Ink) (text : String) : String :=
  if colored then
    ink.start ++ String.ofList (reopen ink.start.toList text.toList) ++ reset
  else text

end Ink

/-! ## Columns -/

/-- The text with blanks in front of it, up to a width. -/
def padLeft (width : Nat) (text : String) : String :=
  String.ofList (List.replicate (width - text.length) ' ') ++ text

/-- The text with blanks behind it, up to a width. -/
def padRight (width : Nat) (text : String) : String :=
  text ++ String.ofList (List.replicate (width - text.length) ' ')

end CodeAudit
