import CodeAudit.Check.TemplateOutput

/-!
# Directives

Block directives of a template come in pairs. Each sort of block is reported once.
-/

namespace CodeAudit.Check.Directive

open Text

section Patterns

open Pattern

/-- A directive, with its word as group one (`DIRECTIVE_RE`). -/
def directive : Pattern := char '@' ++ group 1 (many1 word)

/-- The arguments of a section that has its content among them and needs no end
    (`INLINE_SECTION_RE`). -/
def inlineContent : Pattern :=
  textStart ++ blanks ++ char '(' ++ blanks ++ oneOf "'\"" ++ many (noneOf "'\"") ++ oneOf "'\"" ++
    blanks ++ char ','

end Patterns

/-- Sorts of block: the word that opens one and the words that close it (`BLOCKS`). -/
def blocks : List (String × List String) :=
  [("if", ["endif"]), ("foreach", ["endforeach"]), ("for", ["endfor"]),
    ("forelse", ["endforelse"]), ("while", ["endwhile"]),
    ("section", ["endsection", "stop", "show", "overwrite", "append"]), ("push", ["endpush"]),
    ("auth", ["endauth"]), ("guest", ["endguest"]), ("isset", ["endisset"]), ("can", ["endcan"]),
    ("component", ["endcomponent"]), ("unless", ["endunless"]), ("switch", ["endswitch"])]

/-- A directive in a template. -/
structure Occurrence where
  row : Nat
  word : String
  /-- What follows on the line. -/
  rest : List Char

/-- The directives on a line. Escaped ones and parts of addresses do not count. -/
def occurrences (row : Nat) (line : List Char) : List Occurrence :=
  (directive.findAll line).filterMap fun found =>
    let glued := (charBefore? line found.whole.start).any fun c =>
      c == '@' || isLetterOrDigit c || c == '.'
    if glued then none else some ⟨row, String.ofList (found.text 1), found.after.rest⟩

/-- The directives that stand outside of verbatim stretches. -/
def outsideVerbatim (inside : Bool) : List Occurrence → List Occurrence
  | [] => []
  | occurrence :: later =>
    match occurrence.word with
    | "verbatim" => outsideVerbatim true later
    | "endverbatim" => outsideVerbatim false later
    | _ =>
      if inside then outsideVerbatim true later
      else occurrence :: outsideVerbatim false later

/-- A block that a directive opens or closes. -/
structure Mark where
  opens : Bool
  block : String
  row : Nat

/-- The block that a directive opens or closes (`classify`). -/
def mark? (occurrence : Occurrence) : Option Mark := do
  let (block, _) ← blocks.find? fun (block, closers) =>
    block == occurrence.word || closers.contains occurrence.word
  let opens := block == occurrence.word
  if opens && block == "section" && inlineContent.isIn occurrence.rest then none
  return ⟨opens, block, occurrence.row⟩

/-- A block without its other half. -/
structure Unpaired where
  block : String
  row : Nat
  problem : String

/-- A block that is never closed. -/
def Unpaired.neverClosed (entry : String × Nat) : Unpaired :=
  ⟨entry.1, entry.2, "is never closed"⟩

/-- The blocks without their other half, given those that are open, innermost first (the loop of
    `Directives::analyze`). The end of a block leaves those open in it without theirs (`close`). -/
def unpaired (stack : List (String × Nat)) : List Mark → List Unpaired
  | [] => (stack.map Unpaired.neverClosed).reverse
  | mark :: later =>
    if mark.opens then unpaired ((mark.block, mark.row) :: stack) later
    else
      let inner := stack.takeWhile fun entry => entry.1 != mark.block
      match stack.drop inner.length with
      | [] => ⟨mark.block, mark.row, "is closed without being opened"⟩ :: unpaired stack later
      | _ :: outer => (inner.map Unpaired.neverClosed).reverse ++ unpaired outer later

/-- The finding about a block without its other half (`report`). -/
def issue (s : Subject) (u : Unpaired) : Issue :=
  (s.report .template "unclosed_directive" .medium u.row "Unbalanced directive"
    ("@" ++ u.block ++ " " ++ u.problem)
    ("Pair every @" ++ u.block ++ " with its closing directive")).withMetadata "directive"
    (.str u.block)

/-- Findings about directives, by line. -/
def run (s : Subject) : List Issue :=
  let found := s.templateLines.flatMap fun (row, line) => occurrences row line
  let pairs := (unpaired [] ((outsideVerbatim false found).filterMap mark?)).map fun u =>
    (u.block, issue s u)
  (firstPerKey [] pairs).mergeSort fun a b => a.line ≤ b.line

/-- The check of directives (`Directives`). -/
def check : Check := .ofBlade "directives" run

end CodeAudit.Check.Directive
