import CodeAudit.Check.Assignment
import CodeAudit.Word

/-!
# Practice

Numbers without a name, empty catch blocks, debugging that was left behind, and variables that
nothing reads.
-/

namespace CodeAudit.Check.Practice

open Text Source

section Patterns

open Pattern

/-- A Latin letter. -/
def letter : Pattern := one Char.isAlpha

/-- A number with what is glued to its end (`NUMBER_RE`). -/
def numeral : Pattern :=
  many1 digit ++ opt (char '.' ++ many1 digit) ++ many (one fun c => c.isAlpha || c == '%')

/-- A definition of a constant (`CONST_LINE_RE`). -/
def constantLine : Pattern :=
  wordEdge ++ anyCase "const" ++ wordEdge <|> wordEdge ++ anyCase "define" ++ blanks ++ char '('

/-- A mention of a version (`VERSION_RE`). -/
def versionMention : Pattern :=
  anyCase "version" <|> anyCase "build" <|> wordEdge ++ anyCase "v" ++ many1 digit

/-- A call that takes a status code (`HTTP_STATUS_RE`). -/
def statusCall : Pattern :=
  wordEdge ++ lit "abort" ++ opt (lits ["_if", "_unless"]) ++ blanks ++ char '(' <|>
    wordEdge ++ lit "response" ++ blanks ++ char '(' <|>
    lit "->status" ++ blanks ++ char '(' <|>
    lit "->setStatusCode" ++ blanks ++ char '(' <|>
    lit "->json" ++ blanks ++ char '(' <|>
    lit "->assertStatus" ++ blanks ++ char '('

/-- A date or a time of day (`DATE_RE`). -/
def dateOrTime : Pattern :=
  wordEdge ++ times digit 4 ++ char '-' ++ times digit 2 ++ char '-' ++ times digit 2 ++
      wordEdge <|>
    wordEdge ++ digit ++ opt digit ++ char ':' ++ times digit 2 ++
      opt (char ':' ++ times digit 2) ++ wordEdge

/-- A style property that waits for its value at the end of the text (`CSS_PROPERTY_RE`). -/
def styleProperty : Pattern :=
  (textStart <|> one fun c => isBlank c || c == ';' || c == '\x7b') ++ one Char.isLower ++
    many (one fun c => c.isLower || c == '-') ++ blanks ++ char ':' ++ blanks ++ textEnd

/-- A markup attribute that waits for its value at the end of the text (`HTML_ATTR_RE`). -/
def markupAttribute : Pattern :=
  (textStart <|> one fun c => isBlank c || c == '<') ++ letter ++
    many (one fun c => isWord c || c == '-') ++ char '=' ++ opt (oneOf "\"'") ++ textEnd

/-- The head of a catch clause. -/
def catchHead : Pattern :=
  wordEdge ++ lit "catch" ++ blanks ++ char '(' ++ many (noneOf ")") ++ char ')' ++ blanks

/-- A catch clause with an empty block (`CATCH_INLINE_RE`). -/
def emptyCatch : Pattern :=
  catchHead ++ char '\x7b' ++ blanks ++ char '\x7d'

/-- A catch clause at the end of a line, with its open brace, if it is there, as group one
    (`CATCH_OPEN_RE`). -/
def openCatch : Pattern :=
  catchHead ++ opt (group 1 (char '\x7b')) ++ blanks ++ textEnd

/-- A call of a debugging function, named as group one (`DEBUG_RE`). -/
def debugCall : Pattern :=
  wordEdge ++ group 1 (lits ["dd", "dump", "var_dump", "print_r", "ray"]) ++ blanks ++ char '('

/-- A variable, named as group one (`VARIABLE_RE`). -/
def variablePattern : Pattern :=
  char '$' ++ group 1 (many1 word)

/-- A call that takes variables by name, with its arguments as group one (`COMPACT_RE`). -/
def compactCall : Pattern :=
  wordEdge ++ lit "compact" ++ blanks ++ char '(' ++ group 1 (many (noneOf ")")) ++ char ')'

/-- A name in quotes, as group one (`QUOTED_NAME_RE`). -/
def quotedName : Pattern :=
  oneOf "'\"" ++ group 1 (many1 word) ++ oneOf "'\""

/-- The declaration of a property, named as group one (`PROPERTY_DECL_RE`). -/
def propertyDeclaration : Pattern :=
  textStart ++ blanks ++ lits ["public", "protected", "private", "var"] ++
    many (blanks1 ++ lits ["static", "readonly"]) ++
    opt (blanks1 ++ opt (char '?') ++ many1 (one fun c => isWord c || c == '\\' || c == '|')) ++
    blanks1 ++ char '$' ++ group 1 (many1 word) ++ blanks ++ oneOf "=;"

end Patterns

/-! ## Numbers -/

/-- The least number that needs a name (`MAGIC_THRESHOLD`). -/
def magicThreshold : Nat := 10

/-- The value of a numeral of Latin digits, if it fits in a word of 64 bits. -/
def decimalValue? (numeral : List Char) : Option Nat :=
  if numeral.isEmpty || !numeral.all Char.isDigit then none
  else
    let value := numeral.foldl (fun n c => 10 * n + (c.toNat - '0'.toNat)) 0
    if value < Word.bound64 then some value else none

/-- Does the character before a numeral make it part of something else? -/
def gluesNumeral (c : Char) : Bool :=
  isLetterOrDigit c || c == '_' || c == '$' || c == '.' || c == '#' || c == '\\'

/-- The value of a numeral that nothing around it explains: it is not part of a name, a date, a
    status code, an index, a style or an attribute. -/
def magicValue? (code : List Char) (dates : List Span) (status : Bool) (found : Match) :
    Option Nat := do
  let place := found.whole
  let value ← decimalValue? place.text
  let before := (takeBytes? place.start code).getD []
  let explained :=
    before.getLast?.any gluesNumeral || value < magicThreshold ||
    dates.any (fun date => date.start ≤ place.start && place.stop ≤ date.stop) ||
    (status && 100 ≤ value && value ≤ 599) ||
    (endsWith "[" (trimEnd before) && beginsWith "]" (trimStart found.after.rest)) ||
    styleProperty.isIn before || markupAttribute.isIn before
  if explained then none else some value

/-- The first number on a line that needs a name (`first_magic_number`). -/
def firstMagicValue? (code : List Char) : Option Nat :=
  let status := statusCall.isIn code
  let dates := (dateOrTime.findAll code).map Match.whole
  (numeral.findAll code).findSome? (magicValue? code dates status)

/-- Numbers without a name (`check_magic_numbers`). Files that are mostly data may have them, and so
    may definitions of constants and versions. -/
def magicNumbers (s : Subject) : List Issue :=
  if s.role.isDeclarative then []
  else
    s.codeLines.filterMap fun line => do
      if constantLine.isIn line.text || versionMention.isIn line.text then none
      let value ← firstMagicValue? line.bare
      return (s.report .quality "magic_number" .low line.row "Magic number"
        ("Literal " ++ toString value ++ " has no name")
        "Extract the value into a named constant or config entry").withMetadata "value"
        (.nat value)

/-! ## Catch blocks -/

/-- Does the first visible line begin with a closing brace? -/
def closesFirst (lines : List (List Char)) : Bool :=
  match lines.dropWhile isBlankLine with
  | [] => false
  | line :: _ => beginsWith "\x7d" (trim line)

/-- Does a line of code, given the lines below it, hold a catch clause with an empty block
    (`is_empty_catch`)? A comment in the block counts as content. -/
def isEmptyCatch (code : List Char) (below : List (List Char)) : Bool :=
  if emptyCatch.isIn code then true
  else
    match openCatch.find? code with
    | none => false
    | some head =>
      if (head.group? 1).isSome then closesFirst below
      else
        match below.dropWhile isBlankLine with
        | [] => false
        | line :: further =>
          let shown := trim line
          beginsWith "\x7b\x7d" shown || (shown == ['\x7b'] && closesFirst further)

/-- Catch clauses that discard what they catch (`check_empty_catch`). -/
def emptyCatches (s : Subject) : List Issue :=
  s.codeLines.filterMap fun line =>
    if isEmptyCatch line.code (s.texts.drop line.row) then
      some <| s.report .quality "empty_catch_block" .medium line.row "Empty catch block"
        "Exception is caught and silently discarded"
        "Log the exception, rethrow it, or comment why ignoring is safe"
    else none

/-! ## Debugging -/

/-- Calls of debugging functions (`check_debug_statements`). -/
def debugCalls (s : Subject) : List Issue :=
  s.codeLines.filterMap fun line => do
    let code := line.bare
    let found ← (debugCall.findAll code).find? fun found => isBareCall code found.whole.start
    let function := String.ofList (found.text 1)
    return (s.report .quality "debug_statement" .medium line.row "Debug statement"
      ("`" ++ function ++ "()` left in code")
      "Remove the call or use the logger").withMetadata "function" (.str function)

/-! ## Unused variables -/

/-- The names of variables that the code of a line uses, also those that it takes by name
    (`variable_usage`). -/
def usedNames (line : SourceLine) : List (List Char) :=
  let code := line.code
  (variablePattern.findAll code).map (·.text 1) ++
    (compactCall.findAll code).flatMap fun call =>
      (quotedName.findAll (call.text 1)).map (·.text 1)

/-- Assignments to variables that occur nowhere else (`check_unused_locals`). Nothing is said about
    files that use variables by computed names. -/
def unusedLocals (s : Subject) : List Issue :=
  if mentions "extract(" s.content || mentions "$$" s.content then []
  else
    let used := s.codeLines.flatMap usedNames
    firstPerKey [] <| s.assignments.filterMap fun a =>
      let name := String.ofList a.name
      if s.role.allowsProperty name || beginsWith "_" a.name || 1 < used.count a.name then none
      else
        some (a.name, (s.report .quality "potential_unused_variable" .low a.row
          "Potentially unused variable"
          ("'$" ++ name ++ "' is assigned but never read")
          "Remove the assignment or use the value").withMetadata "variable" (.str name))

/-- Is the property read through an object or a class anywhere in the text
    (`property_referenced`)? -/
def isPropertyRead (content name : List Char) : Bool :=
  ["->".toList ++ name, "::$".toList ++ name].any fun access =>
    (tails access content.length content).any fun rest =>
      !(rest.head?.any fun c => isLetterOrDigit c || c == '_')

/-- Properties that nothing reads (`check_unused_properties`). -/
def unusedProperties (s : Subject) : List Issue :=
  s.codeLines.filterMap fun line => do
    let found ← propertyDeclaration.find? line.text
    let name := String.ofList (found.text 1)
    if s.role.allowsProperty name || isPropertyRead s.content (found.text 1) then none
    return (s.report .quality "potential_unused_variable" .low line.row
      "Potentially unused property"
      ("Property '$" ++ name ++ "' is declared but never referenced")
      "Remove the property or reference it").withMetadata "variable" (.str name)

/-- Findings about practice. -/
def run (s : Subject) : List Issue :=
  magicNumbers s ++ emptyCatches s ++ debugCalls s ++ unusedLocals s ++ unusedProperties s

/-- The check of practice (`BestPractices`). -/
def check : Check := .ofPhp "best_practices" run

end CodeAudit.Check.Practice
