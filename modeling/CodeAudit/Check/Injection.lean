import CodeAudit.Check.RequestData
import CodeAudit.Check.Subject
import CodeAudit.Pattern.Build
import CodeAudit.Pattern.Search

/-!
# Injection

Places where computed text is run as a query, as a shell command, as code or as a file to include,
or is turned back into objects.
-/

namespace CodeAudit.Check.Injection

open Text Source

section Patterns

open Pattern

/-- Blanks and an open parenthesis. -/
def openCall : Pattern := blanks ++ char '('

/-- A quote of either sort. -/
def quoteMark : Pattern := oneOf "'\""

/-- A call that runs a query text (`RAW_SQL_RE`). -/
def queryCall : Pattern :=
  lit "DB::" ++
      lits ["select", "statement", "unprepared", "insert", "update", "delete", "raw"] ++
      openCall <|>
    lits ["->", "::"] ++
      lits ["whereRaw", "selectRaw", "orderByRaw", "havingRaw", "groupByRaw", "fromRaw"] ++
      openCall <|>
    wordEdge ++ lit "mysqli_query" ++ openCall <|>
    wordEdge ++ lit "mysql_query" ++ openCall <|>
    lit "->query" ++ openCall <|>
    lit "->exec" ++ openCall

/-- A string with a variable in it, or one that is joined with a variable (`INTERPOLATED_RE`). -/
def computedString : Pattern :=
  char '"' ++ many (noneOf "\"") ++ (char '$' ++ word <|> lit "\x7b$") ++ many (noneOf "\"") ++
      char '"' <|>
    quoteMark ++ blanks ++ char '.' ++ blanks ++ char '$' ++ word <|>
    char '$' ++ many1 word ++
      many (lit "->" ++ many1 word <|> char '[' ++ many (noneOf "]") ++ char ']') ++ blanks ++
      char '.' ++ blanks ++ quoteMark

/-- A call of a shell function: its name and its arguments as groups one and two (`SHELL_RE`). -/
def shellCall : Pattern :=
  wordEdge ++
    group 1 (lits ["exec", "shell_exec", "system", "passthru", "proc_open", "popen"]) ++ openCall ++
    group 2 (many (noneOf ";"))

/-- A shell command in backticks with a variable in it (`BACKTICK_RE`). -/
def backtickCommand : Pattern :=
  char '`' ++ many (noneOf "`") ++ char '$' ++ word ++ many (noneOf "`") ++ char '`'

/-- A call that runs text as code (`EVAL_RE`). -/
def codeCall : Pattern :=
  wordEdge ++ lit "eval" ++ openCall <|>
    wordEdge ++ lit "assert" ++ openCall ++ blanks ++ char '$' <|>
    wordEdge ++ lit "create_function" ++ openCall <|>
    wordEdge ++ lit "preg_replace" ++ openCall ++ blanks ++ quoteMark ++ many any ++ char '/' ++
      many (one Char.isLower) ++ char 'e' ++ many (one Char.isLower) ++ quoteMark

/-- The inclusion of a file, with the path as group one (`INCLUDE_RE`). -/
def inclusion : Pattern :=
  wordEdge ++ lits ["include", "include_once", "require", "require_once"] ++ wordEdge ++
    group 1 (many (noneOf ";"))

/-- A call that turns a variable back into objects (`UNSERIALIZE_RE`). -/
def revival : Pattern :=
  wordEdge ++ lit "unserialize" ++ openCall ++ blanks ++ char '$'

end Patterns

/-- A query text with computed parts (`check_sql`). -/
def query (s : Subject) (row : Nat) (code : List Char) : List Issue :=
  match queryCall.find? code with
  | none => []
  | some call =>
    if computedString.isIn call.after.rest then
      let name := trim ((call.whole.text.reverse.dropWhile (· == '(')).reverse)
      [s.report .security "sql_injection" .critical row "Possible SQL injection"
        ("Raw query `" ++ String.ofList name ++
          "` is built from interpolated or concatenated values")
        "Use parameter bindings (`?` placeholders) or the query builder"]
    else []

/-- A finding about a shell command (`COMMAND`). -/
def commandIssue (s : Subject) (row : Nat) (description : String) : Issue :=
  s.report .security "command_injection" .critical row "Possible command injection" description
    ("Avoid shell calls with variables; use escapeshellarg() or Symfony Process " ++
      "with an argument array")

/-- A shell command with variables in it, unless the line escapes something (`check_shell`). -/
def command (s : Subject) (row : Nat) (code : List Char) : List Issue :=
  let bare := blankStrings code
  let takesVariable (found : Match) : Bool :=
    isBareCall bare found.whole.start &&
      (found.group? 2).any fun place =>
        (slice? place.start place.stop code).any (·.contains '$')
  let escaped := mentions "escapeshellarg" code || mentions "escapeshellcmd" code
  match (shellCall.findAll bare).find? takesVariable with
  | some call =>
    if escaped then []
    else
      [commandIssue s row
        ("`" ++ String.ofList (call.text 1) ++ "()` receives a variable argument")]
  | none =>
    if backtickCommand.isIn code && !escaped then
      [commandIssue s row "Backtick shell execution interpolates a variable"]
    else []

/-- A call that runs text as code (`check_eval`). -/
def dynamicCode (s : Subject) (row : Nat) (code : List Char) : List Issue :=
  let bare := blankStrings code
  let isCall (found : Match) : Bool :=
    isBareCall code found.whole.start &&
      ((dropBytes? found.whole.start bare).bind List.head?) != some ' '
  match (codeCall.findAll code).find? isCall with
  | none => []
  | some call =>
    let name := trim (call.whole.text.takeWhile (· != '('))
    [s.report .security "code_injection" .critical row "Dynamic code execution"
      ("`" ++ String.ofList name ++ "` executes dynamically built code")
      "Remove eval-style execution; dispatch to known callables instead"]

/-- An included file whose path comes from request data (`check_include`). -/
def includedFile (s : Subject) (row : Nat) (code : List Char) : List Issue :=
  match inclusion.find? code with
  | none => []
  | some found =>
    if mentionsRequestData (found.text 1) then
      [s.report .security "file_inclusion" .critical row "File inclusion from request data"
        "Included path is derived from request data"
        "Map user input to an allow-list of known files"]
    else []

/-- A variable that is turned back into objects of any class (`check_unserialize`). -/
def revivedObjects (s : Subject) (row : Nat) (code : List Char) : List Issue :=
  match revival.find? code with
  | none => []
  | some found =>
    if isBareCall code found.whole.start && !mentions "allowed_classes" code then
      [s.report .security "unsafe_deserialization" .high row "Unsafe deserialization"
        "unserialize() on a variable can instantiate arbitrary objects"
        "Use json_decode(), or pass ['allowed_classes' => false] to unserialize()"]
    else []

/-- Findings about injection. -/
def run (s : Subject) : List Issue :=
  s.codeLines.flatMap fun line =>
    let code := line.code
    query s line.row code ++ command s line.row code ++ dynamicCode s line.row code ++
      includedFile s line.row code ++ revivedObjects s line.row code

/-- The check of injection (`Injection`). -/
def check : Check := .ofPhp "injection" run

end CodeAudit.Check.Injection
