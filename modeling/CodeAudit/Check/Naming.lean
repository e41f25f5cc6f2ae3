import CodeAudit.Check.Assignment
import CodeAudit.Check.Documentation
import CodeAudit.Rule
import CodeAudit.Text.Naming

/-!
# Naming

Names of variables, classes and methods. A variable in snake case is often right (it is named like
a column, a setting or a library function), so that there are several excuses for one.
-/

namespace CodeAudit.Check.Naming

open Text

/-- Customary names of counters and coordinates (`SHORT_NAME_ALLOW`). -/
def shortNames : List String := ["i", "j", "k", "n", "m", "x", "y", "z"]

/-- Names of columns that often become variables (`COLUMN_NAMES`). -/
def columnNames : List String :=
  ["created_at", "updated_at", "deleted_at", "user_id", "email_verified_at", "remember_token",
    "first_name", "last_name", "full_name", "phone_number", "post_id", "team_id", "parent_id",
    "order_id", "product_id", "category_id", "company_id", "published_at", "expires_at",
    "started_at", "ended_at", "sort_order", "is_active", "is_admin", "password_confirmation",
    "api_token", "ip_address", "user_agent", "last_activity", "payload"]

/-- Beginnings of names that tests use (`TEST_PREFIXES`). -/
def testBeginnings : List String := ["test_", "expected_", "mock_", "stub_"]

section Patterns

open Pattern

/-- A small Latin letter. -/
def lower : Pattern := one Char.isLower

/-- A small Latin letter or a digit. -/
def lowerOrDigit : Pattern := one fun c => c.isLower || c.isDigit

/-- A small Latin letter, a digit or an underscore. -/
def lowerDigitScore : Pattern := one fun c => c.isLower || c.isDigit || c == '_'

/-- The variable of a catch clause as group one (`CATCH_VAR_RE`). -/
def caughtVariable : Pattern :=
  lit "catch" ++ blanks ++ char '(' ++ many (noneOf ")") ++ char '$' ++ group 1 (many1 word) ++
    blanks ++ char ')'

/-- The head of a class with its name as group one (`CLASS_DECL_RE`). -/
def classHead : Pattern :=
  textStart ++ blanks ++ Documentation.classModifiers ++ lit "class" ++ blanks1 ++
    group 1 (many1 word)

/-- A value that is a constant (`CONSTANT_RHS_RE`). -/
def constantValue : Pattern :=
  textStart ++ blanks ++
    opt (opt (char '\\') ++ many1 (one fun c => isWord c || c == '\\') ++ lit "::") ++
    one Char.isUpper ++ many (one fun c => c.isUpper || c.isDigit || c == '_') ++ blanks ++
    (char ';' <|> textEnd <|> char ')' <|> char ',' <|> char '?' <|> char ':' <|> char '.')

/-- A value that is a call of a function in snake case (`SNAKE_CALL_RHS_RE`). -/
def snakeCallValue : Pattern :=
  textStart ++ blanks ++ opt (char '(' ++ many1 word ++ char ')' ++ blanks) ++ opt (char '\\') ++
    lower ++ many lowerOrDigit ++ many1 (char '_' ++ many1 lowerOrDigit) ++ blanks ++ char '('

/-- A value that reads a property or an entry in snake case (`SNAKE_ACCESS_RHS_RE`). -/
def snakeAccessValue : Pattern :=
  lits ["->", "?->"] ++ lower ++ many lowerOrDigit ++ char '_' ++ many1 lowerDigitScore ++
      wordEdge <|>
    char '[' ++ blanks ++ oneOf "'\"" ++ lower ++ many lowerOrDigit ++ char '_' ++
      many1 lowerDigitScore ++ oneOf "'\"" ++ blanks ++ char ']'

/-- A value that is a setting (`ENV_RHS_RE`). -/
def settingValue : Pattern :=
  textStart ++ blanks ++ opt (char '\\') ++ lits ["env", "config", "getenv"] ++ blanks ++ char '('

/-- A mention of the schema builder (`MIGRATION_RE`). -/
def schemaMention : Pattern :=
  wordEdge ++ lit "Schema::" <|> wordEdge ++ lit "Blueprint" ++ wordEdge

end Patterns

/-! ## Variables -/

/-- The variables of all catch clauses. -/
def caughtVariables (s : Subject) : List (List Char) :=
  (caughtVariable.findAll s.content).map (·.text 1)

/-- Is the name too short to tell anything (`is_short_violation`)? -/
def isTooShort (caught : List (List Char)) (name : List Char) : Bool :=
  match name with
  | [c] => c.isAlpha && !shortNames.contains (String.ofList name) && !caught.contains name
  | _ => false

/-- Does the file deal with the schema of the database? -/
def isSchemaFile (s : Subject) : Bool :=
  s.role == .migration || schemaMention.isIn s.content

/-- Is there a reason for the name to be in snake case (`snake_case_excused`)? -/
def excusesSnakeCase (role : Role) (schema : Bool) (a : Assignment) : Bool :=
  columnNames.contains (String.ofList a.name) || schema || constantValue.isIn a.value ||
    snakeCallValue.isIn a.value || snakeAccessValue.isIn a.value || settingValue.isIn a.value ||
    (role == .test && testBeginnings.any fun start => beginsWith start a.name)

/-- Findings about one assignment, each under its rule and the variable. -/
def variableIssues (s : Subject) (caught : List (List Char)) (schema : Bool) (a : Assignment) :
    List ((Rule × List Char) × Issue) :=
  let name := String.ofList a.name
  (if isTooShort caught a.name then
    [((.singleLetterVariable, a.name),
      (s.report .quality "single_letter_variable" .low a.row "Single-letter variable"
        ("Variable '$" ++ name ++ "' does not describe its contents")
        "Use a descriptive name").withMetadata "variable" (.str name))]
    else []) ++
  if isSnakeCase a.name && !excusesSnakeCase s.role schema a then
    [((.snakeCaseVariable, a.name),
      (s.report .quality "snake_case_variable" .info a.row "snake_case variable"
        ("Variable '$" ++ name ++ "' is not camelCase")
        "PSR-1/Laravel style uses camelCase for variables").withMetadata "variable" (.str name))]
  else []

/-- Findings about variables, one per rule and name (`check_variables`). -/
def variableNames (s : Subject) : List Issue :=
  let caught := caughtVariables s
  let schema := isSchemaFile s
  firstPerKey [] (s.assignments.flatMap (variableIssues s caught schema))

/-! ## Classes and methods -/

/-- A class whose name is not in Pascal case (`check_class_name`). -/
def className (s : Subject) (line : SourceLine) : List Issue :=
  match classHead.find? line.text with
  | none => []
  | some head =>
    let name := String.ofList (head.text 1)
    if isPascalCase (head.text 1) then []
    else
      [(s.report .quality "class_naming" .medium line.row "Class name is not PascalCase"
        ("Class '" ++ name ++ "' should be PascalCase")
        "Rename the class (and its file) to PascalCase per PSR-1").withMetadata "class"
        (.str name)]

/-- Is the name right for a method? -/
def isMethodName (role : Role) (name : List Char) : Bool :=
  isCamelCase name || beginsWith "__" name || (role == .test && beginsWith "test_" name)

/-- A method whose name is not in camel case (`check_method_name`). -/
def methodName (s : Subject) (line : SourceLine) : List Issue :=
  match Documentation.methodHead.find? line.text with
  | none => []
  | some head =>
    let name := String.ofList (head.text 3)
    let inClass := !(head.text 1).isEmpty || !(head.text 2).isEmpty
    if !inClass || isMethodName s.role (head.text 3) then []
    else
      [(s.report .quality "method_naming" .low line.row "Method name is not camelCase"
        ("Method '" ++ name ++ "' should be camelCase")
        "Rename the method to camelCase per PSR-1").withMetadata "method" (.str name)]

/-- Findings about names. -/
def run (s : Subject) : List Issue :=
  variableNames s ++ s.codeLines.flatMap fun line => className s line ++ methodName s line

/-- The check of names (`NamingConventions`). -/
def check : Check := .ofPhp "naming_conventions" run

end CodeAudit.Check.Naming
