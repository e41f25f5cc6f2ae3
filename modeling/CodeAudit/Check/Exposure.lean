import CodeAudit.Check.RequestData
import CodeAudit.Check.Subject
import CodeAudit.Pattern.Build
import CodeAudit.Pattern.Search

/-!
# Exposure

Models that take any attribute, request data that is printed as it came, and forged requests that
are let through.
-/

namespace CodeAudit.Check.Exposure

open Text

section Patterns

open Pattern

/-- An empty list of guarded attributes (`OPEN_GUARD_RE`). -/
def openGuard : Pattern :=
  lit "$guarded" ++ blanks ++ char '=' ++ blanks ++ char '[' ++ blanks ++ char ']'

/-- A model that is filled with all request data (`FILL_ALL_RE`). -/
def fillsAll : Pattern :=
  lits ["::", "->"] ++
    lits ["create", "update", "fill", "forceCreate", "forceFill", "insert", "updateOrCreate",
      "firstOrCreate"] ++
    blanks ++ char '(' ++ blanks ++
    lits ["$request->all()", "request()->all()", "$_POST", "$_REQUEST", "Input::all()"]

/-- An output statement, with what it prints as group one (`ECHO_RE`). -/
def output : Pattern :=
  (wordEdge ++ lit "echo" ++ wordEdge <|> wordEdge ++ lit "print" ++ wordEdge <|> lit "<?=") ++
    group 1 (many (noneOf ";"))

/-- A call that makes text safe to print (`ESCAPE_RE`). -/
def escaping : Pattern :=
  wordEdge ++
    lits ["htmlspecialchars", "htmlentities", "strip_tags", "e", "intval", "json_encode"] ++
    blanks ++ char '('

/-- An exception from the check of request tokens for every route (`CSRF_WILDCARD_RE`). -/
def openToken : Pattern :=
  lit "$except" ++ blanks ++ char '=' ++ blanks ++ char '[' ++ blanks ++ oneOf "'\"" ++ char '*' ++
      oneOf "'\"" <|>
    lit "except" ++ blanks ++ char ':' ++ blanks ++ char '[' ++ blanks ++ oneOf "'\"" ++ char '*' ++
      oneOf "'\""

end Patterns

/-- A finding about attributes that anyone can set (`MASS_ASSIGNMENT`). -/
def massAssignment (s : Subject) (row : Nat) (description : String) : Issue :=
  s.report .security "mass_assignment" .high row "Mass assignment" description
    "Declare $fillable and pass $request->validated() or $request->only([...])"

/-- Attributes that anyone can set. -/
def openAttributes (s : Subject) (row : Nat) (code : List Char) : List Issue :=
  if openGuard.isIn code then
    [massAssignment s row "$guarded is empty, every attribute is fillable"]
  else if fillsAll.isIn code then
    [massAssignment s row "Unfiltered request input is mass-assigned"]
  else []

/-- Request data that is printed as it came (`check_echo`). -/
def rawOutput (s : Subject) (row : Nat) (code : List Char) : List Issue :=
  match output.find? code with
  | none => []
  | some found =>
    let printed := found.text 1
    if mentionsRequestData printed && !escaping.isIn printed then
      [s.report .security "xss_echo" .high row "Unescaped output of request data"
        "Request data is echoed without escaping"
        ("Escape with e() / htmlspecialchars(), or render through a Blade " ++
          "\x7b\x7b \x7d\x7d expression")]
    else []

/-- Request tokens that are not checked on any route. -/
def uncheckedToken (s : Subject) (row : Nat) (code : List Char) : List Issue :=
  if openToken.isIn code then
    [s.report .security "csrf_disabled" .high row "CSRF protection disabled"
      "CSRF verification is skipped for every route"
      "List only the specific webhook routes that must skip CSRF verification"]
  else []

/-- Findings about exposure. -/
def run (s : Subject) : List Issue :=
  s.codeLines.flatMap fun line =>
    let code := line.code
    openAttributes s line.row code ++ rawOutput s line.row code ++ uncheckedToken s line.row code

/-- The check of exposure (`Exposure`). -/
def check : Check := .ofPhp "exposure" run

end CodeAudit.Check.Exposure
