import CodeAudit.Check.TemplateOutput

/-!
# Forms

A form that posts must carry a request token. Forms may span lines, and a line may hold several.
-/

namespace CodeAudit.Check.Form

open Text

section Patterns

open Pattern

/-- The start of a form (`FORM_OPEN_RE`). -/
def formStart : Pattern := anyCase "<form" ++ wordEdge

/-- The end of a form (`FORM_CLOSE_RE`). -/
def formEnd : Pattern := anyCase "</form" ++ blanks ++ char '>'

/-- The attribute of a form that posts (`POST_METHOD_RE`). -/
def postMethod : Pattern :=
  wordEdge ++ anyCase "method" ++ blanks ++ char '=' ++ blanks ++ opt (oneOf "\"'") ++ blanks ++
    anyCase "post" ++ wordEdge

/-- A request token (`CSRF_RE`). -/
def requestToken : Pattern :=
  lit "@csrf" ++ wordEdge <|> wordEdge ++ lit "csrf_field" ++ blanks ++ char '(' <|>
    wordEdge ++ lit "csrf_token" ++ blanks ++ char '('

end Patterns

/-- A form whose end was not met yet. -/
structure OpenForm where
  row : Nat
  /-- What was read of the opening tag. -/
  tag : List Char := []
  tagClosed : Bool := false
  hasToken : Bool := false

namespace OpenForm

/-- Reads on in the opening tag, up to the bracket that ends it (`extend_tag`). -/
def extendTag (form : OpenForm) (text : List Char) : OpenForm :=
  if form.tagClosed then form
  else
    match cut? ['>'] text with
    | some (before, _) => { form with tag := form.tag ++ before, tagClosed := true }
    | none => { form with tag := form.tag ++ text ++ [' '] }

/-- Looks for a request token in what belongs to the form. -/
def readBody (form : OpenForm) (body : List Char) : OpenForm :=
  { form with hasToken := form.hasToken || requestToken.isIn body }

/-- The finding about a form that posts without a token (`check`). -/
def issues (s : Subject) (form : OpenForm) : List Issue :=
  if postMethod.isIn form.tag && !form.hasToken then
    [s.report .template "missing_csrf" .high form.row "POST form without CSRF token"
      "The form posts without a CSRF token" "Add @csrf inside the form"]
  else []

end OpenForm

/-- Enters the form that is open, or else the next one that starts in the text. Gives the form and
    what follows in it. -/
def enter? (row : Nat) (form : Option OpenForm) (text : List Char) :
    Option (OpenForm × List Char) :=
  match form with
  | some form => some (form, text)
  | none =>
    (formStart.find? text).map fun start =>
      let rest := start.after.rest
      (OpenForm.extendTag ⟨row, [], false, false⟩ rest, rest)

/-- Reads forms from a stretch of a line, at most `fuel` of them. Gives the findings about those
    that end in it, and the one that stays open. -/
def readLine (s : Subject) (row : Nat) :
    Nat → Option OpenForm → List Char → List Issue × Option OpenForm
  | 0, form, _ => ([], form)
  | fuel + 1, form, text =>
    match enter? row form text with
    | none => ([], none)
    | some (form, rest) =>
      match formEnd.find? rest with
      | none => ([], some (form.readBody rest))
      | some close =>
        let body := (takeBytes? close.whole.start rest).getD []
        let (issues, last) := readLine s row fuel none close.after.rest
        ((form.readBody body).issues s ++ issues, last)

/-- Reads forms from lines, given the form that is open before them. -/
def readLines (s : Subject) (form : Option OpenForm) : List (Nat × List Char) → List Issue
  | [] =>
    match form with
    | none => []
    | some form => form.issues s
  | (row, line) :: rest =>
    let (issues, last) :=
      readLine s row (line.length + 1) (form.map fun form => form.extendTag line) line
    issues ++ readLines s last rest

/-- Findings about forms. -/
def run (s : Subject) : List Issue :=
  readLines s none s.templateLines

/-- The check of forms (`Forms`). -/
def check : Check := .ofBlade "forms" run

end CodeAudit.Check.Form
