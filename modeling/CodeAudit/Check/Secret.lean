import CodeAudit.Check.Subject
import CodeAudit.Pattern.Build
import CodeAudit.Pattern.Search

/-!
# Secrets

Credentials in the source, and passwords that are hashed weakly.
-/

namespace CodeAudit.Check.Secret

open Text Source

section Patterns

open Pattern

/-- Words that make a name the name of a credential. -/
def credentialWord : Pattern :=
  anyCases ["password", "passwd", "pwd", "secret"] <|>
    anyCase "api" ++ opt (char '_') ++ anyCase "key" <|>
    anyCase "apikey" <|>
    anyCase "access" ++ opt (char '_') ++ anyCase "token" <|>
    anyCase "auth" ++ opt (char '_') ++ anyCase "token" <|>
    anyCase "private" ++ opt (char '_') ++ anyCase "key" <|>
    anyCase "token"

/-- A credential that is given a string: its name and the string as groups one and two
    (`CREDENTIAL_RE`). -/
def credential : Pattern :=
  (char '$' <|> lit "->" <|> oneOf "'\"") ++ group 1 (many word ++ credentialWord ++ many word) ++
    opt (oneOf "'\"") ++ blanks ++ lits ["=>", "="] ++ blanks ++ oneOf "'\"" ++
    group 2 (many (noneOf "'\"")) ++ oneOf "'\""

/-- Validation rules and other words that stand next to names of credentials and are not secret
    (`NON_SECRET_RE`). -/
def commonWord : Pattern :=
  textStart ++
    (anyCases ["required", "nullable", "sometimes", "confirmed", "string", "present", "filled",
      "current_password", "password", "hashed", "encrypted", "hidden", "text", "email", "secret",
      "token", "bearer", "null", "true", "false"] <|> many1 (char '*')) ++
    opt (char ':' ++ many any) ++ textEnd

/-- A call of a weak hash function, named as group one (`WEAK_HASH_RE`). -/
def weakHash : Pattern :=
  wordEdge ++ group 1 (lits ["md5", "sha1"]) ++ blanks ++ char '('

/-- A mention of a password (`PASSWORD_WORD_RE`). -/
def passwordMention : Pattern :=
  anyCase "passw" ++ opt (anyCase "or") ++ anyCase "d" <|>
    wordEdge ++ anyCase "pwd" ++ wordEdge

end Patterns

/-- Does the text look like a secret (`looks_like_secret`)? Empty texts, sentences, validation rules
    and placeholders do not. -/
def looksSecret (text : List Char) : Bool :=
  let value := trim text
  !value.isEmpty && !value.any isBlank && !value.contains '|' && !beginsWith "\x7b" value &&
    !commonWord.isIn value

/-- A credential in the source (`check_credentials`). -/
def hardcoded (s : Subject) (row : Nat) (code : List Char) : List Issue :=
  if mentions "env(" code || mentions "config(" code || mentions "getenv(" code then []
  else
    match credential.find? code with
    | none => []
    | some found =>
      let key := String.ofList (found.text 1)
      if looksSecret (found.text 2) then
        [(s.report .security "hardcoded_credentials" .high row "Hardcoded credential"
          ("'" ++ key ++ "' is assigned a literal value")
          ("Read the value from the environment via config() and keep it out of " ++
            "version control")).withMetadata "key" (.str key)]
      else []

/-- How many lines above and below a hash are searched for a password (`HASH_WINDOW`). -/
def reach : Nat := 2

/-- The lines near a line. -/
def nearby (s : Subject) (row : Nat) : List (List Char) :=
  let first := row - 1 - reach
  (s.texts.drop first).take (row + reach - first)

/-- A weak hash near a password (`check_weak_hash`). -/
def weaklyHashed (s : Subject) (row : Nat) (code : List Char) : List Issue :=
  match weakHash.find? code with
  | none => []
  | some found =>
    if isBareCall code found.whole.start && (nearby s row).any passwordMention.isIn then
      [s.report .security "weak_hashing" .medium row "Weak password hashing"
        ("`" ++ String.ofList (found.text 1) ++ "()` is used near password handling")
        "Use Hash::make() / password_hash() (bcrypt or argon2)"]
    else []

/-- Findings about secrets. Tests may have credentials. -/
def run (s : Subject) : List Issue :=
  s.codeLines.flatMap fun line =>
    let code := line.code
    (if s.role == .test then [] else hardcoded s line.row code) ++ weaklyHashed s line.row code

/-- The check of secrets (`Secrets`). -/
def check : Check := .ofPhp "secrets" run

end CodeAudit.Check.Secret
