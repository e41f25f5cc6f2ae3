/-!
# Spelling of names

The three spellings that names of a program follow. They are about ASCII: any other letter takes a
name out of all three.
-/

namespace CodeAudit.Text

/-- A capital followed by letters and digits: `UserController` (`is_pascal_case`). -/
def isPascalCase : List Char → Bool
  | [] => false
  | c :: rest => c.isUpper && rest.all Char.isAlphanum

/-- A small letter followed by letters and digits: `handleRequest` (`is_camel_case`). -/
def isCamelCase : List Char → Bool
  | [] => false
  | c :: rest => c.isLower && rest.all Char.isAlphanum

/-- Small letters, digits and at least one low line, starting with a letter: `user_name`
    (`is_snake_case`). -/
def isSnakeCase (name : List Char) : Bool :=
  name.contains '_' && (name.head?.any Char.isLower) &&
    name.all fun c => c.isLower || c.isDigit || c == '_'

end CodeAudit.Text
