import CodeAudit.Text.Find

/-!
# Request data

Expressions through which the data of a request enters a program.
-/

namespace CodeAudit.Check

open Text

/-- Spellings of request data (`SOURCES`). -/
def requestSources : List String :=
  ["$_GET", "$_POST", "$_REQUEST", "$_COOKIE", "$_FILES", "$_SERVER", "$request->", "request(",
    "request()->", "Request::", "Input::", "->input(", "->query("]

/-- Does request data appear in the text (`mentions_user_input`)? -/
def mentionsRequestData (text : List Char) : Bool :=
  requestSources.any fun source => mentions source text

end CodeAudit.Check
