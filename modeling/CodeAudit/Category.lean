import CodeAudit.Text.Find

/-!
# Categories

The six groups of rules. Requests name them loosely: white space around a name and ASCII case do
not count, and three names have aliases. `resolve` keeps what it knows of a request, without
repetition and in canonical order.
-/

namespace CodeAudit

open Text

/-- A group of rules. -/
inductive Category where
  | security
  | performance
  | quality
  | idiom
  | inheritance
  | template
  deriving DecidableEq, Repr

namespace Category

/-- All categories in canonical order (`Category::ALL`). -/
def all : List Category :=
  [security, performance, quality, idiom, inheritance, template]

/-- Place in the canonical order. -/
def rank : Category → Nat
  | security => 0
  | performance => 1
  | quality => 2
  | idiom => 3
  | inheritance => 4
  | template => 5

/-- The written name (`as_str`). -/
def name : Category → String
  | security => "security"
  | performance => "performance"
  | quality => "quality"
  | idiom => "laravel-idiom"
  | inheritance => "inheritance"
  | template => "template"

/-- The category that a request names (`from_str`). -/
def parse? (request : String) : Option Category :=
  match String.ofList (lowerAscii (trim request.toList)) with
  | "security" => some security
  | "performance" => some performance
  | "quality" => some quality
  | "laravel-idiom" => some idiom
  | "laravel_idiom" => some idiom
  | "laravel" => some idiom
  | "inheritance" => some inheritance
  | "template" => some template
  | "blade" => some template
  | _ => none

/-- What is said about a name that no category has. -/
def unknownText (request : String) : String :=
  "unknown category '" ++ String.ofList (lowerAscii (trim request.toList)) ++ "'"

/-- The category that stored data names, to the letter. -/
def ofName? : String → Option Category
  | "security" => some security
  | "performance" => some performance
  | "quality" => some quality
  | "laravel-idiom" => some idiom
  | "laravel" => some idiom
  | "inheritance" => some inheritance
  | "template" => some template
  | "blade" => some template
  | _ => none

/-- The known categories of a request, in canonical order. Unknown names are dropped. -/
def known (requested : List String) : List Category :=
  let parsed := requested.filterMap parse?
  all.filter parsed.contains

/-- The known categories of a request, or nothing if it names none (`Category::resolve`). -/
def resolve? (requested : List String) : Option (List Category) :=
  match known requested with
  | [] => none
  | categories => some categories

end Category

end CodeAudit
