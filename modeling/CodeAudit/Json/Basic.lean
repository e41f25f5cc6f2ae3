/-!
# JSON values

The values that results are written as and requests are read from. The fields of an object keep
their order. A number with a fraction or an exponent, or beyond 64 bits, is kept apart from the
integers, because no field of a request takes one.
-/

namespace CodeAudit

/-- A JSON value. -/
inductive Json where
  | null
  | bool (value : Bool)
  | int (value : Int)
  /-- A number that is not an integer of 64 bits, as it is written. -/
  | decimal (written : String)
  | str (value : String)
  | arr (items : List Json)
  | obj (fields : List (String × Json))

namespace Json

instance : Inhabited Json := ⟨null⟩

/-- A natural number. -/
def nat (n : Nat) : Json := int n

/-- A text given by its characters. -/
def text (s : List Char) : Json := str (String.ofList s)

/-- A list of texts. -/
def strs (items : List String) : Json := arr (items.map str)

/-- The value, or null. -/
def ofOption {α : Type} (f : α → Json) : Option α → Json
  | none => null
  | some a => f a

/-- The first field of an object under a name. -/
def field? (name : String) : Json → Option Json
  | obj fields => fields.lookup name
  | _ => none

end Json

end CodeAudit
