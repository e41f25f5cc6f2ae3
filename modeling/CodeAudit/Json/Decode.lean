import CodeAudit.Json.Basic
import CodeAudit.Word

/-!
# Decoding JSON

Records are read from objects, in which unknown fields do not count, or from lists of their fields
in order, which may be short of fields at the end but not too long.
-/

namespace CodeAudit.Json

/-- The values of the fields of a record, as far as they are given. -/
def record? (names : List String) : Json → Option (List (Option Json))
  | obj fields => some (names.map fun name => fields.lookup name)
  | arr items =>
    if items.length ≤ names.length then
      some ((List.range names.length).map fun i => items[i]?)
    else none
  | _ => none

/-- A natural number below a bound. -/
def natBelow? (bound : Nat) : Json → Option Nat
  | int n => if 0 ≤ n && n < bound then some n.toNat else none
  | _ => none

/-- A natural number of 64 bits. -/
def nat64? (value : Json) : Option Nat := natBelow? Word.bound64 value

/-- A truth value. -/
def bool? : Json → Option Bool
  | bool b => some b
  | _ => none

/-- A text. -/
def str? : Json → Option String
  | str s => some s
  | _ => none

/-- A list of texts. -/
def strs? : Json → Option (List String)
  | arr items => items.mapM str?
  | _ => none

/-- A field that must be given. -/
def required? {α : Type} (read : Json → Option α) (value : Option Json) : Option α :=
  value.bind read

/-- A field with a default value. -/
def optional? {α : Type} (read : Json → Option α) (default : α) : Option Json → Option α
  | none => some default
  | some value => read value

/-- One of several names: as a text, or as the only field of an object, with nothing under it. -/
def name? {α : Type} (ofName : String → Option α) : Json → Option α
  | str s => ofName s
  | obj [(s, null)] => ofName s
  | _ => none

end CodeAudit.Json
