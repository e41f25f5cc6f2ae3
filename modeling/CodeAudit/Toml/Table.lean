/-!
# Tables of a settings file

The values of a TOML file, and the rules by which its lines build tables. A table remembers how it
came about, because that decides what may be added to it later:

* a header opens a table once, and may open a table that was only implied before;
* a dotted key may extend a table that is implied or that dotted keys made, and no other;
* an inline table is complete where it stands.
-/

namespace CodeAudit

/-- How a table came about. -/
inductive TableForm where
  /-- By a header of its own, or as the root. -/
  | header
  /-- As the parent of a header. -/
  | implied
  /-- As the parent of a dotted key. -/
  | dotted
  /-- As a value in braces. -/
  | inline
  deriving DecidableEq, Repr

/-- A value of a settings file. Fractions and dates are kept as they are written. -/
inductive Toml where
  | string (value : String)
  | integer (value : Int)
  | float (written : String)
  | boolean (value : Bool)
  | datetime (written : String)
  | array (items : List Toml)
  | table (form : TableForm) (entries : List (String × Toml))
  /-- Tables that headers in double brackets opened one after the other. -/
  | tables (elements : List (List (String × Toml)))

namespace Toml

/-- The entries of a table, in order, each key once. -/
abbrev Entries := List (String × Toml)

/-- The entries with another value under a key that is among them. -/
def Entries.replace (entries : Entries) (key : String) (value : Toml) : Entries :=
  entries.map fun entry => if entry.1 = key then (key, value) else entry

/-- Changes the table at the end of a path. Tables that are missing on the way are made in the form
    `made`; tables of a form that `enters` refuses are not passed. Of tables in a row the last one
    is meant. -/
def Entries.alter (made : TableForm) (enters : TableForm → Bool)
    (change : TableForm → Entries → Option Entries) :
    List String → TableForm → Entries → Option Entries
  | [], form, entries => change form entries
  | key :: path, _, entries =>
    match entries.lookup key with
    | none =>
      (Entries.alter made enters change path made []).map fun inner =>
        entries ++ [(key, table made inner)]
    | some (table form inner) =>
      if form ≠ .inline && enters form then
        (Entries.alter made enters change path form inner).map fun inner =>
          entries.replace key (table form inner)
      else none
    | some (tables elements) =>
      match elements.getLast? with
      | none => none
      | some last =>
        (Entries.alter made enters change path .header last).map fun last =>
          entries.replace key (tables (elements.dropLast ++ [last]))
    | some _ => none

/-- Opens a table by its header. -/
def Entries.openTable (root : Entries) (path : List String) (key : String) : Option Entries :=
  root.alter .implied (fun _ => true)
    (fun _ entries =>
      match entries.lookup key with
      | none => some (entries ++ [(key, table .header [])])
      | some (table .implied inner) => some (entries.replace key (table .header inner))
      | some _ => none)
    path .header

/-- Opens one more table of a row of tables by its header. -/
def Entries.openElement (root : Entries) (path : List String) (key : String) : Option Entries :=
  root.alter .implied (fun _ => true)
    (fun _ entries =>
      match entries.lookup key with
      | none => some (entries ++ [(key, tables [[]])])
      | some (tables elements) => some (entries.replace key (tables (elements ++ [[]])))
      | some _ => none)
    path .header

/-- Puts a value under a dotted key into a table of some form. `enters` tells which tables the key
    may extend. -/
def Entries.assign (enters : TableForm → Bool) (path : List String) (key : String) (value : Toml)
    (form : TableForm) (entries : Entries) : Option Entries :=
  entries.alter .dotted enters
    (fun form entries =>
      if decide (form = .dotted) == path.isEmpty then none
      else if (entries.lookup key).isSome then none
      else some (entries ++ [(key, value)]))
    path form

/-- Puts a value under a dotted key into the table that the last header opened. -/
def Entries.assignBelow (root : Entries) (header path : List String) (key : String)
    (value : Toml) : Option Entries :=
  root.alter .implied (fun _ => true)
    (Entries.assign (fun form => form = .implied || form = .dotted) path key value) header .header

/-- Puts a value under a dotted key into an inline table that is being read. -/
def Entries.assignInline (entries : Entries) (path : List String) (key : String) (value : Toml) :
    Option Entries :=
  Entries.assign (fun form => form = .dotted) path key value .inline entries

end Toml

end CodeAudit
