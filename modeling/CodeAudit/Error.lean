import CodeAudit.Text.Quoted

/-!
# Failures

Why a scan as a whole fails, and the text of it. Problems of single files never show up here; they
are reported as issues. A failure may be wrapped in notes about what was being done.
-/

namespace CodeAudit

open Text

/-- Why a scan fails. -/
inductive ScanError where
  | pathNotFound (path : String)
  | invalidTarget (path reason : String)
  | noValidCategories (requested : List String)
  | io (source path : String)
  | walk (message : String)
  | config (path message : String)
  | cancelled
  deriving DecidableEq, Repr

namespace ScanError

/-- The text of a failure. -/
def message : ScanError → String
  | pathNotFound path => "path not found: " ++ path
  | invalidTarget path reason => "invalid scan target " ++ path ++ ": " ++ reason
  | noValidCategories requested => "no valid categories in request " ++ quoteList requested
  | io source path => "I/O error: " ++ source ++ " (path: " ++ path ++ ")"
  | walk message => "walk error: " ++ message
  | config path message => "config error in " ++ path ++ ": " ++ message
  | cancelled => "scan cancelled"

/-- A failure of the system at an unknown path. -/
def ofSystem (source : String) : ScanError := io source "<unknown>"

/-- Did the scan fail before any file was touched (`is_setup_error`)? -/
def isSetup : ScanError → Bool
  | pathNotFound _ => true
  | invalidTarget _ _ => true
  | noValidCategories _ => true
  | _ => false

/-- The texts of a failure and of what caused it. -/
def chain (e : ScanError) : List String :=
  match e with
  | io source _ => [e.message, source]
  | _ => [e.message]

end ScanError

/-- What is at the bottom of a failure: a failed scan, or something that is known by its text
    only. -/
inductive Cause where
  | scan (error : ScanError)
  | other (message : String)
  deriving DecidableEq, Repr

/-- A failure with notes about what was being done, the outermost first. -/
structure Failure where
  notes : List String := []
  cause : Cause
  deriving DecidableEq, Repr

namespace Failure

/-- The failure of a scan. -/
def ofScan (error : ScanError) : Failure := { cause := .scan error }

/-- A failure that is known by its text only. -/
def ofText (message : String) : Failure := { cause := .other message }

/-- The failure with one more note around it. -/
def withNote (f : Failure) (note : String) : Failure :=
  { f with notes := note :: f.notes }

/-- The texts of a failure, the outermost first. -/
def chain (f : Failure) : List String :=
  f.notes ++
    match f.cause with
    | .scan error => error.chain
    | .other message => [message]

/-- The outermost text. -/
def message (f : Failure) : String := f.chain.head?.getD ""

/-- All texts, from the outermost to the cause. -/
def fullMessage (f : Failure) : String := String.intercalate ": " f.chain

/-- The failed scan at the bottom. -/
def scanError? (f : Failure) : Option ScanError :=
  match f.cause with
  | .scan error => some error
  | .other _ => none

end Failure

/-! ## Exit codes -/

/-- How a command ends (`LarascanExit`). -/
inductive Exit where
  | success
  /-- Something failed. -/
  | error
  /-- The target or the categories of the request are of no use. -/
  | invalidInput
  /-- An issue of the severity that makes a scan fail was found. -/
  | checkFailed
  deriving DecidableEq, Repr

namespace Exit

/-- The code that the process ends with (`LarascanExit::code`). -/
def code : Exit → Nat
  | success => 0
  | error => 1
  | invalidInput => 2
  | checkFailed => 6

/-- How a command with a failure ends (`LarascanExit::for_error`). -/
def ofFailure (f : Failure) : Exit :=
  match f.scanError? with
  | some e => if e.isSetup then invalidInput else error
  | none => error

/-- How a command ends. -/
def ofResult : Except Failure Unit → Exit
  | .ok () => success
  | .error f => ofFailure f

end Exit

end CodeAudit
