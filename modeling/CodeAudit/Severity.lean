import CodeAudit.Text.Find

/-!
# Severities

Five levels, from a remark to a defect that can be exploited, with a weight each.
-/

namespace CodeAudit

open Text

/-- How bad a finding is. -/
inductive Severity where
  | info
  | low
  | medium
  | high
  | critical
  deriving DecidableEq, Repr

namespace Severity

/-- All severities, worst first (`Severity::RANKED`). -/
def ranked : List Severity := [critical, high, medium, low, info]

/-- Weight in scores, five for the worst (`Severity::weight`). -/
def weight : Severity → Nat
  | critical => 5
  | high => 4
  | medium => 3
  | low => 2
  | info => 1

/-- Is the severity at least as bad as the other? -/
def atLeast (s t : Severity) : Bool := t.weight ≤ s.weight

/-- The worse of two severities. -/
def worse (s t : Severity) : Severity := if s.atLeast t then s else t

/-- The written name. -/
def name : Severity → String
  | critical => "critical"
  | high => "high"
  | medium => "medium"
  | low => "low"
  | info => "info"

/-- The severity that a request names. White space around it and ASCII case do not count. -/
def parse? (request : String) : Option Severity :=
  match String.ofList (lowerAscii (trim request.toList)) with
  | "critical" => some critical
  | "high" => some high
  | "error" => some high
  | "medium" => some medium
  | "warning" => some medium
  | "low" => some low
  | "info" => some info
  | _ => none

/-- What is said about a name that no severity has. -/
def unknownText (request : String) : String :=
  "unknown severity '" ++ String.ofList (lowerAscii (trim request.toList)) ++ "'"

/-- The severity that stored data names, to the letter. -/
def ofName? : String → Option Severity
  | "critical" => some critical
  | "high" => some high
  | "medium" => some medium
  | "warning" => some medium
  | "low" => some low
  | "info" => some info
  | _ => none

end Severity

end CodeAudit
