import CodeAudit.Result.Basic

/-!
# Stores

A store keeps what becomes of scans. It is told when a scan starts, of every issue, and when the
scan is completed or has failed, and it may refuse any of these calls.
-/

namespace CodeAudit

/-- What a store is told about a scan. -/
inductive StoreCall where
  | start (id : String)
  | record (id : String) (issue : Issue)
  | complete (id : String) (statistics : ScanStatistics)
  | fail (id : String) (message : String)

/-- The scan that a call is about. -/
def StoreCall.id : StoreCall → String
  | start id => id
  | record id _ => id
  | complete id _ => id
  | fail id _ => id

/-- A store with states of type `σ` (`ScanStore`). A refused call gives the reason; it may change
    the state. -/
structure Store (σ : Type) where
  answer : σ → StoreCall → Except String Unit × σ

end CodeAudit
