import CodeAudit.Store.Memory
import Mathlib.Tactic.SplitIfs

/-!
# What a store in memory keeps

A store in memory keeps its scans apart: a call is about the scan that it names, and what is kept of
a scan can be read off the calls about it since it was last started, whatever calls about other
scans stand between them. A scan may be started again, issues may come after a mark, and marks may
be repeated; the status is that of the last mark, while the statistics and the message of an earlier
mark of the other sort stay.

Results:
* `get?_perform_self`, `get?_perform_of_ne`: what one call does to each scan.
* `get?_performAll`: what a sequence of calls does to a scan.
* `foldl_apply_ofCalls`: what the calls about a started scan add up to.
* `performAll_keeps_calls`: what is kept after any sequence of calls.
-/

namespace CodeAudit

/-! ## Ordered lists of pairs -/

theorem lookup_insertSorted_self {α β : Type} [DecidableEq α] (before : α → α → Bool) (key : α)
    (value : β) (entries : List (α × β)) :
    (insertSorted before key value entries).lookup key = some value := by
  induction entries with
  | nil => exact List.lookup_cons_self
  | cons entry rest ih =>
    obtain ⟨k, v⟩ := entry
    rw [insertSorted]
    split_ifs with hkey hbefore
    · exact List.lookup_cons_self
    · exact List.lookup_cons_self
    · have hne : (key == k) = false := by simpa using hkey
      rw [List.lookup_cons, hne]
      exact ih

/-- The order of the list does not matter for what is kept under other keys. -/
theorem lookup_insertSorted_of_ne {α β : Type} [DecidableEq α] (before : α → α → Bool)
    {key other : α} (h : other ≠ key) (value : β) (entries : List (α × β)) :
    (insertSorted before key value entries).lookup other = entries.lookup other := by
  have hne : (other == key) = false := by simpa using h
  induction entries with
  | nil => rw [insertSorted, List.lookup_cons, hne]
  | cons entry rest ih =>
    obtain ⟨k, v⟩ := entry
    rw [insertSorted]
    split_ifs with hkey hbefore
    · subst hkey
      rw [List.lookup_cons, List.lookup_cons, hne]
    · rw [List.lookup_cons, hne]
    · rw [List.lookup_cons, List.lookup_cons, ih]

/-! ## What calls tell -/

namespace StoreCall

/-- Does the call start a scan? -/
def isStart : StoreCall → Bool
  | start _ => true
  | _ => false

/-- The status that the call marks its scan with. -/
def mark? : StoreCall → Option ScanStatus
  | complete _ _ => some .completed
  | fail _ _ => some .failed
  | _ => none

/-- The issue that the call records. -/
def issue? : StoreCall → Option Issue
  | record _ issue => some issue
  | _ => none

/-- The statistics of a completed scan. -/
def statistics? : StoreCall → Option ScanStatistics
  | complete _ statistics => some statistics
  | _ => none

/-- The message of a failed scan. -/
def message? : StoreCall → Option String
  | fail _ message => some message
  | _ => none

/-- What the call makes of what is kept of its scan, if it is not refused. -/
def effect (call : StoreCall) (kept : Option StoredScan) : Option StoredScan :=
  if call.isStart then some {} else kept.map (StoredScan.apply · call)

theorem eq_start_of_isStart {call : StoreCall} (h : call.isStart = true) :
    call = start call.id := by
  cases call with
  | start id => rfl
  | record | complete | fail => cases h

theorem effect_start (id : String) (kept : Option StoredScan) : (start id).effect kept = some {} :=
  rfl

theorem effect_of_not_isStart {call : StoreCall} (h : call.isStart = false)
    (kept : Option StoredScan) : call.effect kept = kept.map (StoredScan.apply · call) := by
  simp [effect, h]

theorem effect_eq_none_iff (call : StoreCall) (kept : Option StoredScan) :
    call.effect kept = none ↔ call.isStart = false ∧ kept = none := by
  cases h : call.isStart <;> simp [effect, h]

/-- Calls other than starts change a scan that is kept, and keep it. -/
theorem foldl_effect_some {calls : List StoreCall} (h : ∀ call ∈ calls, call.isStart = false)
    (scan : StoredScan) :
    calls.foldl (fun kept call => call.effect kept) (some scan) =
      some (calls.foldl StoredScan.apply scan) := by
  induction calls generalizing scan with
  | nil => rfl
  | cons call rest ih =>
    rw [List.forall_mem_cons] at h
    rw [List.foldl_cons, effect_of_not_isStart h.1, Option.map_some, ih h.2, List.foldl_cons]

/-- Calls other than starts do not make a scan. -/
theorem foldl_effect_none {calls : List StoreCall} (h : ∀ call ∈ calls, call.isStart = false) :
    calls.foldl (fun kept call => call.effect kept) none = none := by
  induction calls with
  | nil => rfl
  | cons call rest ih =>
    rw [List.forall_mem_cons] at h
    rw [List.foldl_cons, effect_of_not_isStart h.1, Option.map_none, ih h.2]

end StoreCall

/-- The scan that calls about it add up to: all recorded issues in order, the status of the last
    mark, the statistics of the last completion and the message of the last failure. -/
def StoredScan.ofCalls (calls : List StoreCall) : StoredScan where
  status := (calls.filterMap StoreCall.mark?).getLast?.getD .running
  issues := calls.filterMap StoreCall.issue?
  statistics := (calls.filterMap StoreCall.statistics?).getLast?
  error := (calls.filterMap StoreCall.message?).getLast?

namespace StoredScan

theorem ofCalls_concat (calls : List StoreCall) {call : StoreCall} (h : call.isStart = false) :
    ofCalls (calls ++ [call]) = (ofCalls calls).apply call := by
  cases call with
  | start id => cases h
  | record | complete | fail =>
    simp [ofCalls, apply, StoreCall.mark?, StoreCall.issue?, StoreCall.statistics?,
      StoreCall.message?]

/-- Calls about a started scan, taken one after the other, add up. -/
theorem foldl_apply_ofCalls {later : List StoreCall} (h : ∀ call ∈ later, call.isStart = false)
    (earlier : List StoreCall) :
    later.foldl apply (ofCalls earlier) = ofCalls (earlier ++ later) := by
  induction later generalizing earlier with
  | nil => rw [List.append_nil, List.foldl_nil]
  | cons call rest ih =>
    rw [List.forall_mem_cons] at h
    rw [List.foldl_cons, ← ofCalls_concat earlier h.1, ih h.2, List.append_assoc,
      List.singleton_append]

end StoredScan

/-! ## Single calls -/

namespace MemoryStore

theorem get?_put_self (m : MemoryStore) (id : String) (scan : StoredScan) :
    (m.put id scan).get? id = some scan :=
  lookup_insertSorted_self _ id scan m.scans

theorem get?_put_of_ne (m : MemoryStore) {id other : String} (h : other ≠ id)
    (scan : StoredScan) : (m.put id scan).get? other = m.get? other :=
  lookup_insertSorted_of_ne _ h scan m.scans

/-- A call changes the scan that it is about and no other; or else it is refused, and then nothing
    changes. -/
theorem perform_eq (m : MemoryStore) (call : StoreCall) :
    m.perform call =
      match call.effect (m.get? call.id) with
      | none => (.error ("Unknown scan " ++ call.id), m)
      | some scan => (.ok (), m.put call.id scan) := by
  cases call with
  | start id => rfl
  | record id _ | complete id _ | fail id _ =>
    show (match m.get? id with | none => _ | some scan => _) = _
    simp only [StoreCall.id]
    cases m.get? id <;> rfl

theorem get?_perform_self (m : MemoryStore) (call : StoreCall) :
    (m.perform call).2.get? call.id = call.effect (m.get? call.id) := by
  rw [perform_eq]
  cases heffect : call.effect (m.get? call.id) with
  | none => exact ((StoreCall.effect_eq_none_iff _ _).mp heffect).2
  | some scan => exact get?_put_self m call.id scan

theorem get?_perform_of_ne (m : MemoryStore) {call : StoreCall} {id : String}
    (h : id ≠ call.id) : (m.perform call).2.get? id = m.get? id := by
  rw [perform_eq]
  cases call.effect (m.get? call.id) with
  | none => rfl
  | some scan => exact get?_put_of_ne m h scan

theorem perform_of_get?_eq_none {m : MemoryStore} {call : StoreCall}
    (hstart : call.isStart = false) (h : m.get? call.id = none) :
    m.perform call = (.error ("Unknown scan " ++ call.id), m) := by
  rw [perform_eq, (StoreCall.effect_eq_none_iff _ _).mpr ⟨hstart, h⟩]

/-! ## Sequences of calls -/

/-- The store after calls. -/
def performAll (m : MemoryStore) (calls : List StoreCall) : MemoryStore :=
  calls.foldl (fun m call => (m.perform call).2) m

/-- The calls about a scan. -/
def about (id : String) (calls : List StoreCall) : List StoreCall :=
  calls.filter fun call => call.id == id

/-- What is kept of a scan depends on the calls about it only. -/
theorem get?_performAll (m : MemoryStore) (calls : List StoreCall) (id : String) :
    (m.performAll calls).get? id =
      (about id calls).foldl (fun kept call => call.effect kept) (m.get? id) := by
  induction calls generalizing m with
  | nil => rfl
  | cons call rest ih =>
    rw [performAll, List.foldl_cons]
    have hrest := ih (m.perform call).2
    rw [performAll] at hrest
    rw [hrest, about, about, List.filter_cons]
    by_cases h : call.id = id
    · subst h
      rw [if_pos (beq_self_eq_true _), List.foldl_cons, get?_perform_self]
    · rw [if_neg (by simpa using h), get?_perform_of_ne m (Ne.symm h)]

theorem not_isStart_of_mem_about {id : String} {calls : List StoreCall} (h : .start id ∉ calls) :
    ∀ call ∈ about id calls, call.isStart = false := by
  intro call hcall
  obtain ⟨hmem, hid⟩ := List.mem_filter.mp hcall
  have hid : call.id = id := by simpa using hid
  cases hstart : call.isStart with
  | false => rfl
  | true =>
    rw [StoreCall.eq_start_of_isStart hstart, hid] at hmem
    exact absurd hmem h

/-- Nothing is kept of a scan that was not kept before and is not started. -/
theorem get?_performAll_of_notMem {m : MemoryStore} {calls : List StoreCall} {id : String}
    (hnone : m.get? id = none) (h : .start id ∉ calls) : (m.performAll calls).get? id = none := by
  rw [get?_performAll, hnone]
  exact StoreCall.foldl_effect_none (not_isStart_of_mem_about h)

/-- What is kept of a scan since it was last started. -/
theorem get?_performAll_of_start (m : MemoryStore) (before : List StoreCall) {id : String}
    {after : List StoreCall} (h : .start id ∉ after) :
    (m.performAll (before ++ .start id :: after)).get? id =
      some (.ofCalls (about id after)) := by
  have hcalls := not_isStart_of_mem_about h
  have habout : about id (before ++ .start id :: after) =
      about id before ++ .start id :: about id after := by
    simp [about, StoreCall.id]
  rw [get?_performAll, habout, List.foldl_append, List.foldl_cons, StoreCall.effect_start,
    StoreCall.foldl_effect_some hcalls]
  exact congrArg some (StoredScan.foldl_apply_ofCalls hcalls [])

/-- After any sequence of calls on an empty store: one more call changes nothing about other scans;
    a call about a scan that was never started, unless it starts it, is refused and changes nothing
    at all; and what is kept of a started scan is what the calls about it since its last start add
    up to. -/
theorem performAll_keeps_calls (calls : List StoreCall) :
    (∀ call id, id ≠ call.id →
      ((performAll {} calls).perform call).2.get? id = (performAll {} calls).get? id) ∧
    (∀ call, call.isStart = false → .start call.id ∉ calls →
      (performAll {} calls).perform call =
        (.error ("Unknown scan " ++ call.id), performAll {} calls)) ∧
    ∀ before id after, calls = before ++ .start id :: after → .start id ∉ after →
      (performAll {} calls).get? id = some (.ofCalls (about id after)) := by
  refine ⟨fun call id h => get?_perform_of_ne _ h, fun call hstart hnever => ?_, ?_⟩
  · exact perform_of_get?_eq_none hstart (get?_performAll_of_notMem rfl hnever)
  · rintro before id after rfl hlast
    exact get?_performAll_of_start {} before hlast

/-- An issue of a program text. -/
def longLine : Issue := .make .quality "long_line" .info "a.php" 1

/-- An issue of a template. -/
def rawPhp : Issue := .make .template "raw_php" .low "a.blade.php" 2

/-- The statistics of a scan of one file. -/
def oneFile : ScanStatistics := (ScanResult.ofIssues [longLine] 1 {}).statistics

/-- Calls about two scans. One of them is started twice, gets an issue after its completion, and is
    marked as failed in the end. -/
def crossedCalls : List StoreCall :=
  [.start "a", .record "a" longLine, .start "b", .fail "a" "early", .start "a",
    .record "b" longLine, .complete "a" oneFile, .record "a" rawPhp, .fail "b" "other",
    .fail "a" "late", .record "a" longLine]

/-- A completed scan keeps its statistics when it is marked as failed. -/
theorem performAll_keeps_crossedCalls :
    (performAll {} crossedCalls).get? "a" =
      some { status := .failed
             issues := [rawPhp, longLine]
             statistics := some oneFile
             error := some "late" } ∧
    ((performAll {} crossedCalls).perform (.start "b")).2.get? "a" =
      (performAll {} crossedCalls).get? "a" ∧
    (performAll {} crossedCalls).perform (.fail "c" "lost") =
      (.error "Unknown scan c", performAll {} crossedCalls) := by
  have hlast : StoreCall.start "a" ∉ crossedCalls.drop 5 := by simp [crossedCalls]
  have hnever : StoreCall.start "c" ∉ crossedCalls := by simp [crossedCalls]
  obtain ⟨hothers, hunknown, hkept⟩ := performAll_keeps_calls crossedCalls
  refine ⟨?_, hothers (.start "b") "a" (by decide), hunknown (.fail "c" "lost") rfl hnever⟩
  rw [hkept (crossedCalls.take 4) "a" (crossedCalls.drop 5) rfl hlast]
  rfl

end MemoryStore

end CodeAudit
