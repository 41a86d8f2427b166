import AdaptiveLlm.Gateway.ReplayFidelity
import AdaptiveLlm.Storage.Timestamps

set_option autoImplicit false

/-! # The queries on stored times

The rows of `replay_entries` and `outbox` with their times as the tables hold them, as text.
`get_replay`, the order in which `put_replay` evicts and `next_due` compare these texts; each gives
what the query on instants gives, which the other modules reason about.

The texts have a fixed width down to the second and an optional fraction behind it, so comparing
them is not obviously comparing times. `Storage/Timestamps.lean` proves that it is; here this is
carried over to the queries that compare. -/

namespace AdaptiveLlm

open Stored (ReplayRecord Store)

/-! ## `replay_entries` -/

/-- A replay entry with the texts of its times. -/
structure ReplayColumns where
  record : ReplayRecord
  reservedAt : String
  expiresAt : String
  reserved : Stamps reservedAt record.reservedAt
  expires : Stamps expiresAt record.expiresAt

namespace ReplayColumns

/-- `SELECT * FROM replay_entries WHERE … AND expires_at > ?`. -/
def getReplay (entries : List ReplayColumns) (tenant applicationId requestId now : String) :
    Option ReplayColumns :=
  entries.find? fun e => e.record.tenantId = tenant && e.record.applicationId = applicationId &&
    e.record.requestId = requestId && binary e.expiresAt now = .gt

/-- `ORDER BY reserved_at DESC, application_id DESC, request_id DESC`. -/
def later (a b : ReplayColumns) : Prop :=
  binary b.reservedAt a.reservedAt = .lt ∨ binary b.reservedAt a.reservedAt = .eq ∧
    (b.record.applicationId < a.record.applicationId ∨ b.record.applicationId = a.record.applicationId ∧
      b.record.requestId ≤ a.record.requestId)

instance (a b : ReplayColumns) : Decidable (later a b) := inferInstanceAs (Decidable (_ ∨ _))

/-- `LIMIT … OFFSET ?` of that order. -/
def evictable (entries : List ReplayColumns) (tenant : String) (capacity : ℕ) : List ReplayColumns :=
  ((entries.filter (·.record.tenantId = tenant)).insertionSort later).drop capacity

/-- **Expiry.** -/
theorem getReplay_eq {s : Store} {entries : List ReplayColumns}
    (hs : s.replayEntries = entries.map (·.record))
    (tenant applicationId requestId : String) {text : String} {now : ℤ} (hnow : Stamps text now) :
    (getReplay entries tenant applicationId requestId text).map (·.record) =
      s.getReplay tenant applicationId requestId now := by
  rw [getReplay, Store.getReplay, hs, List.find?_map]
  congr 2
  funext e
  simp only [Function.comp, e.expires.binary_eq hnow, Int.compare_eq_gt, gt_iff_lt]

theorem later_iff (a b : ReplayColumns) : later a b ↔ Store.later a.record b.record := by
  rw [later, Store.later, b.reserved.binary_eq a.reserved, Int.compare_eq_lt, Int.compare_eq_eq]

/-- **Eviction.** -/
theorem evictable_eq {s : Store} {entries : List ReplayColumns}
    (hs : s.replayEntries = entries.map (·.record))
    (tenant : String) (capacity : ℕ) :
    (evictable entries tenant capacity).map (·.record) = s.evictable tenant capacity := by
  rw [evictable, Store.evictable, hs, List.filter_map, List.map_drop,
    List.map_insertionSort _ _ _ _ fun a _ b _ => later_iff a b]
  rfl

end ReplayColumns

/-! ## `outbox` -/

namespace Dispatch

/-- A row of the outbox with the text of its time. -/
structure RowColumns where
  row : Row
  nextAttemptAt : String
  stamps : Stamps nextAttemptAt row.nextAttemptAt

namespace RowColumns

/-- The WHERE clause of `next_due`. -/
def eligible (rows : List RowColumns) (now : String) (o : RowColumns) : Bool :=
  o.row.state = .pending && binary o.nextAttemptAt now ≠ .gt && !rows.any (·.row.blocks o.row)

/-- `ORDER BY next_attempt_at, sequence`. -/
def before (a b : RowColumns) : Bool :=
  binary a.nextAttemptAt b.nextAttemptAt = .lt ||
    binary a.nextAttemptAt b.nextAttemptAt = .eq && a.row.sequence ≤ b.row.sequence

/-- The row that sorts first. -/
def firstRow : List RowColumns → Option RowColumns
  | [] => none
  | a :: rows =>
    match firstRow rows with
    | none => some a
    | some b => some (if a.before b then a else b)

/-- `next_due`. -/
def nextDue (rows : List RowColumns) (now : String) : Option RowColumns :=
  firstRow (rows.filter (eligible rows now))

theorem before_eq (a b : RowColumns) : a.before b = a.row.before b.row := by
  rw [before, Row.before, a.stamps.binary_eq b.stamps]
  simp only [Int.compare_eq_lt, Int.compare_eq_eq]

theorem eligible_eq (rows : List RowColumns) {text : String} {now : ℤ} (hnow : Stamps text now)
    (o : RowColumns) : eligible rows text o = Dispatch.eligible (rows.map (·.row)) now o.row := by
  rw [eligible, Dispatch.eligible, Row.due, List.any_map, o.stamps.binary_eq hnow]
  simp only [ne_eq, Int.compare_eq_gt, Int.not_lt]
  rfl

theorem firstRow_map (rows : List RowColumns) :
    (firstRow rows).map (·.row) = Dispatch.firstRow (rows.map (·.row)) := by
  induction rows with
  | nil => rfl
  | cons a rows ih =>
    rw [List.map_cons, firstRow, Dispatch.firstRow, ← ih]
    cases firstRow rows with
    | none => rfl
    | some b =>
      simp only [Option.map_some, before_eq]
      split <;> rfl

/-- **Due times.** -/
theorem nextDue_eq (rows : List RowColumns) {text : String} {now : ℤ} (hnow : Stamps text now) :
    (nextDue rows text).map (·.row) = Dispatch.nextDue (rows.map (·.row)) now := by
  rw [nextDue, Dispatch.nextDue, firstRow_map, List.filter_map]
  congr 2
  exact List.filter_congr fun o _ => eligible_eq rows hnow o

end RowColumns

end Dispatch

end AdaptiveLlm
