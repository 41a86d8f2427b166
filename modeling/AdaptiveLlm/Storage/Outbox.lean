import Mathlib.Data.List.Basic
import Mathlib.Data.List.Nodup

set_option autoImplicit false

/-! # The transactional outbox

`storage/outbox.py`: events are inserted in the transaction that causes them. `enqueue` skips an
event whose id is stored already, and at `pendingLimit` pending rows it drops the optional ones.

Events are numbered by their insertion, and the number of pending rows is counted in the same
transaction. Deletions announce themselves by events that are not optional, so a full table does not
keep anyone from deleting. The dispatcher's view of the table, with times and attempts, is in
`Events/Outbox.lean`. -/

namespace AdaptiveLlm

/-- `EventType`. -/
inductive EventType where
  | interactionStarted
  | retrievalCompleted
  | routeDecided
  | generationCompleted
  | generationFailed
  | interactionCompleted
  | feedbackRecorded
  | privacyDeletionRequested
  | datasetBuilt
  | trainingCompleted
  | evaluationCompleted
  | deploymentChanged
  deriving DecidableEq, Repr

/-- `OPTIONAL_EVENTS`. -/
def EventType.isOptional : EventType → Bool
  | .interactionStarted | .retrievalCompleted | .routeDecided => true
  | _ => false

/-- `Event`, with ids from `ι` and data from `δ`. -/
structure Event (ι δ : Type) where
  eventId : ι
  eventType : EventType
  tenantId : String
  traceId : ι
  data : δ
  deriving DecidableEq

/-- Where an event of the outbox stands. -/
inductive OutboxState where
  | pending
  | delivered
  | dead
  deriving DecidableEq, Repr

/-- A row of the outbox. -/
structure OutboxRow (ι δ : Type) where
  event : Event ι δ
  state : OutboxState := .pending
  attempts : ℕ := 0
  deriving DecidableEq

section Enqueue

variable {ι δ : Type} [DecidableEq ι]

/-- The loop of `enqueue`, with the number of pending rows; also counts the events it drops. -/
def enqueueFrom (pendingLimit : ℕ) : ℕ → ℕ → List (OutboxRow ι δ) → List (Event ι δ) →
    List (OutboxRow ι δ) × ℕ
  | _, dropped, rows, [] => (rows, dropped)
  | pending, dropped, rows, e :: es =>
    if e.eventId ∈ rows.map (·.event.eventId) then
      enqueueFrom pendingLimit pending dropped rows es
    else if pending ≥ pendingLimit && e.eventType.isOptional then
      enqueueFrom pendingLimit pending (dropped + 1) rows es
    else enqueueFrom pendingLimit (pending + 1) dropped (rows ++ [{ event := e }]) es

/-- `enqueue`. -/
def enqueue (pendingLimit : ℕ) (rows : List (OutboxRow ι δ)) (events : List (Event ι δ)) :
    List (OutboxRow ι δ) × ℕ :=
  enqueueFrom pendingLimit (rows.countP (·.state = .pending)) 0 rows events

theorem enqueueFrom_fresh (pendingLimit pending dropped : ℕ) (rows : List (OutboxRow ι δ))
    (events : List (Event ι δ)) (hkind : ∀ e ∈ events, e.eventType.isOptional = false)
    (hfresh : ∀ e ∈ events, e.eventId ∉ rows.map (·.event.eventId))
    (hnodup : (events.map (·.eventId)).Nodup) :
    enqueueFrom pendingLimit pending dropped rows events =
      (rows ++ events.map fun e => { event := e }, dropped) := by
  induction events generalizing pending rows with
  | nil => simp [enqueueFrom]
  | cons e es ih =>
    have he : e.eventId ∉ rows.map (·.event.eventId) := hfresh e List.mem_cons_self
    have hk : e.eventType.isOptional = false := hkind e List.mem_cons_self
    rw [List.map_cons, List.nodup_cons] at hnodup
    rw [enqueueFrom, if_neg he, if_neg (by simp [hk]), ih]
    · simp
    · exact fun e' he' => hkind e' (List.mem_cons_of_mem _ he')
    · intro e' he'
      have hne : e'.eventId ≠ e.eventId := fun heq =>
        hnodup.1 (heq ▸ List.mem_map_of_mem he')
      simpa [hne] using hfresh e' (List.mem_cons_of_mem _ he')
    · exact hnodup.2

/-- Events that are not optional and carry new ids are all stored, in order. -/
theorem enqueue_fresh (pendingLimit : ℕ) (rows : List (OutboxRow ι δ)) (events : List (Event ι δ))
    (hkind : ∀ e ∈ events, e.eventType.isOptional = false)
    (hfresh : ∀ e ∈ events, e.eventId ∉ rows.map (·.event.eventId))
    (hnodup : (events.map (·.eventId)).Nodup) :
    (enqueue pendingLimit rows events).1 = rows ++ events.map fun e => { event := e } := by
  rw [enqueue, enqueueFrom_fresh _ _ _ _ _ hkind hfresh hnodup]

theorem enqueueFrom_append (pendingLimit pending dropped : ℕ) (rows : List (OutboxRow ι δ))
    (events : List (Event ι δ)) :
    ∃ kept, kept ⊆ events ∧ (enqueueFrom pendingLimit pending dropped rows events).1 =
      rows ++ kept.map fun e => { event := e } := by
  induction events generalizing pending dropped rows with
  | nil => exact ⟨[], by simp, by simp [enqueueFrom]⟩
  | cons e es ih =>
    rw [enqueueFrom]
    split
    · obtain ⟨kept, hkept, h⟩ := ih pending dropped rows
      exact ⟨kept, List.subset_cons_of_subset e hkept, h⟩
    split
    · obtain ⟨kept, hkept, h⟩ := ih pending (dropped + 1) rows
      exact ⟨kept, List.subset_cons_of_subset e hkept, h⟩
    · obtain ⟨kept, hkept, h⟩ := ih (pending + 1) dropped (rows ++ [{ event := e }])
      exact ⟨e :: kept, List.cons_subset_cons e hkept, by simpa using h⟩

/-- The outbox only grows, by some of the events. -/
theorem enqueue_append (pendingLimit : ℕ) (rows : List (OutboxRow ι δ))
    (events : List (Event ι δ)) :
    ∃ kept, kept ⊆ events ∧ (enqueue pendingLimit rows events).1 =
      rows ++ kept.map fun e => { event := e } :=
  enqueueFrom_append pendingLimit _ 0 rows events

theorem enqueueFrom_stored (pendingLimit pending dropped : ℕ) (rows : List (OutboxRow ι δ))
    (events : List (Event ι δ)) :
    (∀ e ∈ events, e.eventType.isOptional = false →
      e.eventId ∈ (enqueueFrom pendingLimit pending dropped rows events).1.map (·.event.eventId)) ∧
    ((∀ e ∈ events, e.eventId ∈ rows.map (·.event.eventId)) →
      (enqueueFrom pendingLimit pending dropped rows events).1 = rows) := by
  induction events generalizing pending dropped rows with
  | nil => exact ⟨by simp, fun _ => rfl⟩
  | cons e es ih =>
    -- what is stored stays stored
    have hstays : ∀ (pending dropped : ℕ) (rows : List (OutboxRow ι δ)),
        e.eventId ∈ rows.map (·.event.eventId) →
        e.eventId ∈ (enqueueFrom pendingLimit pending dropped rows es).1.map (·.event.eventId) := by
      intro pending dropped rows hmem
      obtain ⟨kept, -, happend⟩ := enqueueFrom_append pendingLimit pending dropped rows es
      rw [happend, List.map_append]
      exact List.mem_append_left _ hmem
    rw [enqueueFrom]
    constructor
    · intro e' he' hkind
      split
      · rename_i hfound
        rcases List.mem_cons.1 he' with rfl | he'
        · exact hstays _ _ _ hfound
        · exact (ih _ _ _).1 e' he' hkind
      split
      · rename_i hdrop
        rcases List.mem_cons.1 he' with rfl | he'
        · simp [hkind] at hdrop
        · exact (ih _ _ _).1 e' he' hkind
      · rcases List.mem_cons.1 he' with rfl | he'
        · exact hstays _ _ _ (by simp)
        · exact (ih _ _ _).1 e' he' hkind
    · intro hall
      obtain ⟨hfound, hrest⟩ := List.forall_mem_cons.1 hall
      rw [if_pos hfound]
      exact (ih _ _ _).2 hrest

/-- An event that is not optional is stored afterwards. -/
theorem enqueue_kept (pendingLimit : ℕ) (rows : List (OutboxRow ι δ)) {events : List (Event ι δ)}
    {e : Event ι δ} (he : e ∈ events) (hkind : e.eventType.isOptional = false) :
    e.eventId ∈ (enqueue pendingLimit rows events).1.map (·.event.eventId) :=
  (enqueueFrom_stored pendingLimit _ 0 rows events).1 e he hkind

/-- Events that are stored already change nothing. -/
theorem enqueue_of_stored (pendingLimit : ℕ) {rows : List (OutboxRow ι δ)} {events : List (Event ι δ)}
    (h : ∀ e ∈ events, e.eventId ∈ rows.map (·.event.eventId)) :
    (enqueue pendingLimit rows events).1 = rows :=
  (enqueueFrom_stored pendingLimit _ 0 rows events).2 h

end Enqueue

end AdaptiveLlm
