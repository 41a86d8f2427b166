import AdaptiveLlm.Contracts.Interactions
import Mathlib.Data.List.Induction

set_option autoImplicit false

/-! # The table of the outbox

`storage/outbox.py` and the columns of `migrations/0003_outbox.sql`. `Storage/Outbox.lean` has the
events a transaction inserts; here is what the dispatcher needs besides: the order of insertion, the
envelope, the interaction and the time of the next attempt. Instants are microseconds.

`Envelopes` is what pydantic does to an event.

The selection of the next row is the query of the source: due, pending, and with no earlier row of
its interaction that is pending or dead, by the order of time and insertion. What becomes of the row
is written by one of three updates (delivered, to be tried again, dead). Each of them changes one
row, which is what the invariants of the dispatcher need to know. -/

namespace AdaptiveLlm

namespace Dispatch

/-- `last_error_code`. -/
inductive DispatchError where
  | sinkUnavailable
  | invalidEvent
  deriving DecidableEq, Repr

/-- A row of the table. -/
structure Row where
  sequence : ℕ
  eventId : String
  tenantId : String
  traceId : String
  interactionId : Option String
  eventType : EventType
  envelope : String
  attempts : ℕ := 0
  nextAttemptAt : ℤ
  state : OutboxState := .pending
  lastErrorCode : Option DispatchError := none
  deriving DecidableEq

/-- An event's JSON, and what of its data is read. -/
structure Envelopes (δ : Type) where
  /-- `model_dump_json` -/
  dump : Event String δ → String
  /-- `Event.model_validate_json`; `none` is an exception -/
  parse : String → Option (Event String δ)
  occurredAt : Event String δ → ℤ
  /-- the data, if it is a `DeletionRequest` -/
  deletion : δ → Option Stored.DeletionRequest
  /-- `getattr(data, "interaction_id", None)` -/
  interactionId : δ → Option String

variable {δ : Type} (env : Envelopes δ)

/-- `interaction_key`. -/
def Envelopes.interactionKey (e : Event String δ) : Option String :=
  match env.deletion e.data with
  | some d => if d.scope = .interaction then some d.targetId else none
  | none => env.interactionId e.data

/-- The event of a row, if its envelope is one that the columns agree with. -/
def Envelopes.decode (row : Row) : Option (Event String δ) :=
  (env.parse row.envelope).filter fun e =>
    e.eventId = row.eventId && e.tenantId = row.tenantId && e.traceId = row.traceId &&
      e.eventType = row.eventType && env.interactionKey e = row.interactionId

/-! ## Inserting -/

/-- The row of a new event. -/
def Envelopes.rowOf (sequence : ℕ) (e : Event String δ) : Row where
  sequence
  eventId := e.eventId
  tenantId := e.tenantId
  traceId := e.traceId
  interactionId := env.interactionKey e
  eventType := e.eventType
  envelope := env.dump e
  nextAttemptAt := env.occurredAt e

/-- The largest sequence number. -/
def lastSequence (rows : List Row) : ℕ := (rows.map (·.sequence)).foldr max 0

/-- A batch on its way: `last` is the number the latest row got. -/
structure Batch where
  last : ℕ
  pending : ℕ
  dropped : ℕ := 0
  rows : List Row

/-- One turn of the loop of `enqueue`. -/
def Batch.add (pendingLimit : ℕ) (b : Batch) (e : Event String δ) : Batch :=
  if b.rows.any (·.eventId = e.eventId) then b
  else if b.pending ≥ pendingLimit && e.eventType.isOptional then { b with dropped := b.dropped + 1 }
  else
    { b with
      last := b.last + 1
      pending := b.pending + 1
      rows := b.rows ++ [env.rowOf (b.last + 1) e] }

/-- `enqueue`, where `last` is the latest number of the table's sequence. -/
def enqueueAfter (last pendingLimit : ℕ) (rows : List Row) (events : List (Event String δ)) : Batch :=
  events.foldl (Batch.add env pendingLimit)
    { last, pending := rows.countP (·.state = .pending), rows }

/-- `enqueue` over SQLite, which numbers rows from the largest number on. -/
def enqueue (pendingLimit : ℕ) (rows : List Row) (events : List (Event String δ)) : List Row × ℕ :=
  let b := enqueueAfter env (lastSequence rows) pendingLimit rows events
  (b.rows, b.dropped)

/-! ### What a batch leaves

`enqueue` works through a batch event by event. The pending rows are counted once, before it begins,
and each row that is added is one more. What it leaves can be read off the rows: which were added,
in which order, and which events were left out. -/

section Batch

variable {env} {last pendingLimit : ℕ} {rows : List Row} {b : Batch} {e : Event String δ}
  {events : List (Event String δ)}

/-- Every turn finds the row, drops the event or inserts it. -/
theorem Batch.add_cases (env : Envelopes δ) (pendingLimit : ℕ) (b : Batch) (e : Event String δ) :
    (∃ r ∈ b.rows, r.eventId = e.eventId) ∧ b.add env pendingLimit e = b ∨
      (∀ r ∈ b.rows, r.eventId ≠ e.eventId) ∧
        ((e.eventType.isOptional = true ∧ pendingLimit ≤ b.pending ∧
            b.add env pendingLimit e = { b with dropped := b.dropped + 1 }) ∨
          ¬(e.eventType.isOptional = true ∧ pendingLimit ≤ b.pending) ∧
            b.add env pendingLimit e =
              { b with
                last := b.last + 1
                pending := b.pending + 1
                rows := b.rows ++ [env.rowOf (b.last + 1) e] }) := by
  unfold Batch.add
  by_cases hfound : b.rows.any (·.eventId = e.eventId)
  · rw [if_pos hfound]
    exact .inl ⟨by simpa using hfound, rfl⟩
  · rw [if_neg hfound]
    refine .inr ⟨by simpa using hfound, ?_⟩
    by_cases hdrop : b.pending ≥ pendingLimit && e.eventType.isOptional
    · rw [if_pos hdrop]
      simp only [Bool.and_eq_true, decide_eq_true_eq] at hdrop
      exact .inl ⟨hdrop.2, hdrop.1, rfl⟩
    · rw [if_neg hdrop]
      refine .inr ⟨?_, rfl⟩
      rintro ⟨hoptional, hfull⟩
      exact hdrop (by simp [hoptional, hfull])

theorem enqueueAfter_append (events : List (Event String δ)) (e : Event String δ) :
    enqueueAfter env last pendingLimit rows (events ++ [e]) =
      (enqueueAfter env last pendingLimit rows events).add env pendingLimit e := by
  simp [enqueueAfter]

/-- What a batch has added to the rows: each row is new, in order, and of one of the events. -/
structure Batch.Added (env : Envelopes δ) (last : ℕ) (rows : List Row)
    (events : List (Event String δ)) (b : Batch) : Prop where
  pending : b.pending = b.rows.countP (·.state = .pending)
  last_le : last ≤ b.last
  inserted : ∃ new, b.rows = rows ++ new ∧ new.Pairwise (·.sequence < ·.sequence) ∧
    ∀ r ∈ new, (∃ e ∈ events, ∃ n, r = env.rowOf n e) ∧ last < r.sequence ∧ r.sequence ≤ b.last
  ids : (rows.map (·.eventId)).Nodup → (b.rows.map (·.eventId)).Nodup
  kept : ∀ e ∈ events, e.eventType.isOptional = false → ∃ r ∈ b.rows, r.eventId = e.eventId

theorem enqueueAfter_added (env : Envelopes δ) (last pendingLimit : ℕ) (rows : List Row)
    (events : List (Event String δ)) :
    (enqueueAfter env last pendingLimit rows events).Added env last rows events := by
  induction events using List.reverseRecOn with
  | nil => exact ⟨rfl, Nat.le_refl _, ⟨[], by simp [enqueueAfter]⟩, fun h => h, by simp⟩
  | append_singleton events e ih =>
    obtain ⟨new, hrows, hsorted, hnew⟩ := ih.inserted
    have hkept : ∀ e ∈ events, e.eventType.isOptional = false →
        ∃ r ∈ (enqueueAfter env last pendingLimit rows events).rows, r.eventId = e.eventId := ih.kept
    rw [enqueueAfter_append]
    generalize enqueueAfter env last pendingLimit rows events = b at ih hrows hnew hkept
    have hwiden : ∀ r ∈ new, (∃ e' ∈ events ++ [e], ∃ n, r = env.rowOf n e') ∧ last < r.sequence ∧
        r.sequence ≤ b.last := by
      intro r hr
      obtain ⟨⟨e', he', hrow⟩, hbounds⟩ := hnew r hr
      exact ⟨⟨e', List.mem_append_left _ he', hrow⟩, hbounds⟩
    obtain ⟨hfound, hadd⟩ | ⟨hfresh, ⟨hoptional, -, hadd⟩ | ⟨-, hadd⟩⟩ :=
      Batch.add_cases env pendingLimit b e
    · rw [hadd]
      refine ⟨ih.pending, ih.last_le, ⟨new, hrows, hsorted, hwiden⟩, ih.ids, ?_⟩
      intro e' he' hkind
      rcases List.mem_append.1 he' with he' | he'
      · exact hkept e' he' hkind
      · rw [List.mem_singleton.1 he']
        exact hfound
    · rw [hadd]
      refine ⟨ih.pending, ih.last_le, ⟨new, hrows, hsorted, hwiden⟩, ih.ids, ?_⟩
      intro e' he' hkind
      rcases List.mem_append.1 he' with he' | he'
      · exact hkept e' he' hkind
      · rw [List.mem_singleton.1 he', hoptional] at hkind
        cases hkind
    · rw [hadd]
      constructor
      case pending =>
        simp [ih.pending, Envelopes.rowOf]
      case last_le => exact Nat.le_succ_of_le ih.last_le
      case inserted =>
        refine ⟨new ++ [env.rowOf (b.last + 1) e], by simp [hrows], ?_, ?_⟩
        · rw [List.pairwise_append]
          refine ⟨hsorted, List.pairwise_singleton _ _, ?_⟩
          intro r hr r' hr'
          have hle := (hnew r hr).2.2
          rw [List.mem_singleton.1 hr']
          show r.sequence < b.last + 1
          omega
        · intro r hr
          rcases List.mem_append.1 hr with hr | hr
          · obtain ⟨hevent, hlt, hle⟩ := hwiden r hr
            exact ⟨hevent, hlt, Nat.le_succ_of_le hle⟩
          · rw [List.mem_singleton.1 hr]
            exact ⟨⟨e, by simp, b.last + 1, rfl⟩, Nat.lt_succ_of_le ih.last_le, Nat.le_refl _⟩
      case ids =>
        intro hnodup
        rw [List.map_append, List.map_singleton]
        refine (ih.ids hnodup).append (List.nodup_singleton _) (List.disjoint_singleton.2 ?_)
        intro hmem
        obtain ⟨r, hr, hid⟩ := List.mem_map.1 hmem
        exact hfresh r hr hid
      case kept =>
        intro e' he' hkind
        rcases List.mem_append.1 he' with he' | he'
        · obtain ⟨r, hr, hid⟩ := hkept e' he' hkind
          exact ⟨r, List.mem_append_left _ hr, hid⟩
        · rw [List.mem_singleton.1 he']
          exact ⟨env.rowOf (b.last + 1) e, by simp, rfl⟩

/-- The event at turn `k` of a batch has no row afterwards. -/
def omitted (env : Envelopes δ) (last pendingLimit : ℕ) (rows : List Row)
    (events : List (Event String δ)) (k : ℕ) : Bool :=
  events[k]?.any fun e =>
    (enqueueAfter env last pendingLimit rows (events.take (k + 1))).rows.all (·.eventId ≠ e.eventId)

theorem omitted_append {k : ℕ} (hk : k < events.length) (e : Event String δ) :
    omitted env last pendingLimit rows (events ++ [e]) k =
      omitted env last pendingLimit rows events k := by
  simp only [omitted, List.getElem?_append_left hk, List.take_append_of_le_length hk]

/-- An event is omitted for want of room alone. -/
theorem omitted_full {k : ℕ} (h : omitted env last pendingLimit rows events k = true) :
    ∃ e, events[k]? = some e ∧ e.eventType.isOptional = true ∧
      pendingLimit ≤ (enqueueAfter env last pendingLimit rows (events.take k)).rows.countP
        (·.state = .pending) := by
  unfold omitted at h
  cases he : events[k]? with
  | none => simp [he] at h
  | some e =>
    rw [he, Option.any_some, List.take_add_one, he, Option.toList_some, enqueueAfter_append] at h
    rw [← (enqueueAfter_added env last pendingLimit rows (events.take k)).pending]
    obtain ⟨⟨r, hr, hid⟩, hadd⟩ | ⟨-, ⟨hoptional, hfull, -⟩ | ⟨-, hadd⟩⟩ := Batch.add_cases env
      pendingLimit (enqueueAfter env last pendingLimit rows (events.take k)) e
    · rw [hadd, List.all_eq_true] at h
      simpa [hid] using h r hr
    · exact ⟨e, rfl, hoptional, hfull⟩
    · rw [hadd, List.all_eq_true] at h
      simpa [Envelopes.rowOf] using h _ (List.mem_append_right _ (List.mem_singleton_self _))

/-- The number of events dropped is the number omitted. -/
theorem dropped_eq_count (env : Envelopes δ) (last pendingLimit : ℕ) (rows : List Row)
    (events : List (Event String δ)) :
    (enqueueAfter env last pendingLimit rows events).dropped =
      (List.range events.length).countP (omitted env last pendingLimit rows events) := by
  induction events using List.reverseRecOn with
  | nil => rfl
  | append_singleton events e ih =>
    have hlast : omitted env last pendingLimit rows (events ++ [e]) events.length =
        ((enqueueAfter env last pendingLimit rows events).add env pendingLimit e).rows.all
          (·.eventId ≠ e.eventId) := by
      rw [omitted, List.getElem?_concat_length, Option.any_some, List.take_of_length_le (by simp),
        enqueueAfter_append]
    have hrest : (List.range events.length).countP
        (omitted env last pendingLimit rows (events ++ [e])) =
        (List.range events.length).countP (omitted env last pendingLimit rows events) := by
      refine List.countP_congr fun k hk => ?_
      rw [omitted_append (List.mem_range.1 hk)]
    rw [List.length_append, List.length_singleton, List.range_succ, List.countP_append, hrest, ← ih,
      List.countP_singleton, hlast, enqueueAfter_append]
    generalize enqueueAfter env last pendingLimit rows events = b
    obtain ⟨⟨r, hr, hid⟩, hadd⟩ | ⟨hfresh, ⟨-, -, hadd⟩ | ⟨-, hadd⟩⟩ :=
      Batch.add_cases env pendingLimit b e
    · rw [hadd, if_neg]
      · omega
      · intro hall
        simpa [hid] using List.all_eq_true.1 hall r hr
    · rw [hadd, if_pos]
      simpa using hfresh
    · rw [hadd, if_neg]
      · show b.dropped = b.dropped + 0
        omega
      · intro hall
        simpa [Envelopes.rowOf] using
          List.all_eq_true.1 hall _ (List.mem_append_right _ (List.mem_singleton_self _))

/-! The columns that a transaction is about make the rows of `Storage/Outbox.lean`. -/

/-- The event of a row's columns, with the envelope for its data. -/
def Row.toOutboxRow (row : Row) : OutboxRow String String where
  event := ⟨row.eventId, row.eventType, row.tenantId, row.traceId, row.envelope⟩
  state := row.state
  attempts := row.attempts

/-- An event with its envelope for its data. -/
def Envelopes.pack (env : Envelopes δ) (e : Event String δ) : Event String String :=
  { e with data := env.dump e }

theorem enqueueAfter_refines (env : Envelopes δ) (pendingLimit : ℕ) (b : Batch)
    (events : List (Event String δ)) :
    ((events.foldl (Batch.add env pendingLimit) b).rows.map Row.toOutboxRow,
        (events.foldl (Batch.add env pendingLimit) b).dropped) =
      enqueueFrom pendingLimit b.pending b.dropped (b.rows.map Row.toOutboxRow)
        (events.map env.pack) := by
  induction events generalizing b with
  | nil => rfl
  | cons e events ih =>
    rw [List.foldl_cons, ih, List.map_cons, enqueueFrom]
    have hids : (env.pack e).eventId ∈ (b.rows.map Row.toOutboxRow).map (·.event.eventId) ↔
        ∃ r ∈ b.rows, r.eventId = e.eventId := by
      simp [Row.toOutboxRow, Envelopes.pack]
    obtain ⟨hfound, hadd⟩ | ⟨hfresh, ⟨hoptional, hfull, hadd⟩ | ⟨hkeep, hadd⟩⟩ :=
      Batch.add_cases env pendingLimit b e
    · rw [hadd, if_pos (hids.2 hfound)]
    · have hnew : ¬∃ r ∈ b.rows, r.eventId = e.eventId := by simpa using hfresh
      rw [hadd, if_neg (hids.not.2 hnew), if_pos (by simp [hfull, hoptional, Envelopes.pack])]
    · have hnew : ¬∃ r ∈ b.rows, r.eventId = e.eventId := by simpa using hfresh
      rw [hadd, if_neg (hids.not.2 hnew), if_neg]
      · simp [Row.toOutboxRow, Envelopes.rowOf, Envelopes.pack]
      · intro hdrop
        simp only [Bool.and_eq_true, decide_eq_true_eq] at hdrop
        exact hkeep ⟨hdrop.2, hdrop.1⟩

/-- Inserting is the same in both tables. -/
theorem enqueue_refines (env : Envelopes δ) (pendingLimit : ℕ) (rows : List Row)
    (events : List (Event String δ)) :
    ((enqueue env pendingLimit rows events).1.map Row.toOutboxRow,
        (enqueue env pendingLimit rows events).2) =
      AdaptiveLlm.enqueue pendingLimit (rows.map Row.toOutboxRow) (events.map env.pack) := by
  have hpending : (rows.map Row.toOutboxRow).countP (·.state = .pending) =
      rows.countP (·.state = .pending) := by
    rw [List.countP_map]
    rfl
  rw [AdaptiveLlm.enqueue, hpending]
  exact enqueueAfter_refines env pendingLimit _ events

end Batch

/-! ## Selecting -/

/-- `earlier.tenant_id = o.tenant_id AND earlier.interaction_id = o.interaction_id`, which no row
    without an interaction meets. -/
def Row.sharesInteraction (earlier o : Row) : Bool :=
  earlier.tenantId = o.tenantId && earlier.interactionId.isSome &&
    earlier.interactionId = o.interactionId

/-- An earlier row of the same interaction that is pending. -/
def Row.blocks (earlier o : Row) : Bool :=
  earlier.sharesInteraction o && earlier.state = .pending && earlier.sequence < o.sequence

/-- The row is pending and due. -/
def Row.due (o : Row) (now : ℤ) : Bool := o.state = .pending && o.nextAttemptAt ≤ now

/-- The WHERE clause of `next_due`. -/
def eligible (rows : List Row) (now : ℤ) (o : Row) : Bool :=
  o.due now && !rows.any (·.blocks o)

/-- `ORDER BY next_attempt_at, sequence`. -/
def Row.before (a b : Row) : Bool :=
  a.nextAttemptAt < b.nextAttemptAt || a.nextAttemptAt = b.nextAttemptAt && a.sequence ≤ b.sequence

/-- The first of the rows in the order. -/
def firstRow : List Row → Option Row
  | [] => none
  | a :: rows =>
    match firstRow rows with
    | none => some a
    | some b => some (if a.before b then a else b)

/-- `next_due`. -/
def nextDue (rows : List Row) (now : ℤ) : Option Row := firstRow (rows.filter (eligible rows now))

/-! ## Bookkeeping -/

/-- `finish`. -/
def finish (rows : List Row) (eventId : String) (state : OutboxState) (attempts : ℕ)
    (nextAttemptAt : ℤ) (error : Option DispatchError) : List Row :=
  rows.map fun row =>
    if row.eventId = eventId && row.state = .pending then
      { row with state, attempts, nextAttemptAt, lastErrorCode := error }
    else row

/-- `redeliver`. -/
def redeliver (rows : List Row) (eventId : String) (now : ℤ) : List Row :=
  rows.map fun row =>
    if row.eventId = eventId && row.state = .dead then
      { row with state := .pending, attempts := 0, nextAttemptAt := now, lastErrorCode := none }
    else row

end Dispatch

end AdaptiveLlm
