import AdaptiveLlm.Events.Outbox
import AdaptiveLlm.Lib.Runs
import Mathlib.Logic.Function.Basic

set_option autoImplicit false

/-! # The dispatcher

`Dispatcher.dispatch_once` (`events/outbox.py`) over the table, next to the transactions that insert
events and the operator's redeliveries. A dispatcher selects a row, hands its event to the sink and
writes down what came of it; it may stop between any two of these, and then starts anew.

Over SQLite it reads `next_due` and writes in a transaction of its own. Over PostgreSQL it reads a
committed snapshot, locks a row of it that still meets the predicate and that nobody else holds, and
keeps the lock to the end.

`DeliveryInv` says of the table and of what each dispatcher holds that nothing has been lost: an
inserted event has its row, a dispatcher's row is one of the table, and the attempts of a row are
those that the log of the system has. It is kept by transactions, by the moves of a dispatcher and
by redeliveries alike. The sink is any: an emission may be accepted, refused or fail, so nothing of
the result depends on what is behind it. -/

namespace AdaptiveLlm

namespace Dispatch

/-! ## States and steps

The table is shared, and each dispatcher has its row in hand between two transactions. The sink is
called outside of any transaction: it may accept the event and the dispatcher still see an
exception, or die before it can write the answer down. -/

/-- The two databases that a dispatcher claims rows from. -/
inductive Backend where
  | sqlite
  | postgres
  deriving DecidableEq, Repr

/-- Where a dispatcher is in its loop. -/
inductive Phase where
  | idle
  /-- `claim` has read a snapshot -/
  | selecting (snapshot : List Row) (now : ℤ)
  /-- it has a row -/
  | claimed (row : Row)
  /-- the sink has returned, or raised -/
  | emitted (row : Row) (raised : Bool)

/-- The row that a dispatcher works on. -/
def Phase.row? : Phase → Option Row
  | claimed row => some row
  | emitted row _ => some row
  | _ => none

/-- What has happened. -/
inductive Happening (δ : Type) where
  /-- a transaction with these events was committed -/
  | enqueued (events : List (Event String δ))
  /-- the sink accepted the event -/
  | accepted (e : Event String δ)
  /-- `emit` raised -/
  | failed (eventId : String)
  | redelivered (eventId : String)

/-- The table, the dispatchers and the history, the latest first. -/
structure System (κ δ : Type) where
  rows : List Row := []
  phases : κ → Phase := fun _ => .idle
  log : List (Happening δ) := []

variable {κ δ : Type} [DecidableEq κ]

/-- A dispatcher goes on to a phase. -/
def System.goto (s : System κ δ) (d : κ) (phase : Phase) : System κ δ :=
  { s with phases := Function.update s.phases d phase }

@[simp] theorem System.goto_rows (s : System κ δ) (d : κ) (phase : Phase) :
    (s.goto d phase).rows = s.rows := rfl

@[simp] theorem System.goto_self (s : System κ δ) (d : κ) (phase : Phase) :
    (s.goto d phase).phases d = phase := by
  simp [System.goto]

theorem System.goto_of_ne (s : System κ δ) {d d' : κ} (h : d' ≠ d) (phase : Phase) :
    (s.goto d phase).phases d' = s.phases d' := by
  simp [System.goto, h]

@[simp] theorem System.goto_log (s : System κ δ) (d : κ) (phase : Phase) :
    (s.goto d phase).log = s.log := rfl

section Step

variable (env : Envelopes δ) (maxAttempts : ℕ) (backend : Backend)

/-- The steps. Clocks and delays are any, so are the answers of the sink. -/
inductive Step : System κ δ → System κ δ → Prop
  /-- a transaction with `enqueue` commits; numbers may be missing in a sequence of PostgreSQL -/
  | enqueue {s : System κ δ} (last pendingLimit : ℕ) (events : List (Event String δ))
      (sequence : lastSequence s.rows ≤ last)
      (sqlite : backend = .sqlite → last = lastSequence s.rows) :
      Step s { s with
        rows := (enqueueAfter env last pendingLimit s.rows events).rows
        log := .enqueued events :: s.log }
  /-- a transaction with `enqueue` is rolled back -/
  | rolledBack {s : System κ δ} (pendingLimit : ℕ) (events : List (Event String δ)) : Step s s
  | claim {s : System κ δ} (d : κ) (now : ℤ) {row : Row} (sqlite : backend = .sqlite)
      (idle : s.phases d = .idle) (found : nextDue s.rows now = some row) :
      Step s (s.goto d (.claimed row))
  | snapshot {s : System κ δ} (d : κ) (now : ℤ) (postgres : backend = .postgres)
      (idle : s.phases d = .idle) : Step s (s.goto d (.selecting s.rows now))
  | lock {s : System κ δ} (d : κ) {snapshot : List Row} {now : ℤ} {old row : Row}
      (selecting : s.phases d = .selecting snapshot now) (read : old ∈ snapshot)
      (met : eligible snapshot now old = true) (current : row ∈ s.rows)
      (same : row.eventId = old.eventId) (stillMet : eligible snapshot now row = true)
      (unlocked : ∀ d' held, (s.phases d').row? = some held → held.eventId ≠ row.eventId) :
      Step s (s.goto d (.claimed row))
  /-- the envelope is not one of the row -/
  | invalid {s : System κ δ} (d : κ) (now : ℤ) {row : Row} (claimed : s.phases d = .claimed row)
      (undecoded : env.decode row = none) :
      Step s { s.goto d .idle with
        rows := finish s.rows row.eventId .dead (row.attempts + 1) now (some .invalidEvent) }
  | emit {s : System κ δ} (d : κ) {row : Row} {e : Event String δ}
      (claimed : s.phases d = .claimed row) (decoded : env.decode row = some e) :
      Step s { s.goto d (.emitted row false) with log := .accepted e :: s.log }
  /-- `emit` raises, before or after the sink has accepted the event -/
  | fail {s : System κ δ} (d : κ) (accepted : Bool) {row : Row} {e : Event String δ}
      (claimed : s.phases d = .claimed row) (decoded : env.decode row = some e) :
      Step s { s.goto d (.emitted row true) with
        log := .failed row.eventId :: (if accepted then [.accepted e] else []) ++ s.log }
  | delivered {s : System κ δ} (d : κ) (now : ℤ) {row : Row}
      (emitted : s.phases d = .emitted row false) :
      Step s { s.goto d .idle with
        rows := finish s.rows row.eventId .delivered (row.attempts + 1) now none }
  | retry {s : System κ δ} (d : κ) (retryAt : ℤ) {row : Row}
      (emitted : s.phases d = .emitted row true) (room : row.attempts + 1 < maxAttempts) :
      Step s { s.goto d .idle with
        rows := finish s.rows row.eventId .pending (row.attempts + 1) retryAt
          (some .sinkUnavailable) }
  | bury {s : System κ δ} (d : κ) (now : ℤ) {row : Row}
      (emitted : s.phases d = .emitted row true) (spent : maxAttempts ≤ row.attempts + 1) :
      Step s { s.goto d .idle with
        rows := finish s.rows row.eventId .dead (row.attempts + 1) now (some .sinkUnavailable) }
  /-- no row is due, or the process stops -/
  | stop {s : System κ δ} (d : κ) : Step s (s.goto d .idle)
  | redeliver {s : System κ δ} (eventId : String) (now : ℤ)
      (found : ∃ r ∈ s.rows, r.eventId = eventId ∧ r.state = .dead) :
      Step s { s with
        rows := Dispatch.redeliver s.rows eventId now
        log := .redelivered eventId :: s.log }

/-- The states of the runs from an empty table. -/
def Reachable (s : System κ δ) : Prop := Relation.ReflTransGen (Step env maxAttempts backend) {} s

end Step

/-! ## Rows in the table -/

section Rows

variable {rows : List Row} {row r : Row} {eventId : String} {state : OutboxState} {attempts : ℕ}
  {nextAttemptAt : ℤ} {error : Option DispatchError}

theorem eq_of_eventId (hnodup : (rows.map (·.eventId)).Nodup) (hr : r ∈ rows) (hrow : row ∈ rows)
    (h : r.eventId = row.eventId) : r = row :=
  List.inj_on_of_nodup_map hnodup hr hrow h

/-- `finish` for a pending row changes this row alone. -/
theorem mem_finish (hnodup : (rows.map (·.eventId)).Nodup) (hrow : row ∈ rows)
    (hpending : row.state = .pending)
    (hr : r ∈ finish rows row.eventId state attempts nextAttemptAt error) :
    r ∈ rows ∧ r.eventId ≠ row.eventId ∨
      r = { row with state, attempts, nextAttemptAt, lastErrorCode := error } := by
  obtain ⟨old, hold, rfl⟩ := List.mem_map.1 hr
  by_cases hid : old.eventId = row.eventId
  · obtain rfl := eq_of_eventId hnodup hold hrow hid
    simp [hpending]
  · rw [if_neg (by simp [hid])]
    exact .inl ⟨hold, hid⟩

theorem mem_finish_of_ne (hr : r ∈ rows) (hne : r.eventId ≠ eventId) :
    r ∈ finish rows eventId state attempts nextAttemptAt error :=
  List.mem_map.2 ⟨r, hr, if_neg (by simp [hne])⟩

theorem finish_eventIds :
    (finish rows eventId state attempts nextAttemptAt error).map (·.eventId) =
      rows.map (·.eventId) := by
  rw [finish, List.map_map]
  refine List.map_congr_left fun row _ => ?_
  simp only [Function.comp_apply]
  split <;> rfl

theorem mem_redeliver {now : ℤ} (hr : r ∈ redeliver rows eventId now) :
    r ∈ rows ∧ ¬(r.eventId = eventId ∧ r.state = .dead) ∨
      ∃ old ∈ rows, old.eventId = eventId ∧ old.state = .dead ∧
        r = { old with
          state := .pending, attempts := 0, nextAttemptAt := now, lastErrorCode := none } := by
  obtain ⟨old, hold, rfl⟩ := List.mem_map.1 hr
  by_cases hmatch : old.eventId = eventId ∧ old.state = .dead
  · exact .inr ⟨old, hold, hmatch.1, hmatch.2, if_pos (by simp [hmatch])⟩
  · rw [if_neg (by simpa using hmatch)]
    exact .inl ⟨hold, hmatch⟩

theorem mem_redeliver_of_pending {now : ℤ} (hr : r ∈ rows) (hpending : r.state = .pending) :
    r ∈ redeliver rows eventId now :=
  List.mem_map.2 ⟨r, hr, if_neg (by simp [hpending])⟩

theorem redeliver_eventIds {now : ℤ} :
    (redeliver rows eventId now).map (·.eventId) = rows.map (·.eventId) := by
  rw [redeliver, List.map_map]
  refine List.map_congr_left fun row _ => ?_
  simp only [Function.comp_apply]
  split <;> rfl

theorem firstRow_mem (h : firstRow rows = some row) : row ∈ rows := by
  induction rows generalizing row with
  | nil => cases h
  | cons a rows ih =>
    rw [firstRow] at h
    split at h
    · cases h
      exact List.mem_cons_self
    · rename_i b hb
      cases h
      split
      · exact List.mem_cons_self
      · exact List.mem_cons_of_mem _ (ih hb)

/-- `next_due` returns an eligible row, if there is one. -/
theorem nextDue_eq_some {now : ℤ} (h : nextDue rows now = some row) :
    row ∈ rows ∧ eligible rows now row = true :=
  List.mem_filter.1 (firstRow_mem h)

theorem pending_of_eligible {now : ℤ} (h : eligible rows now row = true) : row.state = .pending := by
  simp only [eligible, Row.due, Bool.and_eq_true, decide_eq_true_eq] at h
  exact h.1.1

end Rows

/-! ## Failed emissions -/

/-- The failed emissions of an event since it was last redelivered. -/
def failures (eventId : String) : List (Happening δ) → ℕ
  | [] => 0
  | .failed id :: log => if id = eventId then failures eventId log + 1 else failures eventId log
  | .redelivered id :: log => if id = eventId then 0 else failures eventId log
  | _ :: log => failures eventId log

theorem failures_fail (eventId : String) (accepted : Bool) (e : Event String δ)
    (log : List (Happening δ)) (id : String) :
    failures id log ≤
      failures id (.failed eventId :: (if accepted then [.accepted e] else []) ++ log) := by
  have hsame : failures id ((if accepted then [.accepted e] else []) ++ log) = failures id log := by
    cases accepted <;> rfl
  rw [List.cons_append, failures, hsame]
  split <;> omega

/-! ## The invariant

The rows and the log are related event by event: what was enqueued is in the table, and a row says
of its event what the log says, how often it failed and whether the sink took it. -/

variable {env : Envelopes δ} {maxAttempts : ℕ} {backend : Backend} {s s' : System κ δ}

/-- What holds of rows, sink and history after every step. -/
structure DeliveryInv (env : Envelopes δ) (maxAttempts : ℕ) (s : System κ δ) : Prop where
  ids : (s.rows.map (·.eventId)).Nodup
  kept : ∀ events, .enqueued events ∈ s.log → ∀ e ∈ events, e.eventType.isOptional = false →
    ∃ r ∈ s.rows, r.eventId = e.eventId
  delivered : ∀ r ∈ s.rows, r.state = .delivered →
    ∃ e, .accepted e ∈ s.log ∧ env.decode r = some e
  dead : ∀ r ∈ s.rows, r.state = .dead →
    maxAttempts ≤ failures r.eventId s.log ∨ env.decode r = none
  pending : ∀ r ∈ s.rows, r.state = .pending → r.attempts ≤ failures r.eventId s.log
  /-- a dispatcher has its row to itself, -/
  held : ∀ d row, (s.phases d).row? = some row → row ∈ s.rows ∧ row.state = .pending
  exclusive : ∀ d d' row row', (s.phases d).row? = some row → (s.phases d').row? = some row' →
    row.eventId = row'.eventId → d = d'
  /-- and what it has heard of the sink has happened. -/
  emitted : ∀ d row raised, s.phases d = .emitted row raised → ∃ e, env.decode row = some e ∧
    if raised then row.attempts + 1 ≤ failures row.eventId s.log else .accepted e ∈ s.log

namespace DeliveryInv

omit [DecidableEq κ] in
theorem init : DeliveryInv env maxAttempts ({} : System κ δ) where
  ids := List.nodup_nil
  kept := by simp
  delivered := by simp
  dead := by simp
  pending := by simp
  held := by simp [Phase.row?]
  exclusive := by simp [Phase.row?]
  emitted := by simp

variable (hinv : DeliveryInv env maxAttempts s)

include hinv

/-- A dispatcher may go to a phase whose row is pending and nobody else's. -/
theorem goto (d : κ) {phase : Phase}
    (hheld : ∀ row, phase.row? = some row → row ∈ s.rows ∧ row.state = .pending ∧
      ∀ d' held, d' ≠ d → (s.phases d').row? = some held → held.eventId ≠ row.eventId)
    (hemitted : ∀ row raised, phase = .emitted row raised → ∃ e, env.decode row = some e ∧
      if raised then row.attempts + 1 ≤ failures row.eventId s.log else .accepted e ∈ s.log) :
    DeliveryInv env maxAttempts (s.goto d phase) := by
  refine ⟨hinv.ids, hinv.kept, hinv.delivered, hinv.dead, hinv.pending, ?_, ?_, ?_⟩
  · intro d' row hrow
    by_cases hd : d' = d
    · subst hd
      rw [System.goto_self] at hrow
      exact ⟨(hheld row hrow).1, (hheld row hrow).2.1⟩
    · rw [System.goto_of_ne s hd] at hrow
      exact hinv.held d' row hrow
  · intro d₁ d₂ row₁ row₂ h₁ h₂ hid
    by_cases hd₁ : d₁ = d <;> by_cases hd₂ : d₂ = d
    · exact hd₁.trans hd₂.symm
    · subst hd₁
      rw [System.goto_self] at h₁
      rw [System.goto_of_ne s hd₂] at h₂
      exact absurd hid.symm ((hheld row₁ h₁).2.2 d₂ row₂ hd₂ h₂)
    · subst hd₂
      rw [System.goto_of_ne s hd₁] at h₁
      rw [System.goto_self] at h₂
      exact absurd hid ((hheld row₂ h₂).2.2 d₁ row₁ hd₁ h₁)
    · rw [System.goto_of_ne s hd₁] at h₁
      rw [System.goto_of_ne s hd₂] at h₂
      exact hinv.exclusive d₁ d₂ row₁ row₂ h₁ h₂ hid
  · intro d' row raised hphase
    by_cases hd : d' = d
    · subst hd
      rw [System.goto_self] at hphase
      exact hemitted row raised hphase
    · rw [System.goto_of_ne s hd] at hphase
      exact hinv.emitted d' row raised hphase

/-- The sink has answered for the row of a dispatcher. -/
theorem answered {d : κ} {row : Row} {raised : Bool} (hclaimed : s.phases d = .claimed row)
    (hheard : ∃ e, env.decode row = some e ∧
      if raised then row.attempts + 1 ≤ failures row.eventId s.log else .accepted e ∈ s.log) :
    DeliveryInv env maxAttempts (s.goto d (.emitted row raised)) := by
  have hrow : (s.phases d).row? = some row := by
    rw [hclaimed]
    rfl
  refine hinv.goto d ?_ ?_
  · intro row' hphase
    cases hphase
    refine ⟨(hinv.held d row hrow).1, (hinv.held d row hrow).2, fun d' held hd hheld hid => hd ?_⟩
    exact hinv.exclusive d' d held row hheld hrow hid
  · intro row' raised' hphase
    cases hphase
    exact hheard

omit [DecidableEq κ] in
/-- The answers of the sink only add to the history. -/
theorem heard (log : List (Happening δ)) (hsub : s.log ⊆ log)
    (henqueued : ∀ events, .enqueued events ∈ log → .enqueued events ∈ s.log)
    (hfailures : ∀ id, failures id s.log ≤ failures id log) :
    DeliveryInv env maxAttempts { s with log } := by
  refine ⟨hinv.ids, fun events h => hinv.kept events (henqueued events h), ?_, ?_, ?_, hinv.held,
    hinv.exclusive, ?_⟩
  · intro r hr hstate
    obtain ⟨e, he, hdecode⟩ := hinv.delivered r hr hstate
    exact ⟨e, hsub he, hdecode⟩
  · intro r hr hstate
    exact (hinv.dead r hr hstate).imp_left fun h => h.trans (hfailures _)
  · intro r hr hstate
    exact (hinv.pending r hr hstate).trans (hfailures _)
  · intro d row raised hphase
    obtain ⟨e, hdecode, hheard⟩ := hinv.emitted d row raised hphase
    refine ⟨e, hdecode, ?_⟩
    cases raised
    · exact hsub hheard
    · exact Nat.le_trans hheard (hfailures _)

/-- A dispatcher writes down what came of its row. -/
theorem finish {d : κ} {row : Row} (hrow : (s.phases d).row? = some row) {state : OutboxState}
    {attempts : ℕ} {nextAttemptAt : ℤ} {error : Option DispatchError}
    (hdelivered : state = .delivered → ∃ e, .accepted e ∈ s.log ∧ env.decode row = some e)
    (hdead : state = .dead → maxAttempts ≤ failures row.eventId s.log ∨ env.decode row = none)
    (hpending : state = .pending → attempts ≤ failures row.eventId s.log) :
    DeliveryInv env maxAttempts { s.goto d .idle with
      rows := Dispatch.finish s.rows row.eventId state attempts nextAttemptAt error } := by
  obtain ⟨hmem, hstate⟩ := hinv.held d row hrow
  have hidle : DeliveryInv env maxAttempts (s.goto d .idle) :=
    hinv.goto d (by simp [Phase.row?]) (by simp)
  refine ⟨by rw [finish_eventIds]; exact hinv.ids, ?_, ?_, ?_, ?_, ?_, hidle.exclusive,
    hidle.emitted⟩
  · intro events hevents e he hkind
    obtain ⟨r, hr, hid⟩ := hinv.kept events hevents e he hkind
    have hids : e.eventId ∈ (Dispatch.finish s.rows row.eventId state attempts nextAttemptAt
        error).map (·.eventId) := by
      rw [finish_eventIds]
      exact List.mem_map.2 ⟨r, hr, hid⟩
    simpa using hids
  · intro r hr hr'
    rcases mem_finish hinv.ids hmem hstate hr with ⟨hr, -⟩ | rfl
    · exact hinv.delivered r hr hr'
    · exact hdelivered hr'
  · intro r hr hr'
    rcases mem_finish hinv.ids hmem hstate hr with ⟨hr, -⟩ | rfl
    · exact hinv.dead r hr hr'
    · exact hdead hr'
  · intro r hr hr'
    rcases mem_finish hinv.ids hmem hstate hr with ⟨hr, -⟩ | rfl
    · exact hinv.pending r hr hr'
    · exact hpending hr'
  · intro d' held hheld
    have hheld' := hidle.held d' held hheld
    refine ⟨mem_finish_of_ne hheld'.1 ?_, hheld'.2⟩
    -- the row of another dispatcher is another row
    have hd : d' ≠ d := by
      rintro rfl
      have hnone : ((s.goto d' .idle).phases d').row? = some held := hheld
      simp [Phase.row?] at hnone
    intro hid
    have hheld : ((s.goto d .idle).phases d').row? = some held := hheld
    rw [System.goto_of_ne s hd] at hheld
    exact hd (hinv.exclusive d' d held row hheld hrow hid)

omit [DecidableEq κ] in
theorem enqueue (last pendingLimit : ℕ) (events : List (Event String δ)) :
    DeliveryInv env maxAttempts { s with
      rows := (enqueueAfter env last pendingLimit s.rows events).rows
      log := .enqueued events :: s.log } := by
  have hadded := enqueueAfter_added env last pendingLimit s.rows events
  obtain ⟨new, hrows, -, hnew⟩ := hadded.inserted
  have hold {r : Row} (hr : r ∈ s.rows) :
      r ∈ (enqueueAfter env last pendingLimit s.rows events).rows := by
    rw [hrows]
    exact List.mem_append_left _ hr
  have hcases {r : Row} (hr : r ∈ (enqueueAfter env last pendingLimit s.rows events).rows) :
      r ∈ s.rows ∨ r.state = .pending ∧ r.attempts = 0 := by
    rw [hrows] at hr
    rcases List.mem_append.1 hr with hr | hr
    · exact .inl hr
    · obtain ⟨⟨e, -, n, rfl⟩, -⟩ := hnew r hr
      exact .inr ⟨rfl, rfl⟩
  refine ⟨hadded.ids hinv.ids, ?_, ?_, ?_, ?_, ?_, hinv.exclusive, ?_⟩
  · intro events' hevents e he hkind
    rcases List.mem_cons.1 hevents with heq | hevents
    · cases heq
      exact hadded.kept e he hkind
    · obtain ⟨r, hr, hid⟩ := hinv.kept events' hevents e he hkind
      exact ⟨r, hold hr, hid⟩
  · intro r hr hstate
    rcases hcases hr with hr | ⟨hpending, -⟩
    · obtain ⟨e, he, hdecode⟩ := hinv.delivered r hr hstate
      exact ⟨e, List.mem_cons_of_mem _ he, hdecode⟩
    · rw [hpending] at hstate
      cases hstate
  · intro r hr hstate
    rcases hcases hr with hr | ⟨hpending, -⟩
    · exact hinv.dead r hr hstate
    · rw [hpending] at hstate
      cases hstate
  · intro r hr hstate
    rcases hcases hr with hr | ⟨-, hattempts⟩
    · exact hinv.pending r hr hstate
    · rw [hattempts]
      exact Nat.zero_le _
  · intro d row hrow
    exact ⟨hold (hinv.held d row hrow).1, (hinv.held d row hrow).2⟩
  · intro d row raised hphase
    obtain ⟨e, hdecode, hheard⟩ := hinv.emitted d row raised hphase
    refine ⟨e, hdecode, ?_⟩
    cases raised
    · exact List.mem_cons_of_mem _ hheard
    · exact hheard

omit [DecidableEq κ] in
/-- The operator's step is about dead rows, which nobody holds. -/
theorem redeliver {eventId : String} (now : ℤ)
    (hfound : ∃ r ∈ s.rows, r.eventId = eventId ∧ r.state = .dead) :
    DeliveryInv env maxAttempts { s with
      rows := Dispatch.redeliver s.rows eventId now
      log := .redelivered eventId :: s.log } := by
  obtain ⟨found, hmem, hid, hstate⟩ := hfound
  have hother {r : Row} (hr : r ∈ s.rows) (hr' : ¬(r.eventId = eventId ∧ r.state = .dead)) :
      failures r.eventId (.redelivered eventId :: s.log) = failures r.eventId s.log := by
    rw [failures, if_neg]
    intro heq
    obtain rfl := eq_of_eventId hinv.ids hr hmem (heq.symm.trans hid.symm)
    exact hr' ⟨hid, hstate⟩
  have hheld (d : κ) (row : Row) (hrow : (s.phases d).row? = some row) :
      failures row.eventId (.redelivered eventId :: s.log) = failures row.eventId s.log := by
    refine hother (hinv.held d row hrow).1 ?_
    rintro ⟨-, hdead⟩
    rw [(hinv.held d row hrow).2] at hdead
    cases hdead
  refine ⟨by rw [redeliver_eventIds]; exact hinv.ids, ?_, ?_, ?_, ?_, ?_, hinv.exclusive, ?_⟩
  · intro events hevents e he hkind
    rcases List.mem_cons.1 hevents with heq | hevents
    · cases heq
    obtain ⟨r, hr, hid⟩ := hinv.kept events hevents e he hkind
    have hids : e.eventId ∈ (Dispatch.redeliver s.rows eventId now).map (·.eventId) := by
      rw [redeliver_eventIds]
      exact List.mem_map.2 ⟨r, hr, hid⟩
    simpa using hids
  · intro r hr hr'
    rcases mem_redeliver hr with ⟨hr, -⟩ | ⟨old, -, -, -, rfl⟩
    · obtain ⟨e, he, hdecode⟩ := hinv.delivered r hr hr'
      exact ⟨e, List.mem_cons_of_mem _ he, hdecode⟩
    · cases hr'
  · intro r hr hr'
    rcases mem_redeliver hr with ⟨hr, hne⟩ | ⟨old, -, -, -, rfl⟩
    · show maxAttempts ≤ failures r.eventId (.redelivered eventId :: s.log) ∨ _
      rw [hother hr hne]
      exact hinv.dead r hr hr'
    · cases hr'
  · intro r hr hr'
    rcases mem_redeliver hr with ⟨hr, hne⟩ | ⟨old, -, -, -, rfl⟩
    · show r.attempts ≤ failures r.eventId (.redelivered eventId :: s.log)
      rw [hother hr hne]
      exact hinv.pending r hr hr'
    · exact Nat.zero_le _
  · intro d row hrow
    obtain ⟨hmem, hpending⟩ := hinv.held d row hrow
    exact ⟨mem_redeliver_of_pending hmem hpending, hpending⟩
  · intro d row raised hphase
    obtain ⟨e, hdecode, hheard⟩ := hinv.emitted d row raised hphase
    refine ⟨e, hdecode, ?_⟩
    cases raised
    · exact List.mem_cons_of_mem _ hheard
    · show row.attempts + 1 ≤ failures row.eventId (.redelivered eventId :: s.log)
      rw [hheld d row (by rw [hphase]; rfl)]
      exact hheard

end DeliveryInv

/-- **Every step keeps the invariant**, of one dispatcher over SQLite and of any number of them over
    PostgreSQL. -/
theorem Step.keeps (hone : backend = .sqlite → Subsingleton κ)
    (h : Step env maxAttempts backend s s') (hinv : DeliveryInv env maxAttempts s) :
    DeliveryInv env maxAttempts s' := by
  cases h with
  | enqueue last pendingLimit events => exact hinv.enqueue last pendingLimit events
  | rolledBack => exact hinv
  | claim d now hsqlite _ hfound =>
    obtain ⟨hrow, heligible⟩ := nextDue_eq_some hfound
    refine hinv.goto d ?_ (by simp)
    intro row hphase
    cases hphase
    refine ⟨hrow, pending_of_eligible heligible, ?_⟩
    intro d' held hd
    exact absurd ((hone hsqlite).elim d' d) hd
  | snapshot d now => exact hinv.goto d (by simp [Phase.row?]) (by simp)
  | lock d _ _ _ hcurrent _ heligible hunlocked =>
    refine hinv.goto d ?_ (by simp)
    intro row hphase
    cases hphase
    exact ⟨hcurrent, pending_of_eligible heligible, fun d' held _ hheld => hunlocked d' held hheld⟩
  | invalid d now hclaimed hdecode =>
    exact hinv.finish (by rw [hclaimed]; rfl) (by simp) (fun _ => .inr hdecode) (by simp)
  | @emit d row e hclaimed hdecode =>
    have hheard := hinv.heard (.accepted e :: s.log) (List.subset_cons_self _ _) (by simp)
      (fun _ => Nat.le_refl _)
    refine hheard.answered hclaimed ⟨e, hdecode, ?_⟩
    exact List.mem_cons_self
  | @fail d accepted row e hclaimed hdecode =>
    have hheard := hinv.heard (.failed row.eventId :: (if accepted then [.accepted e] else []) ++ s.log)
      (by simp) (by cases accepted <;> simp) (failures_fail row.eventId accepted e s.log)
    refine hheard.answered hclaimed ⟨e, hdecode, ?_⟩
    have hpending := hinv.pending row (hinv.held d row (by rw [hclaimed]; rfl)).1
      (hinv.held d row (by rw [hclaimed]; rfl)).2
    show row.attempts + 1 ≤ failures row.eventId
      (.failed row.eventId :: (if accepted then [.accepted e] else []) ++ s.log)
    cases accepted <;> simpa [failures] using hpending
  | @delivered d now row hphase =>
    obtain ⟨e, hdecode, hheard⟩ := hinv.emitted d row false hphase
    exact hinv.finish (by rw [hphase]; rfl) (fun _ => ⟨e, hheard, hdecode⟩) (by simp) (by simp)
  | @retry d retryAt row hphase _ =>
    obtain ⟨e, -, hheard⟩ := hinv.emitted d row true hphase
    exact hinv.finish (by rw [hphase]; rfl) (by simp) (by simp) (fun _ => hheard)
  | @bury d now row hphase hspent =>
    obtain ⟨e, -, hheard⟩ := hinv.emitted d row true hphase
    exact hinv.finish (by rw [hphase]; rfl) (by simp) (fun _ => .inl (hspent.trans hheard)) (by simp)
  | stop d => exact hinv.goto d (by simp [Phase.row?]) (by simp)
  | redeliver eventId now hfound => exact hinv.redeliver now hfound

theorem Reachable.deliveryInv (hone : backend = .sqlite → Subsingleton κ)
    (h : Reachable env maxAttempts backend s) : DeliveryInv env maxAttempts s :=
  Runs.reflTransGen_of_invariant (fun _ _ hinv hstep => hstep.keeps hone hinv) .init h

omit [DecidableEq κ] in
/-- What a transaction has committed stays in the history. -/
theorem Step.log_subset [DecidableEq κ] (h : Step env maxAttempts backend s s') : s.log ⊆ s'.log := by
  cases h with
  | fail d accepted =>
    intro x hx
    exact List.mem_append_right _ hx
  | enqueue | redeliver | emit => exact List.subset_cons_self _ _
  | _ => exact List.Subset.refl _

/-- **The outbox loses nothing.** With one dispatcher over SQLite, in any run: an event that a committed
    transaction inserted and that is not optional has a row from then on; an optional event is
    omitted only at a full table, and the number of those omitted is what `enqueue` returns; a row is
    delivered only if the sink accepted the event of its envelope, and dead only after
    `maxAttempts` failed emissions, or for an envelope that is not its own. -/
theorem outbox_conserves (env : Envelopes δ) (maxAttempts : ℕ) {s t : System Unit δ}
    (hs : Reachable env maxAttempts .sqlite s)
    (hrun : Relation.ReflTransGen (Step env maxAttempts .sqlite) s t) :
    (∀ events, .enqueued events ∈ s.log → ∀ e ∈ events, e.eventType.isOptional = false →
      ∃ r ∈ t.rows, r.eventId = e.eventId ∧
        (r.state = .pending ∨ r.state = .delivered ∨ r.state = .dead)) ∧
    (∀ pendingLimit (events : List (Event String δ)),
      (enqueue env pendingLimit t.rows events).2 = (List.range events.length).countP
        (omitted env (lastSequence t.rows) pendingLimit t.rows events) ∧
      ∀ k, omitted env (lastSequence t.rows) pendingLimit t.rows events k = true →
        ∃ e, events[k]? = some e ∧ e.eventType.isOptional = true ∧
          pendingLimit ≤ (enqueue env pendingLimit t.rows (events.take k)).1.countP
            (·.state = .pending)) ∧
    (∀ r ∈ t.rows, r.state = .delivered → ∃ e, .accepted e ∈ t.log ∧ env.decode r = some e ∧
      e.eventId = r.eventId) ∧
    ∀ r ∈ t.rows, r.state = .dead →
      maxAttempts ≤ failures r.eventId t.log ∨ env.decode r = none := by
  have hinv : DeliveryInv env maxAttempts t :=
    Reachable.deliveryInv (fun _ => inferInstance) (hs.trans hrun)
  have hlog : s.log ⊆ t.log :=
    Runs.reflTransGen_of_invariant (fun _ _ hsub hstep => List.Subset.trans hsub hstep.log_subset)
      (List.Subset.refl _) hrun
  refine ⟨?_, ?_, ?_, hinv.dead⟩
  · intro events hevents e he hkind
    obtain ⟨r, hr, hid⟩ := hinv.kept events (hlog hevents) e he hkind
    refine ⟨r, hr, hid, ?_⟩
    cases r.state <;> simp
  · intro pendingLimit events
    exact ⟨dropped_eq_count env _ pendingLimit t.rows events, fun k hk => omitted_full hk⟩
  · intro r hr hstate
    obtain ⟨e, he, hdecode⟩ := hinv.delivered r hr hstate
    have hcolumns := (Option.filter_eq_some_iff.1 hdecode).2
    simp only [Bool.and_eq_true, decide_eq_true_eq] at hcolumns
    exact ⟨e, he, hdecode, hcolumns.1.1.1.1⟩

/-! An event that is delivered at the second attempt. -/

namespace Samples

/-- The event that an interaction has completed. -/
def completed : Event String Unit := ⟨"e1", .interactionCompleted, "acme", "t1", ()⟩

/-- The same of another interaction. -/
def other : Event String Unit := ⟨"e2", .interactionCompleted, "acme", "t2", ()⟩

/-- The two are written as different texts, and no other text is an event. -/
def envelopes : Envelopes Unit :=
  { dump := fun e => if e.eventId = "e1" then "first" else "second"
    parse := fun text => [("first", completed), ("second", other)].lookup text
    occurredAt := fun _ => 0
    deletion := fun _ => none
    interactionId := fun _ => some "i1" }

/-- Its row. -/
def row (attempts : ℕ) (state : OutboxState) (nextAttemptAt : ℤ) (error : Option DispatchError) :
    Row :=
  { envelopes.rowOf 1 completed with attempts, state, nextAttemptAt, lastErrorCode := error }

/-- A system with one row and one dispatcher. -/
def system (row : Row) (phase : Phase) (log : List (Happening Unit)) : System Unit Unit :=
  { rows := [row], phases := fun _ => phase, log }

/-- New, and after its first emission has failed. -/
def fresh : Row := row 0 .pending 0 none

/-- The row after an emission that failed. -/
def retried : Row := row 1 .pending 3 (some .sinkUnavailable)

/-- What has happened until then. -/
def history : List (Happening Unit) := [.failed "e1", .enqueued [completed]]

end Samples

open Samples in
theorem delivered_was_accepted : ∃ e, .accepted e ∈ Happening.accepted completed :: history ∧
    envelopes.decode (row 2 .delivered 5 none) = some e ∧ e.eventId = "e1" := by
  have h₁ : Step envelopes 2 .sqlite {} (system fresh .idle [.enqueued [completed]]) :=
    .enqueue 0 10 [completed] (Nat.le_refl _) (fun _ => rfl)
  have h₂ : Step envelopes 2 .sqlite (system fresh .idle [.enqueued [completed]])
      (system fresh (.claimed fresh) [.enqueued [completed]]) := .claim () 0 rfl rfl rfl
  have h₃ : Step envelopes 2 .sqlite (system fresh (.claimed fresh) [.enqueued [completed]])
      (system fresh (.emitted fresh true) history) := .fail () false rfl rfl
  have h₄ : Step envelopes 2 .sqlite (system fresh (.emitted fresh true) history)
      (system retried .idle history) :=
    @Step.retry _ _ _ _ _ _ _ () 3 fresh rfl (Nat.le_refl 2)
  have h₅ : Step envelopes 2 .sqlite (system retried .idle history)
      (system retried (.claimed retried) history) := .claim () 4 rfl rfl rfl
  have h₆ : Step envelopes 2 .sqlite (system retried (.claimed retried) history)
      (system retried (.emitted retried false) (.accepted completed :: history)) := .emit () rfl rfl
  have h₇ : Step envelopes 2 .sqlite
      (system retried (.emitted retried false) (.accepted completed :: history))
      (system (row 2 .delivered 5 none) .idle (.accepted completed :: history)) :=
    @Step.delivered _ _ _ _ _ _ _ () 5 retried rfl
  have hwaiting : Reachable envelopes 2 .sqlite (system retried .idle history) :=
    ((Relation.ReflTransGen.single h₁).tail h₂ |>.tail h₃).tail h₄
  exact (outbox_conserves envelopes 2 hwaiting (((Relation.ReflTransGen.single h₅).tail h₆).tail h₇)).2.2.1
    _ List.mem_cons_self rfl

end Dispatch

end AdaptiveLlm
