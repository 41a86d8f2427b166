import AdaptiveLlm.Events.Ordering

set_option autoImplicit false

/-! # The sink in memory

`InMemoryEventSink` (`events/__init__.py`) behind the dispatchers of one process. The outbox delivers at
least once: a dispatcher may stop behind an emission and before it has written down what came of it, and
then emits the event again. The sink knows an event by its id, and refuses new ones when it is full. Events
that an earlier process has delivered were in a sink that is gone.

The process is the outbox of `Events/Dispatcher.lean` with a sink that is known: its steps are steps
of that system, so all that was proved there holds here. What is added is about the sink. An event
that it holds was emitted for a row of the table, and an event that it has once is refused without
effect when it comes again. -/

namespace AdaptiveLlm

namespace Dispatch

/-! ## The sink -/

/-- The events by their ids, in the order of the insertions. -/
structure InMemoryEventSink (δ : Type) where
  events : List (Event String δ) := []
  dropped : ℕ := 0

/-- `emit`, and whether it accepts the event. -/
def InMemoryEventSink.emit {δ : Type} (capacity : ℕ) (sink : InMemoryEventSink δ) (e : Event String δ) :
    Bool × InMemoryEventSink δ :=
  if sink.events.any (·.eventId = e.eventId) then (true, sink)
  else if capacity ≤ sink.events.length then (false, { sink with dropped := sink.dropped + 1 })
  else (true, { sink with events := sink.events ++ [e] })

/-- `emit` finds the event, refuses it or inserts it. -/
theorem InMemoryEventSink.emit_cases {δ : Type} (capacity : ℕ) (sink : InMemoryEventSink δ)
    (e : Event String δ) :
    (∃ e' ∈ sink.events, e'.eventId = e.eventId) ∧ sink.emit capacity e = (true, sink) ∨
    (∀ e' ∈ sink.events, e'.eventId ≠ e.eventId) ∧
      (capacity ≤ sink.events.length ∧
          sink.emit capacity e = (false, { sink with dropped := sink.dropped + 1 }) ∨
        sink.events.length < capacity ∧
          sink.emit capacity e = (true, { sink with events := sink.events ++ [e] })) := by
  unfold emit
  by_cases hfound : sink.events.any (·.eventId = e.eventId)
  · rw [if_pos hfound]
    exact .inl ⟨by simpa using hfound, rfl⟩
  · rw [if_neg hfound]
    refine .inr ⟨by simpa using hfound, ?_⟩
    by_cases hfull : capacity ≤ sink.events.length
    · rw [if_pos hfull]
      exact .inl ⟨hfull, rfl⟩
    · rw [if_neg hfull]
      exact .inr ⟨not_le.1 hfull, rfl⟩

/-! ## The dispatchers of a process -/

/-- The table and the dispatchers, and the sink of the process. -/
structure Process (κ δ : Type) where
  outbox : System κ δ
  sink : InMemoryEventSink δ := {}

variable {κ δ : Type} [DecidableEq κ]

/-- A dispatcher has emitted the event of its row, and the sink has accepted it or raised. -/
def Process.emit (capacity : ℕ) (p : Process κ δ) (d : κ) (row : Row) (e : Event String δ) : Process κ δ :=
  let answer := p.sink.emit capacity e
  { outbox :=
      if answer.1 then { p.outbox.goto d (.emitted row false) with log := .accepted e :: p.outbox.log }
      else { p.outbox.goto d (.emitted row true) with log := .failed row.eventId :: p.outbox.log }
    sink := answer.2 }

section Step

variable (env : Envelopes δ) (maxAttempts : ℕ) (backend : Backend) (capacity : ℕ)

/-- The steps of the outbox, in which emissions get the answers of the sink. -/
inductive Process.Step : Process κ δ → Process κ δ → Prop
  | emit {p : Process κ δ} (d : κ) {row : Row} {e : Event String δ}
      (claimed : p.outbox.phases d = .claimed row) (decoded : env.decode row = some e) :
      Step p (p.emit capacity d row e)
  /-- any other step: no dispatcher comes behind an emission by it -/
  | other {p : Process κ δ} {outbox : System κ δ}
      (step : Dispatch.Step env maxAttempts backend p.outbox outbox)
      (quiet : ∀ d row raised, outbox.phases d = .emitted row raised →
        p.outbox.phases d = .emitted row raised) :
      Step p { p with outbox }

end Step

variable {env : Envelopes δ} {maxAttempts : ℕ} {backend : Backend} {capacity : ℕ} {p p' : Process κ δ}

/-- **A refinement**: with its own sink the process takes steps of the outbox, whose sink answers
    anything. -/
theorem Process.Step.refines (h : p.Step env maxAttempts backend capacity p') :
    Dispatch.Step env maxAttempts backend p.outbox p'.outbox := by
  cases h with
  | @emit d row e claimed decoded =>
    rw [Process.emit]
    cases hanswer : (p.sink.emit capacity e).1 with
    | true => exact .emit d claimed decoded
    | false => exact .fail d false claimed decoded
  | other step quiet => exact step

/-! ## Rows for good

A delivered row is final, and rows do not go. This is what ties the table to the sink: an event that
the sink has not been given in this process belongs to a row delivered before, or to one that is not
delivered yet. -/

/-- A row is kept with its event, and no row goes. -/
structure Kept (env : Envelopes δ) (rows rows' : List Row) : Prop where
  length_le : rows.length ≤ rows'.length
  row : ∀ r ∈ rows, ∃ r' ∈ rows', r'.eventId = r.eventId ∧ env.decode r' = env.decode r

theorem Kept.refl (rows : List Row) : Kept env rows rows where
  length_le := le_rfl
  row r hr := ⟨r, hr, rfl, rfl⟩

theorem Kept.map {rows : List Row} {f : Row → Row}
    (h : ∀ r, (f r).eventId = r.eventId ∧ env.decode (f r) = env.decode r) :
    Kept env rows (rows.map f) where
  length_le := (List.length_map f).ge
  row r hr := ⟨f r, List.mem_map_of_mem hr, h r⟩

theorem finish_kept (rows : List Row) (eventId : String) (state : OutboxState) (attempts : ℕ)
    (nextAttemptAt : ℤ) (error : Option DispatchError) :
    Kept env rows (finish rows eventId state attempts nextAttemptAt error) := by
  refine Kept.map fun r => ?_
  split_ifs
  · exact ⟨rfl, rfl⟩
  · exact ⟨rfl, rfl⟩

theorem Step.kept {s s' : System κ δ} (h : Step env maxAttempts backend s s') :
    Kept env s.rows s'.rows := by
  cases h with
  | enqueue last pendingLimit events =>
    obtain ⟨new, hrows, -, -⟩ := (enqueueAfter_added env last pendingLimit s.rows events).inserted
    show Kept env s.rows (enqueueAfter env last pendingLimit s.rows events).rows
    rw [hrows]
    refine ⟨?_, fun r hr => ⟨r, List.mem_append_left _ hr, rfl, rfl⟩⟩
    rw [List.length_append]
    exact Nat.le_add_right _ _
  | invalid | delivered | retry | bury => exact finish_kept ..
  | redeliver eventId now =>
    refine Kept.map fun r => ?_
    split_ifs
    · exact ⟨rfl, rfl⟩
    · exact ⟨rfl, rfl⟩
  | _ => exact Kept.refl _

/-- A row that is delivered stays as it is. -/
theorem Step.delivered_kept {s s' : System κ δ} {r : Row} (h : Step env maxAttempts backend s s')
    (hr : r ∈ s.rows) (hstate : r.state = .delivered) : r ∈ s'.rows := by
  have hfinish : ∀ eventId state attempts nextAttemptAt error,
      r ∈ finish s.rows eventId state attempts nextAttemptAt error := by
    intro eventId state attempts nextAttemptAt error
    exact List.mem_map.2 ⟨r, hr, if_neg (by simp [hstate])⟩
  cases h with
  | enqueue last pendingLimit events =>
    obtain ⟨new, hrows, -, -⟩ := (enqueueAfter_added env last pendingLimit s.rows events).inserted
    show r ∈ (enqueueAfter env last pendingLimit s.rows events).rows
    rw [hrows]
    exact List.mem_append_left _ hr
  | invalid | delivered | retry | bury => exact hfinish ..
  | redeliver eventId now => exact List.mem_map.2 ⟨r, hr, if_neg (by simp [hstate])⟩
  | _ => exact hr

/-- A row is delivered by a dispatcher that comes from the sink. -/
theorem Step.delivered_cases {s s' : System κ δ} {r : Row} (h : Step env maxAttempts backend s s')
    (hinv : DeliveryInv env maxAttempts s) (hr : r ∈ s'.rows) (hstate : r.state = .delivered) :
    r ∈ s.rows ∨ ∃ d row, s.phases d = .emitted row false ∧ env.decode r = env.decode row := by
  have hfinish : ∀ d row, (s.phases d).row? = some row → ∀ state attempts nextAttemptAt error,
      r ∈ finish s.rows row.eventId state attempts nextAttemptAt error →
      r ∈ s.rows ∨ r = { row with state, attempts, nextAttemptAt, lastErrorCode := error } := by
    intro d row hrow state attempts nextAttemptAt error hmem
    obtain ⟨hheld, hpending⟩ := hinv.held d row hrow
    exact (mem_finish hinv.ids hheld hpending hmem).imp_left And.left
  cases h with
  | enqueue last pendingLimit events =>
    obtain ⟨new, hrows, -, hnew⟩ := (enqueueAfter_added env last pendingLimit s.rows events).inserted
    have hmem : r ∈ (enqueueAfter env last pendingLimit s.rows events).rows := hr
    rw [hrows] at hmem
    obtain hmem | hmem := List.mem_append.1 hmem
    · exact .inl hmem
    · obtain ⟨⟨e, -, n, rfl⟩, -⟩ := hnew r hmem
      cases hstate
  | @invalid d now row hclaimed hdecode =>
    obtain hmem | rfl := hfinish d row (by rw [hclaimed]; rfl) .dead (row.attempts +
      1) now (some .invalidEvent) hr
    · exact .inl hmem
    · cases hstate
  | @delivered d now row hphase =>
    obtain hmem | rfl := hfinish d row (by rw [hphase]; rfl) .delivered (row.attempts + 1) now none hr
    · exact .inl hmem
    · exact .inr ⟨d, row, hphase, rfl⟩
  | @retry d retryAt row hphase =>
    obtain hmem | rfl :=
      hfinish d row (by rw [hphase]; rfl) .pending (row.attempts + 1) retryAt (some .sinkUnavailable) hr
    · exact .inl hmem
    · cases hstate
  | @bury d now row hphase =>
    obtain hmem | rfl := hfinish d row (by rw [hphase]; rfl) .dead (row.attempts +
      1) now (some .sinkUnavailable) hr
    · exact .inl hmem
    · cases hstate
  | redeliver eventId now =>
    obtain ⟨hmem, -⟩ | ⟨old, -, -, -, rfl⟩ := mem_redeliver hr
    · exact .inl hmem
    · cases hstate
  | _ => exact .inl hr

/-! ## The invariant

The sink has what it has accepted in this process, once each, and not more than its capacity. A row
that is delivered in the table was accepted here, or by an earlier process. -/

/-- The sink of a process that has started with the rows `start`. -/
structure SinkInv (env : Envelopes δ) (maxAttempts capacity : ℕ) (start : List Row) (p : Process κ δ) :
    Prop where
  outbox : DeliveryInv env maxAttempts p.outbox
  ids : (p.sink.events.map (·.eventId)).Nodup
  bounded : p.sink.events.length ≤ capacity
  /-- the sink holds nothing but events of rows, -/
  events : ∀ e ∈ p.sink.events, ∃ r ∈ p.outbox.rows, env.decode r = some e
  /-- those that it has accepted, -/
  emitted : ∀ d row, p.outbox.phases d = .emitted row false →
    ∃ e ∈ p.sink.events, env.decode row = some e
  /-- those that are written down, -/
  delivered : ∀ r ∈ p.outbox.rows, r.state = .delivered →
    r ∈ start ∨ ∃ e ∈ p.sink.events, env.decode r = some e
  /-- and none that were written down before. -/
  before : ∀ r ∈ start, r.state = .delivered →
    r ∈ p.outbox.rows ∧ ∀ e ∈ p.sink.events, e.eventId ≠ r.eventId
  dropped : p.sink.dropped = 0 ∨ capacity < p.outbox.rows.length

namespace SinkInv

variable {start : List Row}

omit [DecidableEq κ] in
theorem init {s : System κ δ} (hinv : DeliveryInv env maxAttempts s) (hidle : ∀ d, s.phases d = .idle) :
    SinkInv env maxAttempts capacity s.rows { outbox := s } where
  outbox := hinv
  ids := List.nodup_nil
  bounded := Nat.zero_le _
  events := by simp
  emitted := by simp [hidle]
  delivered r hr _ := .inl hr
  before r hr _ := ⟨hr, by simp⟩
  dropped := .inl rfl

variable (h : SinkInv env maxAttempts capacity start p)

include h

omit [DecidableEq κ] in
/-- The events of the sink are those of different rows. -/
theorem length_lt {row : Row} {e : Event String δ} (hrow : row ∈ p.outbox.rows)
    (hdecode : env.decode row = some e) (hnew : ∀ e' ∈ p.sink.events, e'.eventId ≠ e.eventId) :
    p.sink.events.length < p.outbox.rows.length := by
  have hnodup : (e.eventId :: p.sink.events.map (·.eventId)).Nodup := by
    refine List.nodup_cons.2 ⟨?_, h.ids⟩
    intro hmem
    obtain ⟨e', he', hid⟩ := List.mem_map.1 hmem
    exact hnew e' he' hid
  have hsub : e.eventId :: p.sink.events.map (·.eventId) ⊆ p.outbox.rows.map (·.eventId) := by
    intro id hid
    obtain rfl | hid := List.mem_cons.1 hid
    · exact List.mem_map.2 ⟨row, hrow, (decode_eventId hdecode).symm⟩
    · obtain ⟨e', he', rfl⟩ := List.mem_map.1 hid
      obtain ⟨r, hr, hr'⟩ := h.events e' he'
      exact List.mem_map.2 ⟨r, hr, (decode_eventId hr').symm⟩
  have hle := (hnodup.subperm hsub).length_le
  simpa [Nat.succ_le_iff] using hle

omit [DecidableEq κ] in
/-- An event of the sink with the id of a row is that of the row. -/
theorem eq_of_eventId {row : Row} {e e' : Event String δ} (hrow : row ∈ p.outbox.rows)
    (hdecode : env.decode row = some e) (he' : e' ∈ p.sink.events) (hid : e'.eventId = e.eventId) :
    e' = e := by
  obtain ⟨r, hr, hr'⟩ := h.events e' he'
  have hsame : r = row := by
    apply Dispatch.eq_of_eventId h.outbox.ids hr hrow
    rw [← decode_eventId hr', hid, decode_eventId hdecode]
  rw [hsame, hdecode] at hr'
  exact (Option.some.inj hr').symm

/-- Behind an emission, the sink holds the event where it has accepted it. -/
theorem emitted_goto {events : List (Event String δ)} (hsub : p.sink.events ⊆ events) {d : κ} {row : Row}
    {raised : Bool} (hheard : raised = false → ∃ e ∈ events, env.decode row = some e) :
    ∀ d' row', (p.outbox.goto d (.emitted row raised)).phases d' = .emitted row' false →
      ∃ e ∈ events, env.decode row' = some e := by
  intro d' row' hphase
  by_cases hd : d' = d
  · subst hd
    rw [System.goto_self] at hphase
    cases hphase
    exact hheard rfl
  · rw [System.goto_of_ne _ hd] at hphase
    obtain ⟨e, he, hdecode⟩ := h.emitted d' row' hphase
    exact ⟨e, hsub he, hdecode⟩

/-- **Step lemma**, of an emission. -/
theorem emit (hone : backend = .sqlite → Subsingleton κ) {d : κ} {row : Row} {e : Event String δ}
    (hclaimed : p.outbox.phases d = .claimed row) (hdecode : env.decode row = some e) :
    SinkInv env maxAttempts capacity start (p.emit capacity d row e) := by
  have hstep : Process.Step env maxAttempts backend capacity p (p.emit capacity d row e) :=
    .emit d hclaimed hdecode
  have houtbox : DeliveryInv env maxAttempts (p.emit capacity d row e).outbox :=
    hstep.refines.keeps hone h.outbox
  obtain ⟨hrow, hpending⟩ := h.outbox.held d row (by rw [hclaimed]; rfl)
  obtain ⟨⟨e', he', hid⟩, hanswer⟩ | ⟨hnew, ⟨hfull, hanswer⟩ | ⟨hroom, hanswer⟩⟩ :=
    p.sink.emit_cases capacity e
  · -- The event has come before.
    obtain rfl := h.eq_of_eventId hrow hdecode he' hid
    simp only [Process.emit, hanswer, if_true] at houtbox ⊢
    exact { h with
      outbox := houtbox
      emitted := h.emitted_goto (List.Subset.refl _) fun _ => ⟨e', he', hdecode⟩ }
  · -- It is refused: the rows are more than the sink has room for.
    simp only [Process.emit, hanswer] at houtbox ⊢
    exact { h with
      outbox := houtbox
      emitted := h.emitted_goto (List.Subset.refl _) nofun
      dropped := .inr (lt_of_le_of_lt hfull (h.length_lt hrow hdecode hnew)) }
  · simp only [Process.emit, hanswer, if_true] at houtbox ⊢
    refine
      { outbox := houtbox
        ids := ?_
        bounded := ?_
        events := ?_
        emitted := h.emitted_goto (List.subset_append_left _ _) fun _ =>
          ⟨e, List.mem_append_right _ (List.mem_singleton_self e), hdecode⟩
        delivered := fun r hr hstate => (h.delivered r hr hstate).imp_right fun ⟨e', he', hdecode'⟩ =>
          ⟨e', List.mem_append_left _ he', hdecode'⟩
        before := ?_
        dropped := h.dropped }
    · rw [List.map_append, List.map_singleton]
      refine List.Nodup.append h.ids (List.nodup_singleton _) (List.disjoint_singleton.2 ?_)
      intro hmem
      obtain ⟨e', he', hid⟩ := List.mem_map.1 hmem
      exact hnew e' he' hid
    · rw [List.length_append]
      exact hroom
    · intro e' he'
      obtain he' | he' := List.mem_append.1 he'
      · exact h.events e' he'
      · exact ⟨row, hrow, List.mem_singleton.1 he' ▸ hdecode⟩
    · intro r hr hstate
      refine ⟨(h.before r hr hstate).1, fun e' he' => ?_⟩
      obtain he' | he' := List.mem_append.1 he'
      · exact (h.before r hr hstate).2 e' he'
      · -- A dispatcher holds a pending row.
        rw [List.mem_singleton.1 he', decode_eventId hdecode]
        intro hid
        have hsame := Dispatch.eq_of_eventId h.outbox.ids hrow (h.before r hr hstate).1 hid
        rw [hsame, hstate] at hpending
        cases hpending

/-- **Step lemma**, of any other step. -/
theorem other (hone : backend = .sqlite → Subsingleton κ) {outbox : System κ δ}
    (hstep : Step env maxAttempts backend p.outbox outbox)
    (hquiet : ∀ d row raised, outbox.phases d = .emitted row raised →
      p.outbox.phases d = .emitted row raised) :
    SinkInv env maxAttempts capacity start { p with outbox } where
  outbox := hstep.keeps hone h.outbox
  ids := h.ids
  bounded := h.bounded
  events e he := by
    obtain ⟨r, hr, hdecode⟩ := h.events e he
    obtain ⟨r', hr', -, hkept⟩ := hstep.kept.row r hr
    exact ⟨r', hr', hkept.trans hdecode⟩
  emitted d row hphase := h.emitted d row (hquiet d row false hphase)
  delivered r hr hstate := by
    obtain hr | ⟨d, row, hphase, hsame⟩ := hstep.delivered_cases h.outbox hr hstate
    · exact h.delivered r hr hstate
    · obtain ⟨e, he, hdecode⟩ := h.emitted d row hphase
      exact .inr ⟨e, he, hsame.trans hdecode⟩
  before r hr hstate :=
    ⟨hstep.delivered_kept (h.before r hr hstate).1 hstate, (h.before r hr hstate).2⟩
  dropped := h.dropped.imp_right fun hlt => lt_of_lt_of_le hlt hstep.kept.length_le

/-- **Run lemma.** -/
theorem run (hone : backend = .sqlite → Subsingleton κ)
    (hrun : Relation.ReflTransGen (Process.Step env maxAttempts backend capacity) p p') :
    SinkInv env maxAttempts capacity start p' := by
  refine Runs.reflTransGen_of_invariant (fun p q hinv hstep => ?_) h hrun
  cases hstep with
  | emit d claimed decoded => exact hinv.emit hone claimed decoded
  | other step quiet => exact hinv.other hone step quiet

end SinkInv

/-- **Delivered once.** A process starts its dispatchers over the table of any earlier run, with a new sink.
In whatever order they emit, stop and start again, are raced by transactions and by redeliveries: the sink
never holds an event twice or more than it has room for, and nothing but events of rows; a row that is
delivered has its event there, unless it was delivered before the process started, and then it has not;
and no event is refused while the rows are not more than the sink has room for. -/
theorem delivered_once (hone : backend = .sqlite → Subsingleton κ) {s : System κ δ}
    (hs : Reachable env maxAttempts backend s) (hidle : ∀ d, s.phases d = .idle)
    (hrun : Relation.ReflTransGen (Process.Step env maxAttempts backend capacity) { outbox := s } p) :
    (p.sink.events.map (·.eventId)).Nodup ∧ p.sink.events.length ≤ capacity ∧
      (∀ e ∈ p.sink.events, ∃ r ∈ p.outbox.rows, env.decode r = some e) ∧
      (∀ r ∈ p.outbox.rows, r.state = .delivered →
        (r ∉ s.rows ↔ ∃ e ∈ p.sink.events, env.decode r = some e)) ∧
      (p.outbox.rows.length ≤ capacity → p.sink.dropped = 0) := by
  have hstart : SinkInv env maxAttempts capacity s.rows { outbox := s } := .init (hs.deliveryInv hone) hidle
  have hinv := hstart.run hone hrun
  refine ⟨hinv.ids, hinv.bounded, hinv.events, fun r hr hstate => ⟨fun hnew => ?_, ?_⟩, fun hroom => ?_⟩
  · exact (hinv.delivered r hr hstate).resolve_left hnew
  · rintro ⟨e, he, hdecode⟩ hold
    exact (hinv.before r hold hstate).2 e he (decode_eventId hdecode)
  · exact hinv.dropped.resolve_right (not_lt.2 hroom)

/-! An event that is emitted a second time, since the dispatcher stopped behind the first. -/

namespace Samples

/-- The process, in whose sink the event is or is not. -/
def process (row : Row) (phase : Phase) (log : List (Happening Unit)) (events : List (Event String Unit)) :
    Process Unit Unit :=
  { outbox := system row phase log, sink := { events } }

/-- The history, the event accepted so many times. -/
def accepted (n : ℕ) : List (Happening Unit) :=
  List.replicate n (.accepted completed) ++ [.enqueued [completed]]

/-- The dispatcher after the event is delivered. -/
def finished : Process Unit Unit := process (row 1 .delivered 5 none) .idle (accepted 2) [completed]

theorem run_finished : Relation.ReflTransGen (Process.Step envelopes 2 .sqlite 1)
    { outbox := {} } finished := by
  have h₁ : Process.Step envelopes 2 .sqlite 1 { outbox := {} } (process fresh .idle (accepted 0) []) :=
    .other (.enqueue 0 10 [completed] (Nat.le_refl _) (fun _ => rfl)) (fun _ _ _ h => by cases h)
  have h₂ : Process.Step envelopes 2 .sqlite 1 (process fresh .idle (accepted 0) [])
      (process fresh (.claimed fresh) (accepted 0) []) :=
    .other (.claim () 0 rfl rfl rfl) (fun _ _ _ h => by cases h)
  have h₃ : Process.Step envelopes 2 .sqlite 1 (process fresh (.claimed fresh) (accepted 0) [])
      (process fresh (.emitted fresh false) (accepted 1) [completed]) :=
    @Process.Step.emit _ _ _ envelopes 2 .sqlite 1 _ () fresh completed rfl rfl
  have h₄ : Process.Step envelopes 2 .sqlite 1
      (process fresh (.emitted fresh false) (accepted 1) [completed])
      (process fresh .idle (accepted 1) [completed]) := .other (.stop ()) (fun _ _ _ h => by cases h)
  have h₅ : Process.Step envelopes 2 .sqlite 1 (process fresh .idle (accepted 1) [completed])
      (process fresh (.claimed fresh) (accepted 1) [completed]) :=
    .other (.claim () 4 rfl rfl rfl) (fun _ _ _ h => by cases h)
  have h₆ : Process.Step envelopes 2 .sqlite 1 (process fresh (.claimed fresh) (accepted 1) [completed])
      (process fresh (.emitted fresh false) (accepted 2) [completed]) :=
    @Process.Step.emit _ _ _ envelopes 2 .sqlite 1 _ () fresh completed rfl rfl
  have h₇ : Process.Step envelopes 2 .sqlite 1
      (process fresh (.emitted fresh false) (accepted 2) [completed]) finished :=
    .other (@Step.delivered _ _ _ _ _ _ _ () 5 fresh rfl) (fun _ _ _ h => by cases h)
  exact ((((((Relation.ReflTransGen.single h₁).tail h₂).tail h₃).tail h₄).tail h₅).tail h₆).tail h₇

end Samples

open Samples in
theorem twice_emitted_once_held : (finished.sink.events.map (·.eventId)).Nodup ∧
    ∃ e ∈ finished.sink.events, envelopes.decode (row 1 .delivered 5 none) = some e := by
  obtain ⟨hnodup, -, -, hdelivered, -⟩ :=
    delivered_once (fun _ => inferInstance) Relation.ReflTransGen.refl (fun _ => rfl) run_finished
  refine ⟨hnodup, (hdelivered _ (List.mem_singleton_self _) rfl).1 ?_⟩
  exact List.not_mem_nil

end Dispatch

end AdaptiveLlm
