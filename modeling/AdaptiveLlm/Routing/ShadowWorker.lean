import AdaptiveLlm.Lib.Runs
import AdaptiveLlm.Routing.ShadowProcess
import Mathlib.Algebra.Order.Field.Basic
import Mathlib.Tactic.Linarith

set_option autoImplicit false

/-! # The shadow worker

`ShadowWorker` (`routing/shadow.py`): requests hand their work to `submit`, which counts an opportunity,
consults the controls and puts it into a bounded queue; `run` takes one work at a time and has a thread
process it. Coroutines change places only where they await, the thread goes on at any time, and either
coroutine may be cancelled where it awaits.

The program counts opportunities, drops, failures and completions. Some opportunities end without any of
its counters: the save may store nothing, a coroutine may be cancelled, and the thread may raise what
`except Exception` does not catch. So the steps are labelled, a run is the list of its labels, and the
accounts are settled against the log of what the thread did and the labels of the run.

The invariant counts each work once: it is in the queue, in the worker's or the thread's hands, or
in the log with what became of it. The labels of a run tell which submissions counted an opportunity
and which ended without a counter, so the account can be drawn up for any run: opportunities on one
side, drops, failures, completions and the named exceptions on the other. -/

namespace AdaptiveLlm

namespace Shadow

/-! ## The worker and its queue -/

/-- Where a `submit` awaits: for the snapshot, or for `observe` after its opportunity was counted. -/
inductive SubmitPhase where
  | reading
  | observing (snapshot : ShadowSnapshot) (policy : LivePolicy)

/-- The submission has been counted as an opportunity. -/
def SubmitPhase.counted : SubmitPhase → Bool
  | .reading => false
  | .observing _ _ => true

theorem SubmitPhase.counted_reading : counted .reading = false := rfl

theorem SubmitPhase.counted_observing (snapshot : ShadowSnapshot) (policy : LivePolicy) :
    counted (.observing snapshot policy) = true := rfl

/-- A `submit` that is under way. -/
structure Submit where
  work : ShadowWork
  phase : SubmitPhase := .reading

/-- Where `run` stands. -/
inductive WorkerPhase where
  /-- at the test of the loop -/
  | testing
  /-- awaits the queue -/
  | waiting
  | processing (work : ShadowWork)
  /-- the thread is done, the coroutine has not gone on -/
  | returned (ended : ShadowEnd)
  /-- the coroutine was cancelled, its thread goes on -/
  | detached (work : ShadowWork)
  /-- the coroutine ended with an exception that `run` does not catch -/
  | dead
  /-- the coroutine emptied the queue and returned -/
  | ended
  deriving DecidableEq

/-- The queue, the counters, and where each coroutine stands. -/
structure System where
  capacity : ℕ
  opportunities : ℕ := 0
  failures : ℕ := 0
  completed : ℕ := 0
  /-- the drops so far; the counter of a reason is how often it is among them -/
  drops : List DropReason := []
  queue : List ShadowWork := []
  depth : ℕ := 0
  coverage : ℚ := 0
  stopping : Bool := false
  submits : List Submit := []
  worker : WorkerPhase := .testing
  /-- what a coroutine has read of the opportunities to compute the coverage -/
  gauging : Option ℕ := none
  /-- the works that were processed, with what they met -/
  log : List (ShadowWork × ShadowTurn) := []

/-- How many of the processed works ended so. -/
def endings (timeoutSeconds : ℚ) (log : List (ShadowWork × ShadowTurn)) (ended : ShadowEnd) : ℕ :=
  log.countP fun entry => decide ((process timeoutSeconds entry.1 entry.2).ended = ended)

namespace System

/-- The `finally` clauses start with a read of the opportunities. -/
def closing (s : System) : System := { s with gauging := some s.opportunities }

/-- What `_process` counts at its end. -/
def count (s : System) : ShadowEnd → System
  | .dropped reason => { s with drops := s.drops ++ [reason] }
  | .completed => { s with completed := s.completed + 1 }
  | .refused | .raised => s

end System

/-- The checks before an opportunity is counted; the policy that passes them. -/
def opportunity (work : ShadowWork) (snapshot : ShadowSnapshot) : Option LivePolicy :=
  match snapshot.policy with
  | none => none
  | some p =>
    if some p.policyId = work.policyId && snapshot.shadowEnabled && p.eligibleSpecialistVersions ≠ [] &&
        (p.tenantEnabled.lookup work.tenantId).getD false && (p.taskEnabled.lookup
          work.task).getD false then
      some p
    else none

/-- `submit` after `observe`. -/
def System.enqueue (s : System) (work : ShadowWork) (snapshot : ShadowSnapshot) (policy : LivePolicy)
    (available : String → Bool) : System :=
  if s.stopping || !snapshot.enabled work.tenantId work.task then
    { s with drops := s.drops ++ [.disabled] }
  else if !policy.eligibleSpecialistVersions.any available then
    { s with drops := s.drops ++ [.circuitOpen] }
  else if s.queue.length < s.capacity then
    { s with
      queue := s.queue ++ [{ work with policyId := some policy.policyId }]
      depth := s.queue.length + 1 }
  else { s with drops := s.drops ++ [.queueFull], depth := s.queue.length }

/-- What a run tells of a step beyond the states: the mishaps, by what becomes of the opportunity. -/
inductive Event where
  | ordinary
  /-- a submission failed before its opportunity was counted -/
  | unread
  /-- a submission was cancelled after its opportunity was counted -/
  | cancelSubmit
  /-- the worker was cancelled while its thread went on -/
  | cancelProcess
  /-- the thread of a cancelled worker ended -/
  | finishDetached (ended : ShadowEnd)
  /-- the worker ended with what the thread raised, which is no `Exception` -/
  | escape
  deriving DecidableEq

/-- The mishaps with which an opportunity is cut off: its submission is cancelled, the thread of a
    cancelled worker raises, or an exception ends the worker. -/
def Event.cutOff : Event → Bool
  | .cancelSubmit | .finishDetached .raised | .escape => true
  | _ => false

section Step

variable (timeoutSeconds : ℚ)

/-- One step of a submitting request, of the worker's thread, or of its owner. -/
inductive Step : Event → System → System → Prop
  | submit {s : System} (work : ShadowWork) (free : s.gauging = none) :
      Step .ordinary s { s with submits := s.submits ++ [{ work }] }
  /-- the snapshot cannot be read -/
  | unread {s : System} {before after : List Submit} {work : ShadowWork} (free : s.gauging = none)
      (reading : s.submits = before ++ ⟨work, .reading⟩ :: after) :
      Step .unread s { s with submits := before ++ after, failures := s.failures + 1 }.closing
  /-- no opportunity, or a cancellation -/
  | passOver {s : System} {before after : List Submit} {work : ShadowWork} (free : s.gauging = none)
      (reading : s.submits = before ++ ⟨work, .reading⟩ :: after) :
      Step .ordinary s { s with submits := before ++ after }.closing
  | observe {s : System} {before after : List Submit} {work : ShadowWork} {snapshot : ShadowSnapshot}
      {policy : LivePolicy} (free : s.gauging = none)
      (reading : s.submits = before ++ ⟨work, .reading⟩ :: after)
      (counted : opportunity work snapshot = some policy) :
      Step .ordinary s { s with
        submits := before ++ ⟨work, .observing snapshot policy⟩ :: after
        opportunities := s.opportunities + 1 }
  | unobserved {s : System} {before after : List Submit} {work : ShadowWork} {snapshot : ShadowSnapshot}
      {policy : LivePolicy} (free : s.gauging = none)
      (observing : s.submits = before ++ ⟨work, .observing snapshot policy⟩ :: after) :
      Step .ordinary s { s with submits := before ++ after, failures := s.failures + 1 }.closing
  | cancelSubmit {s : System} {before after : List Submit} {work : ShadowWork} {snapshot : ShadowSnapshot}
      {policy : LivePolicy} (free : s.gauging = none)
      (observing : s.submits = before ++ ⟨work, .observing snapshot policy⟩ :: after) :
      Step .cancelSubmit s { s with submits := before ++ after }.closing
  | enqueue {s : System} {before after : List Submit} {work : ShadowWork} {snapshot : ShadowSnapshot}
      {policy : LivePolicy} (available : String → Bool) (free : s.gauging = none)
      (observing : s.submits = before ++ ⟨work, .observing snapshot policy⟩ :: after) :
      Step .ordinary s ({ s with submits := before ++ after }.enqueue work snapshot
        policy available).closing
  /-- the second read of a `finally` clause, and its gauge -/
  | gauge {s : System} {n : ℕ} (gauging : s.gauging = some n) :
      Step .ordinary s { s with gauging := none, coverage := if n = 0 then 0 else s.completed / n }
  | wait {s : System} (free : s.gauging = none) (testing : s.worker = .testing)
      (running : s.stopping = false) : Step .ordinary s { s with worker := .waiting }
  | timeout {s : System} (free : s.gauging = none) (waiting : s.worker = .waiting) :
      Step .ordinary s { s with worker := .testing }
  | take {s : System} {work : ShadowWork} {rest : List ShadowWork} (free : s.gauging = none)
      (waiting : s.worker = .waiting) (first : s.queue = work :: rest) :
      Step .ordinary s { s with queue := rest, depth := rest.length, worker := .processing work }
  /-- the thread returns or raises -/
  | finish {s : System} {work : ShadowWork} (turn : ShadowTurn) (processing : s.worker = .processing work) :
      Step .ordinary s { s.count (process timeoutSeconds work turn).ended with
        worker := .returned (process timeoutSeconds work turn).ended
        log := s.log ++ [(work, turn)] }
  | settle {s : System} {ended : ShadowEnd} (free : s.gauging = none)
      (returned : s.worker = .returned ended) :
      Step .ordinary s { s with
        worker := .testing
        failures := if ended = ShadowEnd.raised then s.failures + 1 else s.failures }.closing
  /-- what the thread raised is no `Exception` -/
  | escape {s : System} (free : s.gauging = none) (returned : s.worker = .returned .raised) :
      Step .escape s { s with worker := .dead }.closing
  | cancelWait {s : System} (free : s.gauging = none) (waiting : s.worker = .waiting) :
      Step .ordinary s { s with worker := .dead }
  | cancelProcess {s : System} {work : ShadowWork} (free : s.gauging = none)
      (processing : s.worker = .processing work) :
      Step .cancelProcess s { s with worker := .detached work }.closing
  | finishDetached {s : System} {work : ShadowWork} (turn : ShadowTurn)
      (detached : s.worker = .detached work) :
      Step (.finishDetached (process timeoutSeconds work turn).ended) s
        { s.count (process timeoutSeconds work turn).ended with
          worker := .dead
          log := s.log ++ [(work, turn)] }
  | drain {s : System} (free : s.gauging = none) (testing : s.worker = .testing)
      (stopping : s.stopping = true) :
      Step .ordinary s { s with
        drops := s.drops ++ s.queue.map fun _ => .shutdown
        queue := []
        depth := 0
        worker := .ended }
  | stop {s : System} (free : s.gauging = none) : Step .ordinary s { s with stopping := true }

/-- The runs of a worker that has just been made, with the labels of their steps. -/
inductive Run : List Event → System → Prop
  | start (capacity : ℕ) : Run [] { capacity }
  | step {events : List Event} {event : Event} {s s' : System} (run : Run events s)
      (step : Step timeoutSeconds event s s') : Run (events ++ [event]) s'

end Step

/-! ## Accounts

The accounts relate three counts: the works that were queued, the works that the thread has ended,
and those still on the way. The labels of the run supply the opportunities that never became a
work. -/

/-- The opportunities that the worker has taken and not accounted for. -/
def WorkerPhase.pending : WorkerPhase → ℕ
  | .processing _ | .detached _ | .returned .raised => 1
  | _ => 0

/-- The accounts after the events: every opportunity, and every failure before one, is a drop, a failure, a
    completion, a refused save, cut off, or still under way. -/
structure Accounts (timeoutSeconds : ℚ) (events : List Event) (s : System) : Prop where
  balance : s.opportunities + events.count .unread = s.drops.length + s.failures + s.completed +
    endings timeoutSeconds s.log .refused + events.countP Event.cutOff +
    (s.queue.length + s.worker.pending + s.submits.countP (·.phase.counted))
  early_le : events.count .unread ≤ s.failures
  queue_le : s.queue.length ≤ s.capacity
  depth_le : s.depth ≤ s.capacity
  gauging : ∀ n ∈ s.gauging, n = s.opportunities
  coverage : 0 ≤ s.coverage ∧ s.coverage ≤ 1
  emptied : s.worker = .ended → s.stopping = true ∧ s.queue = []
  logged : s.completed = endings timeoutSeconds s.log .completed

namespace Accounts

variable {timeoutSeconds : ℚ} {events : List Event} {s : System}

theorem endings_append (log : List (ShadowWork × ShadowTurn)) (work : ShadowWork) (turn : ShadowTurn)
    (ended : ShadowEnd) : endings timeoutSeconds (log ++ [(work, turn)]) ended =
      endings timeoutSeconds log ended + if (process timeoutSeconds work turn).ended =
          ended then 1 else 0 := by
  simp [endings, List.countP_append, List.countP_singleton]

theorem initial (capacity : ℕ) : Accounts timeoutSeconds [] { capacity } := by
  constructor <;> simp [WorkerPhase.pending, endings]

theorem completed_le (h : Accounts timeoutSeconds events s) :
    s.drops.length + s.completed ≤ s.opportunities := by
  have := h.balance
  have := h.early_le
  omega

theorem closing (h : Accounts timeoutSeconds events s) : Accounts timeoutSeconds events s.closing :=
  { h with gauging := by simp [System.closing] }

theorem count_unread_append (event : Event) :
    (events ++ [event]).count .unread = events.count .unread + if event = .unread then 1 else 0 := by
  rw [List.count_append, List.count_singleton]
  simp only [beq_iff_eq]

theorem countP_cutOff_append (event : Event) : (events ++ [event]).countP Event.cutOff =
    events.countP Event.cutOff + if event.cutOff then 1 else 0 := by
  rw [List.countP_append, List.countP_singleton]

/-- A step that is no mishap leaves the accounts of the events as they are. -/
theorem after (event : Event) (hunread : event ≠ .unread) (hcut : event.cutOff = false)
    (h : Accounts timeoutSeconds events s) : Accounts timeoutSeconds (events ++ [event]) s :=
  { h with
    balance := by simpa [count_unread_append, countP_cutOff_append, hunread, hcut] using h.balance
    early_le := by simpa [count_unread_append, hunread] using h.early_le }

theorem ordinary (h : Accounts timeoutSeconds events s) :
    Accounts timeoutSeconds (events ++ [.ordinary]) s := after .ordinary (by decide) rfl h

/-- The balance without a submission whose opportunity was counted. -/
theorem balance_of_submits (h : Accounts timeoutSeconds events s) {before after : List Submit}
    {submit : Submit} (hsubmits : s.submits = before ++ submit :: after) :
    s.opportunities + events.count .unread = s.drops.length + s.failures + s.completed +
      endings timeoutSeconds s.log .refused + events.countP Event.cutOff + (s.queue.length +
        s.worker.pending + (before ++ after).countP (·.phase.counted)) + submit.phase.counted.toNat := by
  have hbalance := h.balance
  rw [hsubmits, List.countP_append, List.countP_cons] at hbalance
  rw [List.countP_append]
  cases hcounted : submit.phase.counted <;> simp [hcounted] at hbalance ⊢ <;> omega

/-- A submission is settled: with one more drop, place in the queue, failure or loss where its opportunity
    was counted, and without where it was not. -/
theorem enqueue (h : Accounts timeoutSeconds events s) {before after : List Submit} {work : ShadowWork}
    {snapshot : ShadowSnapshot} {policy : LivePolicy} (available : String → Bool)
    (hsubmits : s.submits = before ++ ⟨work, .observing snapshot policy⟩ :: after) :
    Accounts timeoutSeconds events
      ({ s with submits := before ++ after }.enqueue work snapshot policy available) := by
  have hbalance := h.balance_of_submits hsubmits
  have hqueue := h.queue_le
  simp only [SubmitPhase.counted_observing, Bool.toNat_true] at hbalance
  unfold System.enqueue
  split_ifs with hdisabled havailable hroom
  · exact { h with balance := by simp only [List.length_append, List.length_singleton]; omega }
  · exact { h with balance := by simp only [List.length_append, List.length_singleton]; omega }
  · refine { h with
      balance := by simp only [List.length_append, List.length_singleton]; omega
      queue_le := by simpa using Nat.succ_le_of_lt hroom
      depth_le := hroom
      emptied := fun hended => ?_ }
    -- nothing is put into the queue once the worker stops
    have hstopping : s.stopping = false := by
      simp only [Bool.or_eq_true, not_or, Bool.not_eq_true] at hdisabled
      exact hdisabled.1
    exact absurd (h.emptied hended).1 (by simp [hstopping])
  · exact { h with
      balance := by simp only [List.length_append, List.length_singleton]; omega
      depth_le := hqueue }

/-- The thread ends: what it counted, a refused save and what is cut off add up to the one work. -/
theorem count (h : Accounts timeoutSeconds events s) {work : ShadowWork} (turn : ShadowTurn)
    (hpending : s.worker.pending = 1) {ended : ShadowEnd}
    (hended : (process timeoutSeconds work turn).ended = ended) (worker : WorkerPhase)
    (hworker : worker ≠ .ended) {event : Event} (hunread : event ≠ .unread)
    (hcut : worker.pending + event.cutOff.toNat = if ended = .raised then 1 else 0) :
    Accounts timeoutSeconds (events ++ [event])
      { s.count ended with worker, log := s.log ++ [(work, turn)] } := by
  have hbalance := h.balance
  have hlogged := h.logged
  have hcount : (events ++ [event]).count .unread = events.count .unread := by
    simp [hunread]
  have hcutOff : (events ++ [event]).countP Event.cutOff = _ := countP_cutOff_append event
  cases ended <;> exact
    { h with
      balance := by
        cases hevent : event.cutOff <;>
          simp [System.count, endings_append, hended, hcount, hcutOff, hevent] at hcut ⊢ <;> omega
      early_le := hcount.trans_le h.early_le
      emptied := fun hend => absurd hend hworker
      logged := by simp [System.count, endings_append, hended, hlogged] }

theorem step (h : Accounts timeoutSeconds events s) {event : Event} {s' : System}
    (hstep : Step timeoutSeconds event s s') : Accounts timeoutSeconds (events ++ [event]) s' := by
  have hbalance := h.balance
  cases hstep with
  | submit work free =>
    exact ordinary { h with balance := by simpa [SubmitPhase.counted] using hbalance }
  | @unread _ before after work free reading =>
    have hsubmits := h.balance_of_submits reading
    have hearly := h.early_le
    simp only [SubmitPhase.counted_reading, Bool.toNat_false] at hsubmits
    refine closing { h with balance := ?_, early_le := ?_ }
    · simp [Event.cutOff] at hsubmits ⊢
      omega
    · simpa using hearly
  | @passOver _ before after work free reading =>
    have hsubmits := h.balance_of_submits reading
    simp only [SubmitPhase.counted_reading, Bool.toNat_false] at hsubmits
    exact ordinary (closing { h with balance := hsubmits })
  | @observe _ before after work snapshot policy free reading counted =>
    have hsubmits := h.balance_of_submits reading
    simp only [SubmitPhase.counted_reading, Bool.toNat_false, List.countP_append] at hsubmits
    exact ordinary { h with
      balance := by
        simp only [List.countP_append, List.countP_cons, SubmitPhase.counted_observing,
          if_true] at hsubmits ⊢
        omega
      gauging := by simp [free] }
  | @unobserved _ before after work snapshot policy free observing =>
    have hsubmits := h.balance_of_submits observing
    simp only [SubmitPhase.counted_observing, Bool.toNat_true] at hsubmits
    refine ordinary (closing { h with balance := ?_, early_le := Nat.le_succ_of_le h.early_le })
    dsimp only
    omega
  | @cancelSubmit _ before after work snapshot policy free observing =>
    have hsubmits := h.balance_of_submits observing
    have hearly := h.early_le
    simp only [SubmitPhase.counted_observing, Bool.toNat_true] at hsubmits
    refine closing { h with balance := ?_, early_le := ?_ }
    · simp [Event.cutOff] at hsubmits ⊢
      omega
    · simpa using hearly
  | enqueue available free observing => exact ordinary (closing (h.enqueue available observing))
  | @gauge _ n gauging =>
    obtain rfl : n = s.opportunities := h.gauging n gauging
    have hle : (s.completed : ℚ) ≤ s.opportunities :=
      Nat.cast_le.2 (le_trans (Nat.le_add_left _ _) h.completed_le)
    refine ordinary { h with gauging := by simp, coverage := ?_ }
    split_ifs with hzero
    · exact ⟨le_refl _, zero_le_one⟩
    · exact ⟨by positivity, div_le_one_of_le₀ hle (by positivity)⟩
  | wait free testing running =>
    exact ordinary { h with
      balance := by simpa [WorkerPhase.pending, testing] using hbalance
      emptied := by simp }
  | timeout free waiting =>
    exact ordinary { h with
      balance := by simpa [WorkerPhase.pending, waiting] using hbalance
      emptied := by simp }
  | @take _ work rest free waiting first =>
    have hqueue := h.queue_le
    rw [first, List.length_cons] at hqueue
    simp only [first, waiting, WorkerPhase.pending, List.length_cons] at hbalance
    exact ordinary { h with
      balance := by simp only [WorkerPhase.pending]; omega
      queue_le := Nat.le_of_succ_le hqueue
      depth_le := Nat.le_of_succ_le hqueue
      emptied := by simp }
  | finish turn processing =>
    refine h.count turn (by rw [processing]; rfl) rfl (.returned _) (by simp) (by simp) ?_
    cases (process timeoutSeconds _ turn).ended <;> rfl
  | @settle _ ended free returned =>
    rw [returned] at hbalance
    refine ordinary (closing { h with balance := ?_, early_le := ?_, emptied := by simp })
    · cases ended <;> simp [WorkerPhase.pending] at hbalance ⊢ <;> omega
    · have := h.early_le
      dsimp only
      split_ifs <;> omega
  | escape free returned =>
    have hearly := h.early_le
    simp only [returned, WorkerPhase.pending] at hbalance
    refine closing { h with balance := ?_, early_le := ?_, emptied := by simp }
    · simp [WorkerPhase.pending, Event.cutOff]
      omega
    · simpa using hearly
  | cancelWait free waiting =>
    exact ordinary { h with
      balance := by simpa [WorkerPhase.pending, waiting] using hbalance
      emptied := by simp }
  | cancelProcess free processing =>
    refine after .cancelProcess (by decide) rfl (closing { h with balance := ?_, emptied := by simp })
    simpa [WorkerPhase.pending, processing] using hbalance
  | finishDetached turn detached =>
    refine h.count turn (by rw [detached]; rfl) rfl .dead (by simp) (by simp) ?_
    cases (process timeoutSeconds _ turn).ended <;> rfl
  | drain free testing stopping =>
    simp only [testing, WorkerPhase.pending] at hbalance
    exact ordinary { h with
      balance := by simp [WorkerPhase.pending]; omega
      queue_le := by simp
      depth_le := by simp
      emptied := fun _ => ⟨stopping, rfl⟩ }
  | stop free => exact ordinary { h with emptied := fun hended => ⟨rfl, (h.emptied hended).2⟩ }

theorem run (h : Run timeoutSeconds events s) : Accounts timeoutSeconds events s := by
  induction h with
  | start capacity => exact initial capacity
  | step _ hstep ih => exact ih.step hstep

end Accounts

/-- No submission and no work is under way. -/
def System.Quiet (s : System) : Prop := s.submits = [] ∧ s.queue = [] ∧ s.worker.pending = 0

namespace Samples

/-- A policy of one specialist. -/
def policy : LivePolicy where
  policyId := "shadow"
  eligibleSpecialistVersions := ["v1"]
  tenantEnabled := [("tenant", true)]
  taskEnabled := [("rag", true)]

/-- Shadows are on. -/
def snapshot : ShadowSnapshot := { policy := some policy, shadowEnabled := true }

/-- A request to be shadowed. -/
def work : ShadowWork where
  request := { inputTokens := 3, maxOutputTokens := 16 }
  interactionId := "interaction"
  applicationId := "application"
  tenantId := "tenant"
  task := "rag"
  residency := "eu"
  policyId := some "shadow"

/-- The specialist as a candidate. -/
def specialist : ExecutionCandidate where
  deployment := ⟨"v1", "local-specialist", "base", "1", "eu", ⟨"1", 0, 0⟩⟩
  specialist := true

/-- The provider fails, and the attempt is not stored. -/
def turn : ShadowTurn where
  snapshot := some snapshot
  decide := some { residency := "eu" }
  available _ := true
  load _ := some specialist
  latest _ := some snapshot
  acquire _ := true
  attempt _ := { generate := fun _ => .error .exception, validate := fun _ _ => .error .exception }
  decideAfter := some { residency := "eu" }
  saveShadow := some false
  compare := none

/-- The three submissions are over and the worker waits again. -/
def settled : System where
  capacity := 4
  opportunities := 2
  failures := 1
  worker := .waiting
  log := [(work, turn)]

/-- The labels of the run: the first submission is unread, the second is cancelled, the third is taken. -/
def events : List Event :=
  [.ordinary, .unread, .ordinary] ++ [.ordinary, .ordinary, .cancelSubmit, .ordinary] ++
    List.replicate 10 .ordinary

end Samples

end Shadow

end AdaptiveLlm
