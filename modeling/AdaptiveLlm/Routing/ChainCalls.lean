import AdaptiveLlm.Routing.Chain

set_option autoImplicit false

/-! # A chain's calls of the breakers

`run_chain` makes two calls of the breakers for a candidate it attempts, `acquire` before the attempt
and `record` after it, and one or none for a candidate it passes over. The calls of a run are collected
beside the run; `Paired` says that they are such pairs. `execute_attempt` catches what an attempt can
raise, so that no exit of the run comes between the two, and a probe is never left on.

`Paired` is a grammar of call lists: refusals, and pairs of an admission and a record of the same
deployment, nothing nested. A run's calls are in it by one lemma per round. Since the breakers are
shared, other requests' calls come between; a run leaves no probe behind because its own record
follows its own admission, whatever the others do in between. -/

namespace AdaptiveLlm

/-- A call of the breakers during a run, with what it answers, or what other requests do there. -/
inductive ChainCall where
  | others (change : CircuitBreakers → CircuitBreakers)
  | acquire (deployment : String) (now : ℚ) (admitted : Bool)
  | record (deployment : String) (now : ℚ) (error validationFailure : Bool) (latencyMs : ℚ)

namespace ChainCall

variable (th : BreakerThresholds)

/-- What a call does to the breakers. -/
def apply (b : CircuitBreakers) : ChainCall → CircuitBreakers
  | .others change => change b
  | .acquire deployment now _ => (b.acquire deployment th now).2
  | .record deployment now error validationFailure latencyMs =>
    b.record deployment th now error validationFailure latencyMs

/-- The calls answer what the breakers say there. -/
def Answered : CircuitBreakers → List ChainCall → Prop
  | _, [] => True
  | b, call :: calls =>
    (∀ deployment now admitted, call = .acquire deployment now admitted →
      admitted = (b.acquire deployment th now).1) ∧ Answered (call.apply th b) calls

/-- Every admission is followed by one record of its deployment, and there is no other record. -/
inductive Paired : List ChainCall → Prop
  | nil : Paired []
  | others {change : CircuitBreakers → CircuitBreakers} {calls : List ChainCall} :
      Paired calls → Paired (.others change :: calls)
  | refused {deployment : String} {now : ℚ} {calls : List ChainCall} :
      Paired calls → Paired (.acquire deployment now false :: calls)
  | attempted {deployment : String} {now now' : ℚ} {change : CircuitBreakers → CircuitBreakers}
      {error validationFailure : Bool} {latencyMs : ℚ} {calls : List ChainCall} :
      Paired calls → Paired (.acquire deployment now true :: .others change ::
        .record deployment now' error validationFailure latencyMs :: calls)

variable {th}

theorem Paired.append {calls calls' : List ChainCall} (h : Paired calls) (h' : Paired calls') :
    Paired (calls ++ calls') := by
  induction h with
  | nil => exact h'
  | others _ ih => exact ih.others
  | refused _ ih => exact ih.refused
  | attempted _ ih => exact ih.attempted

theorem answered_append {b : CircuitBreakers} {calls calls' : List ChainCall} :
    Answered th b (calls ++ calls') ↔
      Answered th b calls ∧ Answered th (calls.foldl (apply th) b) calls' := by
  induction calls generalizing b with
  | nil => simp [Answered]
  | cons call calls ih => simp only [List.cons_append, Answered, List.foldl_cons, ih, and_assoc]

end ChainCall

/-! ## The calls of a run -/

section Calls

variable (plan : ChainPlan) (request : ProviderRequest) (options : RoutingOptions)
  (policy : PolicyDecision) (interactionId : String) (deadline : ℚ)

/-- The calls of `admission`. -/
def admissionCalls (st : ChainState) (candidate : ExecutionCandidate) (turn : Turn) :
    List ChainCall :=
  match rejection candidate plan request options policy st.spent with
  | some _ => []
  | none =>
    if (deadline - turn.checkedAt) * 1000 ≤ candidate.estimatedLatencyMs then []
    else
      [.others turn.before, .acquire candidate.name turn.acquiredAt
        ((turn.before st.breakers).acquire candidate.name plan.policy.breaker turn.acquiredAt).1]

/-- The calls of `settle`. -/
def settleCalls (candidate : ExecutionCandidate) (turn : Turn) (attempt : GenerationAttempt) :
    List ChainCall :=
  [.others turn.during, .record candidate.name turn.recordedAt
    (attempt.errorCode.any (· ∈ breakerErrors)) (attempt.validation.any (!·.passed))
    attempt.totalLatencyMs]

/-- The calls of `visit`. -/
def visitCalls (st : ChainState) (candidate : ExecutionCandidate) (turn : Turn) : List ChainCall :=
  if candidate.name ∈ st.visited then []
  else
    let st := { st with visited := candidate.name :: st.visited }
    if st.attempts.length ≥ plan.policy.maxAttempts then []
    else
      admissionCalls plan request options policy deadline st candidate turn ++
        match admission plan request options policy deadline st candidate turn with
        | (some _, _) => []
        | (none, st) =>
          match executeAttempt candidate request interactionId (st.attempts.length + 1)
            (max 0 (deadline - turn.remainingAt)) turn st.reason with
          | none => []
          | some (_, attempt) => settleCalls candidate turn attempt

/-- The calls of `rounds`. -/
def roundsCalls (turns : ℕ → Turn) : ℕ → List ExecutionCandidate → ChainState → List ChainCall
  | _, [], _ => []
  | i, candidate :: rest, st =>
    visitCalls plan request options policy interactionId deadline st candidate (turns i) ++
      match visit plan request options policy interactionId deadline st candidate (turns i) with
      | (st, .next) => roundsCalls turns (i + 1) rest st
      | _ => []

/-- The calls of `runChain`. -/
def chainCalls (breakers : CircuitBreakers) (turns : ℕ → Turn) : List ChainCall :=
  roundsCalls plan request options policy interactionId deadline turns 0 plan.candidates
    { reason := plan.fallbackReason, breakers }

end Calls

/-! ## What a round does to the breakers

A round either calls no breaker, or acquires and is refused, or acquires and records. The last holds
also where the request is cancelled meanwhile: the attempt comes back all the same and is recorded
before the chain ends. -/

/-- A turn whose calls raise nothing but `Exception`s, timeouts and cancellations. -/
structure Turn.Ordinary (turn : Turn) : Prop where
  generate : ∀ request, turn.generate request ≠ .error .baseException
  validate : ∀ request result, turn.validate request result ≠ .error .baseException

section Rounds

variable {plan : ChainPlan} {request : ProviderRequest} {options : RoutingOptions}
  {policy : PolicyDecision} {interactionId : String} {deadline : ℚ} {turn : Turn}

theorem Raised.caught_isSome {raised : Raised} (h : raised ≠ .baseException)
    (attempt : GenerationAttempt) : ∃ r, raised.caught attempt = some r := by
  cases raised with
  | baseException => exact absurd rfl h
  | _ => exact ⟨_, rfl⟩

/-- An attempt of an ordinary turn always comes back. -/
theorem executeAttempt_isSome (hturn : turn.Ordinary)
    (hparameters : (RequestParameters.make request.temperature request.maxOutputTokens).isSome = true)
    (candidate : ExecutionCandidate) (number : ℕ) (remaining : ℚ) (fallbackReason : Option Reason) :
    ∃ result attempt, executeAttempt candidate request interactionId number remaining turn
      fallbackReason = some (result, attempt) := by
  obtain ⟨parameters, hparameters⟩ := Option.isSome_iff_exists.1 hparameters
  have houtcome : ∀ (attempt : GenerationAttempt) (answer : Except Raised ProviderResult),
      answer ≠ .error .baseException →
        ∃ r, outcome candidate.deployment request remaining turn attempt answer = some r := by
    intro attempt answer hanswer
    cases answer with
    | error raised => exact Raised.caught_isSome (fun h => hanswer (congrArg _ h)) attempt
    | ok result =>
      unfold outcome judge
      dsimp only
      split
      · exact ⟨_, rfl⟩
      split
      · exact ⟨_, rfl⟩
      split
      · next raised hraised =>
        exact Raised.caught_isSome (fun h => hturn.validate request result (h ▸ hraised)) _
      · split <;> exact ⟨_, rfl⟩
  cases hattempt : executeAttempt candidate request interactionId number remaining turn
      fallbackReason with
  | some r => exact ⟨r.1, r.2, rfl⟩
  | none =>
    unfold executeAttempt at hattempt
    have hcode := Option.bind_eq_none_iff.1 (Option.bind_eq_none_iff.1 hattempt parameters hparameters)
    obtain ⟨r, hr⟩ := houtcome _ _ (hturn.generate _)
    cases hcode r hr

/-- The run's breakers are what its calls make of them, and the calls answer what the breakers say. -/
structure Traced (th : BreakerThresholds) (b b' : CircuitBreakers) (calls : List ChainCall) : Prop where
  breakers : b' = calls.foldl (ChainCall.apply th) b
  answered : ChainCall.Answered th b calls

theorem Traced.refl {th : BreakerThresholds} (b : CircuitBreakers) : Traced th b b [] := ⟨rfl, trivial⟩

theorem Traced.append {th : BreakerThresholds} {b b' b'' : CircuitBreakers}
    {calls calls' : List ChainCall} (h : Traced th b b' calls) (h' : Traced th b' b'' calls') :
    Traced th b b'' (calls ++ calls') := by
  refine ⟨?_, ChainCall.answered_append.2 ⟨h.answered, ?_⟩⟩
  · rw [List.foldl_append, ← h.breakers]
    exact h'.breakers
  · rw [← h.breakers]
    exact h'.answered

/-- An admission without the breaker's word is none: the calls of a candidate passed over are paired,
    those of an admitted one end in the `acquire` that admitted it. -/
theorem admission_calls (st : ChainState) (candidate : ExecutionCandidate) (turn : Turn) :
    let out := admission plan request options policy deadline st candidate turn
    let calls := admissionCalls plan request options policy deadline st candidate turn
    Traced plan.policy.breaker st.breakers out.2.breakers calls ∧
      (∀ skip, out.1 = some skip → ChainCall.Paired calls) ∧
      (out.1 = none → calls = [.others turn.before, .acquire candidate.name turn.acquiredAt true]) := by
  unfold admission admissionCalls
  cases rejection candidate plan request options policy st.spent with
  | some reason => exact ⟨.refl _, fun _ _ => .nil, by simp⟩
  | none =>
    dsimp only
    split
    · exact ⟨.refl _, fun _ _ => .nil, by simp⟩
    · refine ⟨⟨rfl, ?_⟩, fun skip hskip => ?_, fun hadmitted => ?_⟩
      · simp [ChainCall.Answered, ChainCall.apply]
      · cases hanswer : ((turn.before st.breakers).acquire candidate.name plan.policy.breaker
            turn.acquiredAt).1 with
        | true => simp [hanswer] at hskip
        | false => exact .others (.refused .nil)
      · cases hanswer : ((turn.before st.breakers).acquire candidate.name plan.policy.breaker
            turn.acquiredAt).1 with
        | true => rfl
        | false => simp [hanswer] at hadmitted

theorem settle_breakers (st : ChainState) (candidate : ExecutionCandidate) (turn : Turn)
    (result : Option ProviderResult) (attempt : GenerationAttempt) :
    (settle plan st candidate turn result attempt).1.breakers =
      (settleCalls candidate turn attempt).foldl (ChainCall.apply plan.policy.breaker) st.breakers := by
  unfold settle
  split <;> rfl

/-- **Step lemma.** The calls of a round are pairs, and its breakers what they make of them. -/
theorem visit_calls (hturn : turn.Ordinary)
    (hparameters : (RequestParameters.make request.temperature request.maxOutputTokens).isSome = true)
    (st : ChainState) (candidate : ExecutionCandidate) :
    let out := visit plan request options policy interactionId deadline st candidate turn
    let calls := visitCalls plan request options policy interactionId deadline st candidate turn
    Traced plan.policy.breaker st.breakers out.1.breakers calls ∧ ChainCall.Paired calls := by
  unfold visit visitCalls
  dsimp only
  split
  · exact ⟨.refl _, .nil⟩
  split
  · exact ⟨.refl _, .nil⟩
  obtain ⟨htraced, hskipped, hadmitted⟩ := @admission_calls plan request options policy deadline
    { st with visited := candidate.name :: st.visited } candidate turn
  rcases hadmission : admission plan request options policy deadline
    { st with visited := candidate.name :: st.visited } candidate turn with ⟨skip, st'⟩
  rw [hadmission] at htraced hskipped hadmitted
  cases skip with
  | some skip =>
    rw [List.append_nil]
    exact ⟨htraced, hskipped skip rfl⟩
  | none =>
    obtain ⟨result, attempt, hattempt⟩ := @executeAttempt_isSome request interactionId turn hturn
      hparameters candidate (st'.attempts.length + 1) (max 0 (deadline - turn.remainingAt)) st'.reason
    simp only [hattempt]
    refine ⟨htraced.append ⟨settle_breakers st' candidate turn result attempt, ?_⟩, ?_⟩
    · simp [settleCalls, ChainCall.Answered]
    · -- the `acquire` of the admission and the `record` of the attempt are the pair
      rw [hadmitted rfl]
      exact .others (.attempted .nil)

/-- **Run lemma.** -/
theorem rounds_calls (turns : ℕ → Turn) (hturns : ∀ i, (turns i).Ordinary)
    (hparameters : (RequestParameters.make request.temperature request.maxOutputTokens).isSome = true)
    (i : ℕ) (rest : List ExecutionCandidate) (st : ChainState) :
    let out := rounds plan request options policy interactionId deadline turns i rest st
    let calls := roundsCalls plan request options policy interactionId deadline turns i rest st
    Traced plan.policy.breaker st.breakers out.2.breakers calls ∧ ChainCall.Paired calls := by
  induction rest generalizing i st with
  | nil => exact ⟨.refl _, .nil⟩
  | cons candidate rest ih =>
    obtain ⟨htraced, hpaired⟩ := @visit_calls plan request options policy interactionId deadline
      (turns i) (hturns i) hparameters st candidate
    unfold rounds roundsCalls
    rcases hvisit : visit plan request options policy interactionId deadline st candidate (turns i)
      with ⟨st', control⟩
    rw [hvisit] at htraced
    cases control with
    | next =>
      obtain ⟨htraced', hpaired'⟩ := ih (i + 1) st'
      exact ⟨htraced.append htraced', hpaired.append hpaired'⟩
    | stop | exit result =>
      rw [List.append_nil]
      exact ⟨htraced, hpaired⟩

/-- What others do during a run is what they do in its turns. -/
theorem others_of_mem_visitCalls {st : ChainState} {candidate : ExecutionCandidate}
    {change : CircuitBreakers → CircuitBreakers} (h : .others change ∈
      visitCalls plan request options policy interactionId deadline st candidate turn) :
    change = turn.before ∨ change = turn.during := by
  have hadmission : ∀ st, .others change ∈
      admissionCalls plan request options policy deadline st candidate turn → change = turn.before := by
    intro st h
    unfold admissionCalls at h
    split at h
    · cases h
    · split at h
      · cases h
      · simpa using h
  unfold visitCalls at h
  split at h
  · cases h
  dsimp only at h
  split at h
  · cases h
  rcases List.mem_append.1 h with h | h
  · exact .inl (hadmission _ h)
  · split at h
    · cases h
    · split at h
      · cases h
      · exact .inr (by simpa [settleCalls] using h)

theorem others_of_mem_roundsCalls {turns : ℕ → Turn} {i : ℕ} {rest : List ExecutionCandidate}
    {st : ChainState} {change : CircuitBreakers → CircuitBreakers} (h : .others change ∈
      roundsCalls plan request options policy interactionId deadline turns i rest st) :
    ∃ i, change = (turns i).before ∨ change = (turns i).during := by
  induction rest generalizing i st with
  | nil => cases h
  | cons candidate rest ih =>
    unfold roundsCalls at h
    rcases List.mem_append.1 h with h | h
    · exact ⟨i, others_of_mem_visitCalls h⟩
    · split at h
      · exact ih h
      · cases h

end Rounds

/-! ## Probes

A breaker is unprobed for a deployment if no half-open probe of it is out. A refusal keeps this, and
an admission that takes the probe is followed by the record that ends it. -/

namespace CircuitBreakers

/-- No breaker is left with its probe on. -/
def Unprobed (b : CircuitBreakers) : Prop := ∀ d w, b.get d = some w → w.probing = false

variable {b : CircuitBreakers} {d : String} {th : BreakerThresholds} {now : ℚ}

theorem Unprobed.set (h : b.Unprobed) {w : Window} (hw : w.probing = false) : (b.set d w).Unprobed := by
  intro d' w' hget
  by_cases hd : d' = d
  · subst hd
    rw [get_set_self] at hget
    rw [← Option.some.inj hget]
    exact hw
  · rw [get_set_of_ne b hd] at hget
    exact h d' w' hget

theorem Unprobed.window (h : b.Unprobed) {w : Window} (hw : b.window d = some w) :
    w.probing = false := by
  rcases b.window_cases hw with hget | ⟨-, rfl⟩
  · exact h d w hget
  · rfl

theorem Unprobed.refused (h : b.Unprobed) (hrefused : (b.acquire d th now).1 = false) :
    (b.acquire d th now).2.Unprobed := by
  rcases b.acquire_cases d th now with ⟨-, heq⟩ | ⟨w, hw, ⟨-, heq⟩ | ⟨-, -, heq⟩ | ⟨-, -, heq⟩⟩
  · rw [heq]
    exact h
  · rw [heq]
    exact h.set (by rw [Window.advance_probing]; exact h.window hw)
  · rw [heq] at hrefused
    cases hrefused
  · rw [heq] at hrefused
    cases hrefused

/-- A record right after a window was written works on that window. -/
theorem record_set (b : CircuitBreakers) (d : String) (w : Window) (th : BreakerThresholds) (now : ℚ)
    (error validationFailure : Bool) (latencyMs : ℚ) :
    (b.set d w).record d th now error validationFailure latencyMs =
      b.set d (w.record th now error validationFailure latencyMs) := by
  unfold record
  rw [window_of_get _ (get_set_self b d w)]
  exact set_set b d w _

/-- The record of an admitted attempt takes its probe off. -/
theorem Unprobed.attempted (h : b.Unprobed) (hadmitted : (b.acquire d th now).1 = true) (now' : ℚ)
    (error validationFailure : Bool) (latencyMs : ℚ) :
    ((b.acquire d th now).2.record d th now' error validationFailure latencyMs).Unprobed := by
  rcases b.acquire_cases d th now with ⟨-, heq⟩ | ⟨w, hw, ⟨-, heq⟩ | ⟨-, hstate, heq⟩ |
    ⟨hfree, hstate, heq⟩⟩
  · rw [heq] at hadmitted
    cases hadmitted
  · rw [heq] at hadmitted
    cases hadmitted
  · rw [heq, record_set]
    refine h.set (Window.record_halfOpen { w.advance th now with probing := true } th now' error
      validationFailure latencyMs ?_).2
    exact hstate
  · rw [heq, record_set]
    refine h.set ?_
    rw [(Window.record_of_ne_halfOpen _ th now' error validationFailure latencyMs (by simp [hstate])).2]
    exact hfree

/-- Pairs of calls without others between them leave no probe on. -/
theorem Unprobed.paired {calls : List ChainCall} (hpaired : ChainCall.Paired calls)
    (hquiet : ∀ change, .others change ∈ calls → change = id) (h : b.Unprobed)
    (hanswered : ChainCall.Answered th b calls) : (calls.foldl (ChainCall.apply th) b).Unprobed := by
  induction hpaired generalizing b with
  | nil => exact h
  | @others change calls _ ih =>
    obtain rfl := hquiet change List.mem_cons_self
    exact ih (fun change hchange => hquiet change (List.mem_cons_of_mem _ hchange)) h hanswered.2
  | refused _ ih =>
    exact ih (fun change hchange => hquiet change (List.mem_cons_of_mem _ hchange))
      (h.refused (hanswered.1 _ _ _ rfl).symm) hanswered.2
  | @attempted d now now' change error validationFailure latencyMs calls _ ih =>
    obtain rfl := hquiet change (List.mem_cons_of_mem _ List.mem_cons_self)
    refine ih (fun change hchange => hquiet change ?_)
      (h.attempted (hanswered.1 _ _ _ rfl).symm now' error validationFailure latencyMs)
      hanswered.2.2.2
    exact List.mem_cons_of_mem _ (List.mem_cons_of_mem _ (List.mem_cons_of_mem _ hchange))

end CircuitBreakers

/-! ## Runs one after another

The calls of a run are a list of its own, and the breakers of the next run are those that it leaves.
With nobody else calling, no probe is left over between two runs. -/

/-- A call of `run_chain`. -/
structure ChainRun where
  plan : ChainPlan
  request : ProviderRequest
  options : RoutingOptions
  policy : PolicyDecision
  interactionId : String
  deadline : ℚ
  turns : ℕ → Turn

namespace ChainRun

variable (run : ChainRun) (b : CircuitBreakers)

/-- The calls that the run makes on the breakers, in their order. -/
def calls : List ChainCall :=
  chainCalls run.plan run.request run.options run.policy run.interactionId run.deadline b run.turns

/-- The breakers it leaves. -/
def breakers : CircuitBreakers :=
  (runChain run.plan run.request run.options run.policy run.interactionId run.deadline b
    run.turns).2.breakers

/-- Providers and validators raise nothing but `Exception`s, timeouts and cancellations, and the
    request is one that the contract of the gateway lets through. -/
structure Ordinary : Prop where
  turns : ∀ i, (run.turns i).Ordinary
  temperature : 0 ≤ run.request.temperature ∧ run.request.temperature ≤ 2
  maxOutputTokens : 1 ≤ run.request.maxOutputTokens

/-- Nobody else calls the breakers meanwhile. -/
def Alone : Prop := ∀ i, (run.turns i).before = id ∧ (run.turns i).during = id

variable {run}

theorem Ordinary.calls (h : run.Ordinary) :
    Traced run.plan.policy.breaker b (run.breakers b) (run.calls b) ∧
      ChainCall.Paired (run.calls b) := by
  have hparameters : (RequestParameters.make run.request.temperature
      run.request.maxOutputTokens).isSome = true := by
    unfold RequestParameters.make
    rw [dif_pos ⟨h.temperature, h.maxOutputTokens⟩]
    rfl
  exact @rounds_calls run.plan run.request run.options run.policy run.interactionId run.deadline
    run.turns h.turns hparameters 0 run.plan.candidates { reason := run.plan.fallbackReason, breakers := b }

theorem Alone.calls (h : run.Alone) : ∀ change, .others change ∈ run.calls b → change = id := by
  intro change hchange
  obtain ⟨i, hi⟩ := others_of_mem_roundsCalls hchange
  rcases hi with rfl | rfl
  · exact (h i).1
  · exact (h i).2

end ChainRun

/-- **Every admission is recorded.** Whatever the providers and validators do, short of an exception
    that is no `Exception`, the calls of a run of the chain are pairs of an `acquire` that admits and a
    `record` of the same deployment, apart from the refusals: the run's breakers are what these calls
    make of them. Runs one after another then leave no breaker with its probe on. -/
theorem chain_calls_paired (run : ChainRun) (hrun : run.Ordinary) (b : CircuitBreakers) :
    (Traced run.plan.policy.breaker b (run.breakers b) (run.calls b) ∧
      ChainCall.Paired (run.calls b)) ∧
    ∀ runs : List ChainRun, (∀ run ∈ runs, run.Ordinary ∧ run.Alone) → b.Unprobed →
      (runs.foldl (fun b run => run.breakers b) b).Unprobed := by
  refine ⟨hrun.calls b, fun runs => ?_⟩
  induction runs generalizing b with
  | nil => exact fun _ h => h
  | cons run runs ih =>
    intro hruns h
    obtain ⟨hordinary, halone⟩ := hruns run List.mem_cons_self
    refine ih _ (fun run hmem => hruns run (List.mem_cons_of_mem _ hmem)) ?_
    obtain ⟨htraced, hpaired⟩ := hordinary.calls b
    show (run.breakers b).Unprobed
    rw [htraced.breakers]
    exact CircuitBreakers.Unprobed.paired hpaired (halone.calls b) h htraced.answered

namespace CancelledProbe

/-- The request is cancelled while the provider answers. -/
def run : ChainRun where
  plan :=
    { candidates := [{ deployment :=
        { modelDeploymentId := "d", modelProvider := "p", modelId := "m", modelVersion := "1",
          processingRegion := "local"
          priceList :=
            { version := "1", inputMicrosPer1000Tokens := 1, outputMicrosPer1000Tokens := 1 } } }]
      policy := {} }
  request := { inputTokens := 1, maxOutputTokens := 1 }
  options := {}
  policy := {}
  interactionId := "i"
  deadline := 10
  turns := fun _ =>
    { acquiredAt := 100, generate := fun _ => .error .cancelledError
      validate := fun _ _ => .ok ⟨true, []⟩ }

/-- The deployment's breaker is open, and its cooldown is over. -/
def breakers : CircuitBreakers := ({} : CircuitBreakers).set "d" { state := .open }

theorem run_ordinary : run.Ordinary := by
  refine ⟨fun _ => ⟨fun _ => by simp [run], fun _ _ => by simp [run]⟩, ?_, by decide⟩
  norm_num [run]

end CancelledProbe

open CancelledProbe in
/-- The probe that the cancelled run was is over. -/
theorem cancelled_probe_recorded : ChainCall.Paired (run.calls breakers) ∧
    (run.breakers breakers).Unprobed := by
  have hunprobed : breakers.Unprobed := by
    intro d w hget
    unfold breakers at hget
    by_cases hd : d = "d"
    · subst hd
      rw [CircuitBreakers.get_set_self] at hget
      rw [← Option.some.inj hget]
    · rw [CircuitBreakers.get_set_of_ne _ hd] at hget
      cases hget
  obtain ⟨⟨-, hpaired⟩, hruns⟩ := chain_calls_paired run run_ordinary breakers
  refine ⟨hpaired, hruns [run] (fun r hr => ?_) hunprobed⟩
  rw [List.mem_singleton.1 hr]
  exact ⟨run_ordinary, fun _ => ⟨rfl, rfl⟩⟩

end AdaptiveLlm
