import AdaptiveLlm.Routing.ChainBounds
import AdaptiveLlm.Routing.LiveSafety

set_option autoImplicit false

/-! # The recorded route decision

`_execute` of `gateway/service.py` writes down which candidates of a plan are eligible before
`run_chain` walks over it. The two read different lists, `considered` and `candidates`, and make
different calls, `available` and `acquire`. A candidate that the planner left out carries a reason and
never comes to a breaker; of the others both calls give one answer, and what they leave behind differs
in the deployment asked for only.

The two walks are compared candidate by candidate. A candidate that `considered` has and
`candidates` has not was left out for a reason, under which the decision lists it as not eligible.
For the others the question is whether `available` and `acquire` give one answer: they do for a
deployment that has not been asked for yet, and since no deployment comes twice in a plan, each is
asked for while it is fresh. The plans of a service without a planner, of `FoundationPlanner` and of
`LivePlanner` are shown to be of this form. -/

namespace AdaptiveLlm

open Live

variable {π φ ρ : Type}

/-! ## Plans -/

/-- The plan as the chain reads it. -/
def Live.LivePlan.chain (plan : LivePlan π) : ChainPlan where
  candidates := plan.candidates.map (·.toExecutionCandidate)
  policy := plan.policy.toRoutePolicy
  allowLiveSpecialists := plan.allowLiveSpecialists
  fallbackReason := plan.fallbackReason

/-- `plan.considered or plan.candidates`. -/
def Live.LivePlan.listed (plan : LivePlan π) : List (LiveCandidate π) :=
  match plan.considered with
  | [] => plan.candidates
  | considered => considered

/-- The plan of a service without a planner; `policyId` is drawn by `uid`. -/
def defaultPlan (cfg : PlannerSettings π) (selection : RouteSelection φ) (options : PlanOptions)
    (policyId : String) : LivePlan π where
  candidates := [foundationCandidate cfg selection]
  policy := { policyId, foundationFallback := selection.deployment.modelDeploymentId }
  fallbackReason := if options.mode = .specialist then some .liveSpecialistsDisabled else none

/-- The plans that `_execute` gets: without a planner, of `FoundationPlanner` and of `LivePlanner`. -/
inductive Planned (ρ : Type) (cfg : PlannerSettings π) (selection : RouteSelection φ)
    (options : PlanOptions) : LivePlan π → Prop
  | default (policyId : String) : Planned ρ cfg selection options
      (defaultPlan cfg selection options policyId)
  | foundation (turn : PlanTurn π φ ρ) : Planned ρ cfg selection options
      (foundationPlan cfg turn selection options)
  | live (turn : PlanTurn π φ ρ) (planner : Planner ρ) (tenantId task : String) :
      Planned ρ cfg selection options (plan cfg turn selection planner options tenantId task).1

/-! ## The decision

Before the chain runs, `_execute` writes down what it expects of each candidate, and asks the
breakers whether they would let it through without taking the probe. The chain asks again when it
comes to the candidate. -/

/-- A code of `reason_codes`. -/
inductive ReasonCode where
  | rejected (reason : Reason)
  | specialistCandidate
  | foundationOnly
  deriving DecidableEq, Repr

/-- `Candidate`. -/
structure RouteCandidate where
  modelDeploymentId : String
  eligible : Bool
  processingRegion : String
  estimatedCostMicros : ℕ
  priceListVersion : String
  estimatedLatencyMs : Option ℚ
  predictedQuality : Option ℚ
  confidence : Option ℚ
  oodScore : Option ℚ
  reasonCodes : List ReasonCode
  deriving DecidableEq, Repr

/-- What `_execute` writes into a `RouteDecision`, without the time it took. -/
structure RouteDecision where
  routePolicyId : Option String
  fallbackReasons : List Reason
  candidates : List RouteCandidate
  routerVersion : String
  selectedModelDeploymentId : Option String
  fallbackDeploymentIds : List String

/-- `[c.model_deployment_id for c in candidates if c.eligible]`. -/
def eligibleIds (candidates : List RouteCandidate) : List String :=
  (candidates.filter (·.eligible)).map (·.modelDeploymentId)

section Execute

variable (plan : LivePlan π) (request : ProviderRequest) (options : RoutingOptions)
  (policy : PolicyDecision) (clock : String → ℚ)

/-- The reason against a candidate, and the breakers after it was asked for; `clock` is what they
    read when a deployment is asked for. -/
def ineligibility (candidate : LiveCandidate π) (b : CircuitBreakers) :
    Option Reason × CircuitBreakers :=
  match rejection candidate.toExecutionCandidate plan.chain request options policy 0 with
  | some reason => (some reason, b)
  | none =>
    let available := b.available candidate.name plan.policy.breaker (clock candidate.name)
    (if available.1 then none else some .circuitOpen, available.2)

/-- The entry of a candidate. -/
def routeCandidate (candidate : LiveCandidate π) (reason : Option Reason) : RouteCandidate where
  modelDeploymentId := candidate.name
  eligible := reason.isNone
  processingRegion := candidate.deployment.processingRegion
  estimatedCostMicros := candidate.deployment.quote request
  priceListVersion := candidate.deployment.priceList.version
  estimatedLatencyMs := if candidate.hasEstimate then some candidate.estimatedLatencyMs else none
  predictedQuality :=
    if candidate.specialist && candidate.hasEstimate then some candidate.quality else none
  confidence :=
    if candidate.specialist && candidate.hasEstimate then some candidate.confidence else none
  oodScore := if candidate.specialist && candidate.hasEstimate then some candidate.oodScore else none
  reasonCodes := match reason with
    | some reason => [.rejected reason]
    | none => [if candidate.specialist then .specialistCandidate else .foundationOnly]

/-- The loop of `_execute` over the listed candidates. -/
def routeCandidates : List (LiveCandidate π) → CircuitBreakers →
    List RouteCandidate × CircuitBreakers
  | [], b => ([], b)
  | candidate :: rest, b =>
    let (reason, b) := ineligibility plan request options policy clock candidate b
    let (entries, b) := routeCandidates rest b
    (routeCandidate request candidate reason :: entries, b)

/-- The decision of `_execute`; `planner` says that the service has one, `routerVersion` is that of
    the router's own decision. -/
def routeDecision (planner : Bool) (routerVersion : String) (b : CircuitBreakers) :
    RouteDecision × CircuitBreakers :=
  let (candidates, b) := routeCandidates plan request options policy clock plan.listed b
  let eligible := eligibleIds candidates
  ({ routePolicyId :=
      if planner && plan.policy.policyId ≠ "foundation-only" then some plan.policy.policyId else none
     fallbackReasons := plan.fallbackReason.toList
     candidates
     routerVersion := plan.policy.routerVersion.getD routerVersion
     selectedModelDeploymentId := eligible.head?
     fallbackDeploymentIds := eligible.tail }, b)

end Execute

/-! ## Admission without attempts -/

section Admission

variable (plan : ChainPlan) (request : ProviderRequest) (options : RoutingOptions)
  (policy : PolicyDecision) (deadline : ℚ)

/-- The ids that the admission of `run_chain` accepts, one candidate after the other, when no attempt
    is made. -/
def acceptedIds (turn : ExecutionCandidate → Turn) : List ExecutionCandidate → ChainState → List String
  | [], _ => []
  | candidate :: rest, st =>
    if candidate.name ∈ st.visited then acceptedIds turn rest st
    else
      match admission plan request options policy deadline
        { st with visited := candidate.name :: st.visited } candidate (turn candidate) with
      | (some skip, st) => acceptedIds turn rest { st with reason := some skip }
      | (none, st) => candidate.name :: acceptedIds turn rest st

/-- A turn without deadline pressure in which nobody else asks the breakers before their clock says
    what it said for the decision. -/
structure Turn.Unpressed (clock : String → ℚ) (candidate : ExecutionCandidate) (turn : Turn) : Prop where
  before : turn.before = id
  acquiredAt : turn.acquiredAt = clock candidate.name
  inTime : candidate.estimatedLatencyMs < (deadline - turn.checkedAt) * 1000

end Admission

/-! ## The two calls of the breakers

`available` and `acquire` give one answer, and `acquire` may take a probe besides. Two states of the
breakers are alike if they have the same windows for all deployments that were not asked for yet. -/

/-- The breakers of the two walks: the same deployments in them, and the same windows of those not
    asked for yet. -/
structure CircuitBreakers.Alike (asked : List String) (b b' : CircuitBreakers) : Prop where
  keys : b.windows.keys = b'.windows.keys
  get : ∀ d ∉ asked, b.get d = b'.get d

namespace CircuitBreakers

variable {asked : List String} {b b' : CircuitBreakers} {d : String}

theorem Alike.refl (asked : List String) (b : CircuitBreakers) : Alike asked b b :=
  ⟨rfl, fun _ _ => rfl⟩

theorem Alike.mono {asked' : List String} (h : Alike asked b b') (hsub : asked ⊆ asked') :
    Alike asked' b b' :=
  ⟨h.keys, fun d hd => h.get d fun hmem => hd (hsub hmem)⟩

theorem Alike.window (h : Alike asked b b') (hd : d ∉ asked) : b.window d = b'.window d := by
  unfold CircuitBreakers.window
  rw [h.get d hd, h.keys]

theorem Alike.set (h : Alike asked b b') (w w' : Window) :
    Alike (d :: asked) (b.set d w) (b'.set d w') where
  keys := by simp only [CircuitBreakers.set, AList.keys_insert, h.keys]
  get d' hd' := by
    obtain ⟨hne, hmem⟩ := not_or.1 (mt List.mem_cons.2 hd')
    rw [get_set_of_ne _ hne, get_set_of_ne _ hne, h.get d' hmem]

/-- `available` and `acquire` answer alike, and leave alike what is asked for later. -/
theorem Alike.available_acquire (h : Alike asked b b') (hd : d ∉ asked) (th : BreakerThresholds)
    (now : ℚ) :
    (b.available d th now).1 = (b'.acquire d th now).1 ∧
      Alike (d :: asked) (b.available d th now).2 (b'.acquire d th now).2 := by
  obtain ⟨hwindow, hacquire⟩ | ⟨w, hwindow, hcases⟩ := b'.acquire_cases d th now
  · have havailable : b.available d th now = (false, b) := by
      rw [← h.window hd] at hwindow
      simp only [available, hwindow]
    rw [hacquire, havailable]
    exact ⟨rfl, h.mono (List.subset_cons_self _ _)⟩
  have havailable : b.available d th now =
      ((w.advance th now).state ≠ .open && !(w.advance th now).probing,
        b.set d (w.advance th now)) := by
    rw [← h.window hd] at hwindow
    simp only [available, hwindow]
  rw [havailable]
  simp only [Window.advance_probing] at hcases ⊢
  obtain ⟨hrefused, hacquire⟩ | ⟨hfree, hstate, hacquire⟩ | ⟨hfree, hstate, hacquire⟩ := hcases
  · rw [hacquire]
    refine ⟨?_, h.set _ _⟩
    obtain hopen | hprobing := hrefused
    · simp [hopen]
    · simp [hprobing]
  · rw [hacquire]
    exact ⟨by simp [hstate, hfree], h.set _ _⟩
  · rw [hacquire]
    exact ⟨by simp [hstate, hfree], h.set _ _⟩

end CircuitBreakers

/-! ## The two walks

Both walks go over one list with one clock. Where no deadline presses, a candidate is refused by
both or by neither, since asking a breaker whether it is available and acquiring it give the same
answer for a deployment that was not acquired in between. -/

section Walks

variable {plan : LivePlan π} {request : ProviderRequest} {options : RoutingOptions}
  {policy : PolicyDecision} {clock : String → ℚ} {deadline : ℚ}

/-- A candidate with a reason of the planner is not eligible, and no breaker is asked for it. -/
theorem eligibleIds_filter (candidates : List (LiveCandidate π)) (b : CircuitBreakers) :
    eligibleIds (routeCandidates plan request options policy clock candidates b).1 =
      eligibleIds (routeCandidates plan request options policy clock
        (candidates.filter (·.rejectionReason = none)) b).1 := by
  induction candidates generalizing b with
  | nil => rfl
  | cons candidate rest ih =>
    cases hreason : candidate.rejectionReason with
    | none =>
      rw [List.filter_cons_of_pos (by simp [hreason])]
      unfold routeCandidates eligibleIds
      simp only [List.filter_cons]
      split
      · exact congrArg (_ :: ·) (ih _)
      · exact ih _
    | some reason =>
      rw [List.filter_cons_of_neg (by simp [hreason]), ← ih]
      simp [routeCandidates, eligibleIds, ineligibility, rejection, hreason, routeCandidate]

/-- Without deadline pressure an admission is the checks and the breaker's word. -/
theorem admission_unpressed {plan : ChainPlan} {candidate : ExecutionCandidate} {turn : Turn}
    (h : turn.Unpressed deadline clock candidate) (st : ChainState) :
    admission plan request options policy deadline st candidate turn =
      match rejection candidate plan request options policy st.spent with
      | some reason => (some reason, st)
      | none =>
        let acquired := st.breakers.acquire candidate.name plan.policy.breaker (clock candidate.name)
        (if acquired.1 then none else some .circuitOpen, { st with breakers := acquired.2 }) := by
  unfold admission
  rw [h.before, h.acquiredAt, if_neg (not_le.2 h.inTime)]
  rfl

variable (plan request options policy) in
/-- **Step lemma.** Asked for a fresh candidate, the decision and the admission say the same, and
    leave the breakers alike. -/
theorem ineligibility_eq_admission {candidate : LiveCandidate π} {turn : Turn} {st : ChainState}
    {b : CircuitBreakers} (hturn : turn.Unpressed deadline clock candidate.toExecutionCandidate)
    (hspent : st.spent = 0) (halike : CircuitBreakers.Alike st.visited b st.breakers)
    (hfresh : candidate.name ∉ st.visited) :
    let out := admission plan.chain request options policy deadline
      { st with visited := candidate.name :: st.visited } candidate.toExecutionCandidate turn
    let said := ineligibility plan request options policy clock candidate b
    out.1 = said.1 ∧ out.2.spent = 0 ∧ out.2.visited = candidate.name :: st.visited ∧
      CircuitBreakers.Alike out.2.visited said.2 out.2.breakers := by
  dsimp only
  rw [admission_unpressed hturn]
  unfold ineligibility
  dsimp only
  rw [hspent]
  split
  · exact ⟨rfl, rfl, rfl, halike.mono (List.subset_cons_self _ _)⟩
  · obtain ⟨hanswer, hleft⟩ := halike.available_acquire hfresh plan.policy.breaker
      (clock candidate.name)
    exact ⟨by rw [hanswer]; rfl, rfl, rfl, hleft⟩

/-- **The run of both walks.** Over candidates of different names they admit the same ones. -/
theorem eligibleIds_eq_acceptedIds {turn : ExecutionCandidate → Turn}
    {candidates : List (LiveCandidate π)} {st : ChainState} {b : CircuitBreakers}
    (hturn : ∀ candidate ∈ candidates, (turn candidate.toExecutionCandidate).Unpressed deadline clock
      candidate.toExecutionCandidate)
    (hspent : st.spent = 0) (halike : CircuitBreakers.Alike st.visited b st.breakers)
    (hfresh : ∀ candidate ∈ candidates, candidate.name ∉ st.visited)
    (hnames : (candidates.map (·.name)).Nodup) :
    eligibleIds (routeCandidates plan request options policy clock candidates b).1 =
      acceptedIds plan.chain request options policy deadline turn
        (candidates.map (·.toExecutionCandidate)) st := by
  induction candidates generalizing st b with
  | nil => rfl
  | cons candidate rest ih =>
    obtain ⟨hname, hnames⟩ := List.nodup_cons.1 hnames
    obtain ⟨hsame, hspent', hvisited, halike'⟩ := ineligibility_eq_admission plan request options
      policy (hturn candidate List.mem_cons_self) hspent halike (hfresh candidate List.mem_cons_self)
    have hlater : ∀ c ∈ rest, c.name ∉ candidate.name :: st.visited := by
      intro c hc hmem
      obtain heq | hmem := List.mem_cons.1 hmem
      · exact hname (List.mem_map.2 ⟨c, hc, heq⟩)
      · exact hfresh c (List.mem_cons_of_mem _ hc) hmem
    rw [List.map_cons, acceptedIds, if_neg (hfresh candidate List.mem_cons_self)]
    rcases hadmission : admission plan.chain request options policy deadline
      { st with visited := candidate.toExecutionCandidate.name :: st.visited }
      candidate.toExecutionCandidate (turn candidate.toExecutionCandidate) with ⟨skip, st'⟩
    rw [hadmission] at hsame hspent' hvisited halike'
    have hrest := fun reason => @ih { st' with reason } _
      (fun c hc => hturn c (List.mem_cons_of_mem _ hc)) hspent' halike' (hvisited ▸ hlater) hnames
    unfold routeCandidates eligibleIds
    dsimp only at hsame ⊢
    rw [← hsame]
    cases skip with
    | some reason => exact hrest (some reason)
    | none => exact congrArg (candidate.name :: ·) (hrest st'.reason)

/-- Without deadline pressure no admission is refused for it. -/
theorem admission_ne_deadlineRisk {plan : ChainPlan} {candidate : ExecutionCandidate} {turn : Turn}
    (hreason : candidate.rejectionReason = none) (h : turn.Unpressed deadline clock candidate)
    (st : ChainState) :
    (admission plan request options policy deadline st candidate turn).1 ≠ some .deadlineRisk := by
  rw [admission_unpressed h]
  cases hrejection : rejection candidate plan request options policy st.spent with
  | none =>
    dsimp only
    split <;> simp
  | some reason =>
    unfold rejection at hrejection
    rw [hreason] at hrejection
    rintro ⟨⟩
    revert hrejection
    split_ifs <;> simp

/-- The rounds do not take an attempt back. -/
theorem rounds_attempts {plan : ChainPlan} {interactionId : String} {turns : ℕ → Turn} {i : ℕ}
    {candidates : List ExecutionCandidate} {st : ChainState} :
    st.attempts <+:
      (rounds plan request options policy interactionId deadline turns i candidates st).2.attempts := by
  induction candidates generalizing i st with
  | nil => exact List.prefix_rfl
  | cons candidate rest ih =>
    have hvisit : st.attempts <+:
        (visit plan request options policy interactionId deadline st candidate (turns i)).1.attempts := by
      obtain h | ⟨a, h⟩ := visit_cases plan request options policy interactionId deadline st
        candidate (turns i)
      · exact h.attempts ▸ List.prefix_rfl
      · rw [h.attempts]
        exact List.prefix_append _ _
    unfold rounds
    split
    · rename_i st' hst'
      rw [hst'] at hvisit
      exact hvisit.trans ih
    · rename_i st' hst'
      rwa [hst'] at hvisit
    · rename_i st' _ hst'
      rwa [hst'] at hvisit

/-- The first attempt of the rounds is made with the first candidate that is accepted. -/
theorem first_attempt {plan : ChainPlan} {interactionId : String} {turn : ExecutionCandidate → Turn}
    {turns : ℕ → Turn} {i : ℕ} {candidates : List ExecutionCandidate} {st : ChainState}
    (hturn : ∀ candidate ∈ candidates, (turn candidate).Unpressed deadline clock candidate)
    (hturns : ∀ j candidate, candidates[j]? = some candidate →
      (turns (i + j)).Unpressed deadline clock candidate)
    (hreason : ∀ candidate ∈ candidates, candidate.rejectionReason = none)
    (hattempts : st.attempts = [])
    (h : (rounds plan request options policy interactionId deadline turns i candidates st).1 ≠
      .escaped) :
    (rounds plan request options policy interactionId deadline turns i candidates
        st).2.attempts.head?.map (·.deploymentId) =
      (acceptedIds plan request options policy deadline turn candidates st).head? := by
  induction candidates generalizing i st with
  | nil => simp [rounds, acceptedIds, hattempts]
  | cons candidate rest ih =>
    have hi : (turns i).Unpressed deadline clock candidate := hturns 0 candidate rfl
    have hrest : ∀ j c, rest[j]? = some c → (turns (i + 1 + j)).Unpressed deadline clock c := by
      intro j c hc
      rw [Nat.add_assoc, Nat.add_comm 1 j]
      exact hturns (j + 1) c hc
    have hroom : ¬st.attempts.length ≥ plan.policy.maxAttempts := by
      rw [hattempts]
      exact not_le.2 plan.policy.attempts_bounds.1
    -- the two turns are different, what their admissions say is not
    have hsame : ∀ st, admission plan request options policy deadline st candidate (turn candidate) =
        admission plan request options policy deadline st candidate (turns i) := by
      intro st
      rw [admission_unpressed (hturn candidate List.mem_cons_self), admission_unpressed hi]
    have hlater := fun st hattempts => @ih (i + 1) st (fun c hc => hturn c (List.mem_cons_of_mem _ hc))
      hrest (fun c hc => hreason c (List.mem_cons_of_mem _ hc)) hattempts
    unfold rounds visit at h ⊢
    unfold acceptedIds
    by_cases hvisited : candidate.name ∈ st.visited
    · simp only [if_pos hvisited] at h ⊢
      exact hlater st hattempts h
    simp only [if_neg hvisited, if_neg hroom, hsame] at h ⊢
    have hrisk := @admission_ne_deadlineRisk request options policy clock deadline plan candidate
      (turns i) (hreason candidate List.mem_cons_self) hi
      { st with visited := candidate.name :: st.visited }
    have hkept := (admission_state plan request options policy deadline
      { st with visited := candidate.name :: st.visited } candidate (turns i)).1
    rcases hadmission : admission plan request options policy deadline
      { st with visited := candidate.name :: st.visited } candidate (turns i) with ⟨skip, st'⟩
    rw [hadmission] at hrisk hkept
    simp only [hadmission] at h ⊢
    have hnone : st'.attempts = [] := hkept.trans hattempts
    cases skip with
    | some skip =>
      have hgo : ¬(skip = .deadlineRisk ∧ skip ∉ plan.policy.hardFallbackOn) :=
        fun hskip => hrisk (congrArg some hskip.1)
      simp only [if_neg hgo] at h ⊢
      exact hlater { st' with reason := some skip } hnone h
    | none =>
      cases hattempt : executeAttempt candidate request interactionId (st'.attempts.length + 1)
          (max 0 (deadline - (turns i).remainingAt)) (turns i) st'.reason with
      | none => exact absurd (by simp only [hattempt]) h
      | some r =>
        have hmade := (executeAttempt_spec hattempt).1.deployment
        have hsettled : (settle plan st' candidate (turns i) r.1 r.2).1.attempts = [r.2] := by
          have hspec := (settle_spec plan st' candidate (turns i) (executeAttempt_spec hattempt).2).1
          rwa [hnone] at hspec
        rcases hsettle : settle plan st' candidate (turns i) r.1 r.2 with ⟨st'', control⟩
        rw [hsettle] at hsettled
        simp only [hattempt, hsettle, List.head?_cons]
        -- whatever the round comes to, its attempt stays the first
        have hfirst : ∀ attempts, st''.attempts <+: attempts →
            attempts.head?.map (·.deploymentId) = some candidate.name := by
          rintro _ ⟨more, rfl⟩
          rw [hsettled, List.cons_append, List.head?_cons, Option.map_some, hmade]
        cases control with
        | next => exact hfirst _ rounds_attempts
        | stop => exact hfirst _ List.prefix_rfl
        | exit _ => exact hfirst _ List.prefix_rfl

end Walks

/-! ## What the planners leave out

A planner marks what it leaves out with a reason, so the decision lists it as not eligible and the
chain never meets it. The foundation is always among the candidates that are left. -/

section Plans

variable {cfg : PlannerSettings π} {turn : PlanTurn π φ ρ} {selection : RouteSelection φ}
  {options : PlanOptions} {plan : LivePlan π}

/-- The live path gives the foundation's plan with another reason, or what `choose` makes of it. -/
theorem live_cases {planner planner' : Planner ρ} {foundation : LivePlan π} {tenantId task : String}
    (h : live cfg turn selection planner foundation tenantId task = .ok (plan, planner')) :
    plan.candidates = foundation.candidates ∧ plan.considered = foundation.considered ∨
      ∃ policy latest candidates, plan = choose foundation policy latest candidates := by
  unfold live at h
  obtain ⟨⟨object, first⟩, -, h⟩ := Except.bind_eq_ok.1 h
  dsimp only at h
  split at h
  · cases h
    exact .inl ⟨rfl, rfl⟩
  split at h
  · cases h
    exact .inl ⟨rfl, rfl⟩
  split at h
  · cases h
    exact .inl ⟨rfl, rfl⟩
  split at h
  · obtain ⟨planner₁, -, h⟩ := Except.bind_eq_ok.1 h
    unfold planSpecialists at h
    obtain ⟨manifest, -, h⟩ := Except.bind_eq_ok.1 h
    split at h
    · cases h
      exact .inl ⟨rfl, rfl⟩
    obtain ⟨⟨router, planner₂⟩, -, h⟩ := Except.bind_eq_ok.1 h
    obtain ⟨candidates, -, h⟩ := Except.bind_eq_ok.1 h
    obtain ⟨⟨object', latest⟩, -, h⟩ := Except.bind_eq_ok.1 h
    dsimp only at h
    split at h
    · cases h
      exact .inl ⟨rfl, rfl⟩
    · cases h
      exact .inr ⟨_, _, _, rfl⟩
  · cases h
    exact .inl ⟨rfl, rfl⟩

/-- A plan that is the foundation alone lists it alone. -/
theorem listed_foundation (hcandidates : plan.candidates = [foundationCandidate cfg selection])
    (hconsidered : plan.considered = []) :
    plan.candidates = plan.listed.filter (·.rejectionReason = none) := by
  unfold LivePlan.listed
  rw [hconsidered, hcandidates]
  rfl

/-- A planner keeps exactly those of the listed candidates that it gives no reason against. -/
theorem Planned.candidates_eq (h : Planned ρ cfg selection options plan) :
    plan.candidates = plan.listed.filter (·.rejectionReason = none) := by
  cases h with
  | default policyId => exact listed_foundation rfl rfl
  | foundation turn => exact listed_foundation rfl rfl
  | live turn planner tenantId task =>
    unfold Live.plan
    dsimp only
    split
    · exact listed_foundation rfl rfl
    split
    · rename_i result hlive
      obtain ⟨hcandidates, hconsidered⟩ | ⟨policy, latest, candidates, hchoose⟩ := live_cases hlive
      · exact listed_foundation hcandidates hconsidered
      · rw [hchoose]
        generalize hmarked : markUnselected false (candidates.map (markDisabled latest)) = marked
        have hlisted : (choose (foundationPlan cfg turn selection options) policy latest
            candidates).listed = marked ++ [foundationCandidate cfg selection] := by
          unfold LivePlan.listed choose
          rw [hmarked]
          cases marked <;> rfl
        rw [hlisted, List.filter_append, ← hmarked]
        rfl
    · exact listed_foundation rfl rfl

/-- The candidates of a plan have different names, unless the foundation goes by the name of a
    specialist. -/
theorem Planned.nodup (h : Planned ρ cfg selection options plan)
    (hminted : selection.deployment.modelDeploymentId ∉ plan.policy.eligibleSpecialistVersions) :
    (plan.candidates.map (·.name)).Nodup := by
  cases h with
  | default policyId => exact List.nodup_singleton _
  | foundation turn => exact List.nodup_singleton _
  | live turn planner tenantId task =>
    obtain ⟨chosen, hsafe⟩ := exists_safePlan cfg turn selection planner options tenantId task
    rw [hsafe.candidates]
    rcases chosen with _ | ⟨c, _ | ⟨c', rest⟩⟩
    · exact List.nodup_singleton _
    · obtain ⟨_, _, _, _, _, _, _, hc⟩ := hsafe.safe c List.mem_cons_self
      have hname : c.name ≠ selection.deployment.modelDeploymentId :=
        fun heq => hminted (heq ▸ hc.eligible)
      simpa [foundationCandidate, ExecutionCandidate.name] using hname
    · exact absurd hsafe.length_le (by simp)

end Plans

/-- **The recorded decision agrees with the execution.** Of every plan that a planner makes, for every
    request, policy and state of the breakers, the deployments marked eligible are, in order, those
    that the admission of `run_chain` accepts from `candidates` in this state with nothing spent and no
    deadline near. The one recorded as selected is that of the first attempt, unless an exception that
    no clause catches ends it; the fallbacks are the others.

    The versions a policy names are those of registered models, drawn by `uid` when the model's job is
    queued: the foundation's deployment, which the routing configuration names, is none of them. -/
theorem recorded_route_agrees {cfg : PlannerSettings π} {selection : RouteSelection φ}
    {options : PlanOptions} {plan : LivePlan π} (hplan : Planned ρ cfg selection options plan)
    (hminted : selection.deployment.modelDeploymentId ∉ plan.policy.eligibleSpecialistVersions)
    (request : ProviderRequest) (policy : PolicyDecision) (clock : String → ℚ) (planner : Bool)
    (routerVersion : String) (b : CircuitBreakers) (deadline : ℚ) :
    let decision := (routeDecision plan request options.toRoutingOptions policy clock planner
      routerVersion b).1
    let eligible := eligibleIds decision.candidates
    (∀ turn : ExecutionCandidate → Turn,
      (∀ c ∈ plan.chain.candidates, (turn c).Unpressed deadline clock c) →
        eligible = acceptedIds plan.chain request options.toRoutingOptions policy deadline turn
          plan.chain.candidates { reason := plan.fallbackReason, breakers := b }) ∧
    decision.selectedModelDeploymentId = eligible.head? ∧
    decision.fallbackDeploymentIds = eligible.tail ∧
    ∀ (interactionId : String) (turns : ℕ → Turn),
      (∀ i c, plan.chain.candidates[i]? = some c → (turns i).Unpressed deadline clock c) →
        let run := runChain plan.chain request options.toRoutingOptions policy interactionId deadline b
          turns
        run.1 ≠ .escaped →
          run.2.attempts.head?.map (·.deploymentId) = decision.selectedModelDeploymentId := by
  dsimp only
  have hwalks : ∀ turn : ExecutionCandidate → Turn,
      (∀ c ∈ plan.chain.candidates, (turn c).Unpressed deadline clock c) →
        eligibleIds (routeDecision plan request options.toRoutingOptions policy clock planner
            routerVersion b).1.candidates =
          acceptedIds plan.chain request options.toRoutingOptions policy deadline turn
            plan.chain.candidates { reason := plan.fallbackReason, breakers := b } := by
    intro turn hturn
    refine (eligibleIds_filter plan.listed b).trans ?_
    rw [← hplan.candidates_eq]
    exact eligibleIds_eq_acceptedIds (fun c hc => hturn _ (List.mem_map_of_mem hc)) rfl (.refl _ b)
      (fun _ _ => List.not_mem_nil) (hplan.nodup hminted)
  refine ⟨hwalks, rfl, rfl, fun interactionId turns hturns hescaped => ?_⟩
  -- the candidates' own turns, with a deadline as far off as their estimates ask
  let turn : ExecutionCandidate → Turn := fun c =>
    { acquiredAt := clock c.name
      checkedAt := deadline - c.estimatedLatencyMs / 1000 - 1
      generate := fun _ => .error .exception
      validate := fun _ _ => .error .exception }
  have hturn : ∀ c : ExecutionCandidate, (turn c).Unpressed deadline clock c := by
    refine fun c => ⟨rfl, rfl, ?_⟩
    show c.estimatedLatencyMs < (deadline - (deadline - c.estimatedLatencyMs / 1000 - 1)) * 1000
    linarith
  refine (first_attempt (fun c _ => hturn c) (fun j c hc => ?_) (fun c hc => ?_) rfl hescaped).trans ?_
  · rw [Nat.zero_add]
    exact hturns j c hc
  · obtain ⟨c, hmem, rfl⟩ := List.mem_map.1 hc
    rw [hplan.candidates_eq] at hmem
    simpa using (List.mem_filter.1 hmem).2
  · exact (congrArg List.head? (hwalks turn fun c _ => hturn c)).symm

namespace RecordedRoute

open Live.Samples

/-- Settings of no provider that pseudonymise nothing. -/
def settings : PlannerSettings Unit := ⟨(), fun _ purpose => purpose, fun _ => 0⟩

/-- A plan of two specialists that pass every check. -/
def twoSpecialists : LivePlan Unit :=
  (Live.plan settings turn selection {} { mode := .auto } "acme" "general").1

/-- A request of 100 tokens. -/
def request : ProviderRequest where
  inputTokens := 100
  maxOutputTokens := 100

/-- Every attempt fails at once. -/
def failing : Turn where
  generate _ := .error .exception
  validate _ _ := .error .exception

theorem twoSpecialists_planned :
    Planned Unit settings selection { mode := .auto } twoSpecialists :=
  .live turn {} "acme" "general"

/-- The candidates of the plan, each with the default estimate. -/
theorem twoSpecialists_latency :
    ∀ c ∈ twoSpecialists.chain.candidates, c.estimatedLatencyMs = 1 := by
  decide +kernel

theorem failing_unpressed {i : ℕ} {c : ExecutionCandidate}
    (h : twoSpecialists.chain.candidates[i]? = some c) :
    failing.Unpressed 10 (fun _ => 0) c := by
  refine ⟨rfl, rfl, ?_⟩
  rw [twoSpecialists_latency c (List.mem_of_getElem? h)]
  norm_num [failing]

end RecordedRoute

open RecordedRoute in
/-- The cheapest specialist is recorded as selected, the foundation after it, and the first attempt is
    the specialist's. -/
theorem cheapest_recorded :
    let decision := (routeDecision twoSpecialists request {} {} (fun _ => 0) true "router-1" {}).1
    decision.selectedModelDeploymentId = some "v1" ∧
      decision.fallbackDeploymentIds = ["foundation"] ∧
      (runChain twoSpecialists.chain request {} {} "i1" 10 {}
        fun _ => failing).2.attempts.head?.map (·.deploymentId) = some "v1" := by
  obtain ⟨-, -, -, hfirst⟩ := recorded_route_agrees twoSpecialists_planned (by decide +kernel)
    request {} (fun _ => 0) true "router-1" {} 10
  have hselected : (routeDecision twoSpecialists request {} {} (fun _ => 0) true "router-1"
      {}).1.selectedModelDeploymentId = some "v1" := by decide +kernel
  refine ⟨hselected, by decide +kernel, ?_⟩
  have hescaped : (match (runChain twoSpecialists.chain request {} {} "i1" 10 {}
      fun _ => failing).1 with | .escaped => false | _ => true) = true := by decide +kernel
  refine (hfirst "i1" (fun _ => failing) (fun i c hc => failing_unpressed hc) fun h => ?_).trans
    hselected
  rw [h] at hescaped
  cases hescaped

end AdaptiveLlm
