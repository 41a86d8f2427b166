import AdaptiveLlm.Contracts.Attempts

set_option autoImplicit false

/-! # The attempt chain

`routing/chain.py`: `runChain` walks over the candidates of a plan, passes over those that
`rejection`, the deadline or the breaker refuses, and executes the others until one answers.

What a candidate meets from outside is a `Turn`: the readings of the clocks, the answers of the
provider and the validator, and what other requests do to the shared breakers meanwhile. Nothing is
assumed of it, so a run stands for every order of events. Metrics are outputs only and have no
counterpart here.

A round is one candidate: it is passed over, refused or attempted. A failed attempt ends the chain
unless its reason is among those for which the policy has another deployment tried, and a
cancellation ends it in any case. The state of a run has what was spent and what was recorded, and
is returned with the outcome, so that nothing a run has done is lost when it fails. -/

namespace AdaptiveLlm

/-! ## Plans -/

/-- `ExecutionCandidate`; its provider answers through the `Turn`. -/
structure ExecutionCandidate where
  deployment : Deployment
  estimatedLatencyMs : ℚ := 1
  specialist : Bool := false
  quality : ℚ := 1
  confidence : ℚ := 1
  oodScore : ℚ := 0
  rejectionReason : Option Reason := none
  contextLimit : ℕ := 1000000
  deriving DecidableEq

/-- A candidate is known by its deployment. -/
def ExecutionCandidate.name (c : ExecutionCandidate) : String := c.deployment.modelDeploymentId

/-- The candidates of a plan in their order, with the policy that chose them. -/
structure ChainPlan where
  candidates : List ExecutionCandidate
  policy : RoutePolicy
  allowLiveSpecialists : Bool := false
  fallbackReason : Option Reason := none

/-- Why a candidate is not admitted when `spent` micros are gone already. -/
def rejection (candidate : ExecutionCandidate) (plan : ChainPlan) (request : ProviderRequest)
    (options : RoutingOptions) (policy : PolicyDecision) (spent : ℕ) : Option Reason :=
  if candidate.rejectionReason.isSome then candidate.rejectionReason
  else if request.inputTokens + request.maxOutputTokens > candidate.contextLimit then
    some .contextLength
  else if candidate.deployment.processingRegion ≠ policy.residency ∨ ¬policy.processingAllowed then
    some .policyUncertainty
  else if candidate.deployment.priceList.estimate request.inputTokens request.maxOutputTokens + spent
      > options.maxCostMicros then
    some .policyUncertainty
  else if candidate.specialist then
    if ¬plan.allowLiveSpecialists then some .liveSpecialistsDisabled
    else if candidate.oodScore > plan.policy.oodThresholdMax then some .outOfDistribution
    else if candidate.quality < plan.policy.qualityThreshold then some .lowQuality
    else if candidate.confidence < plan.policy.routerConfidenceThreshold then some .lowConfidence
    else none
  else none

theorem rejection_cost {candidate : ExecutionCandidate} {plan : ChainPlan}
    {request : ProviderRequest} {options : RoutingOptions} {policy : PolicyDecision} {spent : ℕ}
    (h : rejection candidate plan request options policy spent = none) :
    candidate.deployment.priceList.estimate request.inputTokens request.maxOutputTokens + spent ≤
      options.maxCostMicros := by
  unfold rejection at h
  split_ifs at h <;> first | omega | simp_all

/-! ## The outside -/

/-- What a call can raise. `exception` is any `Exception` that is none of those before it,
    `baseException` one that is not an `Exception`. -/
inductive Raised where
  | providerError (code : ProviderErrorCode)
  | timeoutError
  | cancelledError
  | exception
  | baseException
  deriving DecidableEq, Repr

/-- What one turn of the loop meets: other requests, the clock, and the answer of the provider. -/
structure Turn where
  /-- other requests on the breakers up to `acquire`, and from there to `record` -/
  before : CircuitBreakers → CircuitBreakers := id
  during : CircuitBreakers → CircuitBreakers := id
  /-- the clock of the breakers at `acquire` and at `record` -/
  acquiredAt : ℚ := 0
  recordedAt : ℚ := 0
  /-- `perf_counter` at the deadline check, for the remaining time, at the start of the attempt,
      after the validation and at its end -/
  checkedAt : ℚ := 0
  remainingAt : ℚ := 0
  startedAt : ℚ := 0
  validatedAt : ℚ := 0
  finishedAt : ℚ := 0
  generate : ProviderRequest → Except Raised ProviderResult
  validate : ProviderRequest → ProviderResult → Except Raised Validation

/-! ## One attempt -/

/-- The finish reasons of an answer that can be served. -/
def FinishReason.accepted : FinishReason → Bool
  | .stop | .length | .contentFilter => true
  | .error | .cancelled | .deadlineExceeded => false

/-- The `except` clauses of `execute_attempt`: the code and the attempt, `none` where the exception
    goes on. -/
def Raised.caught (attempt : GenerationAttempt) :
    Raised → Option (Option ErrorCode × GenerationAttempt)
  | .providerError code =>
    some (some code.code,
      if code = .timeout then { attempt with finishReason := .deadlineExceeded } else attempt)
  | .timeoutError =>
    some (some .providerDeadlineExceeded, { attempt with finishReason := .deadlineExceeded })
  | .cancelledError =>
    some (some .requestCancelled, { attempt with finishReason := .cancelled })
  | .exception => some (some .providerFailed, attempt)
  | .baseException => none

/-- The `try` block of `execute_attempt` after the provider's result. -/
def judge (deployment : Deployment) (request : ProviderRequest) (remainingSeconds : ℚ) (turn : Turn)
    (attempt : GenerationAttempt) (result : ProviderResult) :
    Option (Option ErrorCode × GenerationAttempt) :=
  let attempt := { attempt with
    usage := some result.usage
    toolCalls := result.toolCalls
    finishReason := result.finishReason
    estimatedCostMicros := some
      (deployment.priceList.estimate result.usage.inputTokens result.usage.outputTokens) }
  if result.finishReason = .deadlineExceeded then some (some .providerDeadlineExceeded, attempt)
  else if ¬result.finishReason.accepted then some (some .providerFailed, attempt)
  else
    match turn.validate request result with
    | .error raised => raised.caught attempt
    | .ok validation =>
      let attempt := { attempt with validation := some validation }
      if turn.validatedAt - turn.startedAt ≥ remainingSeconds then
        some (some .providerDeadlineExceeded, { attempt with finishReason := .deadlineExceeded })
      else some (if validation.passed then none else some .validationFailed, attempt)

/-- The `try` statement of `execute_attempt`, by what the provider answers. -/
def outcome (deployment : Deployment) (request : ProviderRequest) (remainingSeconds : ℚ)
    (turn : Turn) (attempt : GenerationAttempt) :
    Except Raised ProviderResult → Option (Option ErrorCode × GenerationAttempt)
  | .error raised => raised.caught attempt
  | .ok result => judge deployment request remainingSeconds turn attempt result

/-- `execute_attempt`; `none` is an exception that leaves it. -/
def executeAttempt (candidate : ExecutionCandidate) (request : ProviderRequest)
    (interactionId : String) (number : ℕ) (remainingSeconds : ℚ) (turn : Turn)
    (fallbackReason : Option Reason) (shadow : Bool := false) :
    Option (Option ProviderResult × GenerationAttempt) := do
  let deployment := candidate.deployment
  let parameters ← RequestParameters.make request.temperature request.maxOutputTokens
  let attempt : GenerationAttempt :=
    { interactionId
      attemptNumber := number
      shadow
      modelProvider := deployment.modelProvider
      modelId := deployment.modelId
      modelVersion := deployment.modelVersion
      deploymentId := deployment.modelDeploymentId
      adapterId := if candidate.specialist then some deployment.modelDeploymentId else none
      requestParameters := some parameters
      totalLatencyMs := 0
      priceListVersion := some deployment.priceList.version
      finishReason := .error
      fallbackReason }
  let answer := turn.generate
    { request with deadlineMs := min request.deadlineMs (remainingSeconds * 1000) }
  let (code, attempt) ← outcome deployment request remainingSeconds turn attempt answer
  some (answer.toOption,
    { attempt with
      errorCode := code
      totalLatencyMs := (turn.finishedAt - turn.startedAt) * 1000 })

/-! ## The chain

`run_chain` goes through the candidates of a plan. Each round asks whether the candidate may be
tried, tries it, records the outcome with the breaker, and returns, goes on or raises. The clock and
what the calls do are given from outside, turn by turn. -/

/-- The local variables of `run_chain`, the caller's list of attempts and the shared breakers. -/
structure ChainState where
  visited : List String := []
  reason : Option Reason
  spent : ℕ := 0
  error : GatewayError := ⟨503, .noHealthyDeployment⟩
  attempts : List GenerationAttempt := []
  breakers : CircuitBreakers

/-- How `run_chain` ends: it returns, raises its `GatewayError` or the cancellation, or lets an
    exception of an attempt through. -/
inductive ChainResult where
  | returned (result : ProviderResult) (attempt : GenerationAttempt)
  | failed (error : GatewayError)
  | cancelled
  | escaped

/-- How one round of the loop ends. -/
inductive Control where
  | next
  | stop
  | exit (result : ChainResult)

section Loop

variable (plan : ChainPlan) (request : ProviderRequest) (options : RoutingOptions)
  (policy : PolicyDecision) (interactionId : String) (deadline : ℚ)

/-- The error codes `record` counts as errors of the deployment. -/
def breakerErrors : List ErrorCode :=
  [.providerFailed, .providerDeadlineExceeded, .requestCancelled, .providerTimeout,
    .providerRateLimited, .providerUnavailable, .providerInvalidResponse]

/-- The error of the chain after a failed attempt. -/
def attemptError (attempt : GenerationAttempt) : GatewayError where
  statusCode :=
    if attempt.errorCode ∈ [some .providerDeadlineExceeded, some .providerTimeout] then 504
    else if attempt.errorCode ∈ [some .providerRateLimited, some .providerUnavailable] then 503
    else 502
  code := attempt.errorCode.getD .providerFailed

/-- The reason to go on after a failed attempt. -/
def attemptReason (attempt : GenerationAttempt) : Reason :=
  if attempt.validation.any (·.checks.any fun c => c.name = "tool_allowlist" && !c.passed) then
    .unsupportedTool
  else if attempt.errorCode = some .validationFailed then .validationFailure
  else if attempt.errorCode ∈ [some .providerDeadlineExceeded, some .providerTimeout] then
    .deadlineRisk
  else .endpointError

/-- The round's admission: `rejection`, the deadline, then the breaker. -/
def admission (st : ChainState) (candidate : ExecutionCandidate) (turn : Turn) :
    Option Reason × ChainState :=
  match rejection candidate plan request options policy st.spent with
  | some reason => (some reason, st)
  | none =>
    if (deadline - turn.checkedAt) * 1000 ≤ candidate.estimatedLatencyMs then
      (some .deadlineRisk, { st with error := ⟨504, .providerDeadlineExceeded⟩ })
    else
      let acquired := (turn.before st.breakers).acquire candidate.name plan.policy.breaker
        turn.acquiredAt
      (if acquired.1 then none else some .circuitOpen, { st with breakers := acquired.2 })

/-- The round once its attempt is there: the breaker's record and what comes of the outcome. -/
def settle (st : ChainState) (candidate : ExecutionCandidate) (turn : Turn)
    (result : Option ProviderResult) (attempt : GenerationAttempt) : ChainState × Control :=
  let st := { st with
    attempts := st.attempts ++ [attempt]
    breakers := (turn.during st.breakers).record candidate.name plan.policy.breaker turn.recordedAt
      (attempt.errorCode.any (· ∈ breakerErrors)) (attempt.validation.any (!·.passed))
      attempt.totalLatencyMs
    spent := st.spent + attempt.estimatedCostMicros.getD 0 }
  match attempt.errorCode, result with
  | none, some result => (st, .exit (.returned result attempt))
  | some .requestCancelled, _ => (st, .exit .cancelled)
  | _, _ =>
    let reason := attemptReason attempt
    ({ st with error := attemptError attempt, reason := some reason },
      if reason ∈ plan.policy.hardFallbackOn then .next else .stop)

/-- One round of the loop over the candidates. -/
def visit (st : ChainState) (candidate : ExecutionCandidate) (turn : Turn) : ChainState × Control :=
  if candidate.name ∈ st.visited then (st, .next)
  else
    let st := { st with visited := candidate.name :: st.visited }
    if st.attempts.length ≥ plan.policy.maxAttempts then (st, .stop)
    else
      match admission plan request options policy deadline st candidate turn with
      | (some skip, st) =>
        ({ st with reason := some skip },
          if skip = .deadlineRisk ∧ skip ∉ plan.policy.hardFallbackOn then .stop else .next)
      | (none, st) =>
        match executeAttempt candidate request interactionId (st.attempts.length + 1)
          (max 0 (deadline - turn.remainingAt)) turn st.reason with
        | none => (st, .exit .escaped)
        | some (result, attempt) => settle plan st candidate turn result attempt

/-- The loop; round `i` meets `turns i`. -/
def rounds (turns : ℕ → Turn) : ℕ → List ExecutionCandidate → ChainState → ChainResult × ChainState
  | _, [], st => (.failed st.error, st)
  | i, candidate :: rest, st =>
    match visit plan request options policy interactionId deadline st candidate (turns i) with
    | (st, .next) => rounds turns (i + 1) rest st
    | (st, .stop) => (.failed st.error, st)
    | (st, .exit result) => (result, st)

/-- `run_chain` on an empty list of attempts. -/
def runChain (breakers : CircuitBreakers) (turns : ℕ → Turn) : ChainResult × ChainState :=
  rounds plan request options policy interactionId deadline turns 0 plan.candidates
    { reason := plan.fallbackReason, breakers }

end Loop

end AdaptiveLlm
