import AdaptiveLlm.Routing.Breakers

set_option autoImplicit false

/-! # Contracts of a generation

The records that the attempt chain reads and writes: requests and results of a provider, the
validation of a result, the attempt that is stored, and the policies that bound the chain. Generated
ids are left out; amounts of money are whole micros, and rates and durations exact rationals.

The chain of `Routing/Chain.lean` is written over these records, and the fake provider, the shadow
worker and the benchmarks build them too, so they stand in a module of their own. The bounds of
pydantic that a proof relies on are fields of the structures, as the source gives them: a route
policy allows one to eight attempts, and the routing options of a caller cap the cost. What pydantic
refuses is then nothing that the chain could meet, and no later proof has to exclude it again. -/

namespace AdaptiveLlm

/-- `FinishReason`. -/
inductive FinishReason where
  | stop
  | length
  | error
  | cancelled
  | deadlineExceeded
  | contentFilter
  deriving DecidableEq, Repr

/-- Why a candidate was passed over or an attempt followed by another: `FallbackReason` and the
    other reasons the planner and the chain give. -/
inductive Reason where
  | validationFailure
  | endpointError
  | deadlineRisk
  | policyUncertainty
  | unsupportedTool
  | lowConfidence
  | outOfDistribution
  | lowQuality
  | circuitOpen
  | liveSpecialistsDisabled
  | notCheapest
  | contextLength
  | deploymentDisabled
  | stateIneligible
  | unsupportedModality
  | canaryNotAssigned
  | notSelected
  deriving DecidableEq, Repr

/-- The `error_code` of an attempt, and of the `GatewayError` a chain ends with. -/
inductive ErrorCode where
  | providerTimeout
  | providerRateLimited
  | providerUnavailable
  | providerInvalidResponse
  | providerDeadlineExceeded
  | providerFailed
  | validationFailed
  | requestCancelled
  | noHealthyDeployment
  deriving DecidableEq, Repr

/-- `ProviderErrorCode`, the codes a `ProviderError` may carry. -/
inductive ProviderErrorCode where
  | timeout
  | rateLimited
  | unavailable
  | invalidResponse
  deriving DecidableEq, Repr

/-- The error that the gateway reports for an error of a provider. -/
def ProviderErrorCode.code : ProviderErrorCode → ErrorCode
  | .timeout => .providerTimeout
  | .rateLimited => .providerRateLimited
  | .unavailable => .providerUnavailable
  | .invalidResponse => .providerInvalidResponse

/-- `GatewayError`: the status and the code that a client sees. -/
structure GatewayError where
  statusCode : ℕ
  code : ErrorCode
  deriving DecidableEq, Repr

/-! ## Providers -/

/-- `Usage` without the name of its source and tokenizer. -/
structure Usage where
  inputTokens : ℕ
  outputTokens : ℕ
  deriving DecidableEq, Repr

/-- A call of a tool that an answer asks for. -/
structure ToolCall where
  toolName : String
  argumentsHash : String
  allowed : Bool
  deriving DecidableEq, Repr

/-- What the chain reads of a `ProviderRequest`; `inputTokens` counts its messages and context. -/
structure ProviderRequest where
  inputTokens : ℕ
  maxOutputTokens : ℕ
  deadlineMs : ℚ := 5000
  temperature : ℚ := 0
  deriving DecidableEq, Repr

/-- `ProviderResult`: the answer of a provider with what it used. -/
structure ProviderResult where
  content : String
  usage : Usage
  finishReason : FinishReason
  toolCalls : List ToolCall := []
  deriving DecidableEq, Repr

/-- `PriceList`, prices in micros per thousand tokens. -/
structure PriceList where
  version : String
  inputMicrosPer1000Tokens : ℕ
  outputMicrosPer1000Tokens : ℕ
  deriving DecidableEq, Repr

/-- The price of a call, rounded up to a whole micro. -/
def PriceList.estimate (p : PriceList) (inputTokens outputTokens : ℕ) : ℕ :=
  (inputTokens * p.inputMicrosPer1000Tokens + outputTokens * p.outputMicrosPer1000Tokens + 999) /
    1000

theorem PriceList.estimate_mono (p : PriceList) {i i' o o' : ℕ} (hi : i ≤ i') (ho : o ≤ o') :
    p.estimate i o ≤ p.estimate i' o' := by
  unfold estimate
  gcongr

/-- `Deployment`: a model at a provider, its region and what it costs. -/
structure Deployment where
  modelDeploymentId : String
  modelProvider : String
  modelId : String
  modelVersion : String
  processingRegion : String
  priceList : PriceList
  deriving DecidableEq, Repr

/-! ## Validation -/

/-- Whether a failed check of an answer makes the answer unusable. -/
inductive Severity where
  | hard
  | advisory
  deriving DecidableEq, Repr

/-- One check of an answer. -/
structure ValidationCheck where
  name : String
  passed : Bool
  severity : Severity := .hard
  deriving DecidableEq, Repr

/-- `ValidationResult`: the checks of an answer and whether all hard ones passed. -/
structure Validation where
  passed : Bool
  checks : List ValidationCheck
  deriving DecidableEq, Repr

/-! ## Attempts and policies -/

/-- `RequestParameters` with the bounds its fields are declared with. -/
structure RequestParameters where
  temperature : ℚ
  maxOutputTokens : ℕ
  temperature_bounds : 0 ≤ temperature ∧ temperature ≤ 2
  maxOutputTokens_pos : 1 ≤ maxOutputTokens
  deriving DecidableEq

/-- The constructor of `RequestParameters`; `none` is its validation error. -/
def RequestParameters.make (temperature : ℚ) (maxOutputTokens : ℕ) : Option RequestParameters :=
  if h : (0 ≤ temperature ∧ temperature ≤ 2) ∧ 1 ≤ maxOutputTokens then
    some ⟨temperature, maxOutputTokens, h.1, h.2⟩
  else none

/-- `GenerationAttempt`: one call of a deployment for an interaction, as it is recorded. -/
structure GenerationAttempt where
  interactionId : String
  attemptNumber : ℕ
  shadow : Bool
  modelProvider : String
  modelId : String
  modelVersion : String
  deploymentId : String
  adapterId : Option String
  requestParameters : Option RequestParameters
  usage : Option Usage := none
  toolCalls : List ToolCall := []
  totalLatencyMs : ℚ
  estimatedCostMicros : Option ℕ := none
  priceListVersion : Option String
  finishReason : FinishReason
  validation : Option Validation := none
  fallbackReason : Option Reason
  errorCode : Option ErrorCode := none
  deriving DecidableEq

/-- The default is within the bounds. -/
theorem two_attempts : 1 ≤ 2 ∧ 2 ≤ 8 := by decide

/-- What a `RoutePolicy` says about executing a chain. -/
structure RoutePolicy where
  qualityThreshold : ℚ := 9 / 10
  routerConfidenceThreshold : ℚ := 85 / 100
  oodThresholdMax : ℚ := 15 / 100
  maxAttempts : ℕ := 2
  hardFallbackOn : List Reason := [.validationFailure, .endpointError, .deadlineRisk,
    .policyUncertainty, .unsupportedTool, .circuitOpen]
  breaker : BreakerThresholds := {}
  attempts_bounds : 1 ≤ maxAttempts ∧ maxAttempts ≤ 8 := by first | exact two_attempts | decide

/-- What a `PolicyDecision` says about processing. -/
structure PolicyDecision where
  processingAllowed : Bool := true
  residency : String := "local"
  deriving DecidableEq, Repr

/-- The default is within the bound. -/
theorem default_cost_le : 20000 ≤ 1000000 := by decide

/-- `RoutingOptions`, with the bound of its field. -/
structure RoutingOptions where
  maxCostMicros : ℕ := 20000
  cost_bound : maxCostMicros ≤ 1000000 := by first | exact default_cost_le | decide
  deriving DecidableEq

end AdaptiveLlm
