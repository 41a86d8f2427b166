import AdaptiveLlm.Contracts.Routes
import AdaptiveLlm.Lib.Except
import AdaptiveLlm.Python.Float
import AdaptiveLlm.Routing.Chain
import Mathlib.Data.List.Sort
import Mathlib.Data.Prod.Lex
import Mathlib.Data.String.Basic

set_option autoImplicit false

/-! # The live planner

`routing/live.py`: hard admission of the eligible specialists, the router's estimates for those that
pass, and the choice of the cheapest one, before the foundation.

What a call of `plan` meets is a `PlanTurn`: the snapshots, manifests, artifacts and breakers as they
are when it asks for them, with nothing assumed between one answer and the next. Providers `π`,
features `φ` and routers `ρ` are of any kind. Metrics are outputs only.

The order of the checks is the source's, since the reason under which a version is left out is the
first that applies. A candidate is made in stages: manifest, artifacts, rollout, hard checks,
estimates, soft checks. What is asked may raise at every stage, and this is an answer like the
others, with a branch of its own in the model. -/

namespace AdaptiveLlm

/-- What a deployment costs for a request. -/
def Deployment.quote (deployment : Deployment) (request : ProviderRequest) : ℕ :=
  deployment.priceList.estimate request.inputTokens request.maxOutputTokens

namespace Live

/-- What the steps of the live path raise: a `KeyError` of `_manifests`, `live_router_changed`, or an
    exception of what they call. -/
inductive LiveError where
  | manifestMissing
  | routerChanged
  | raised
  deriving DecidableEq, Repr

/-- A result, or an error that the planner raises. -/
abbrev LiveResult (α : Type) := Except LiveError α

/-! ## Plans -/

/-- `ExecutionCandidate` with its provider. -/
structure LiveCandidate (π : Type) extends ExecutionCandidate where
  provider : π
  hasEstimate : Bool := true

/-- `ChainPlan` with the providers, and with all it says about the policy. -/
structure LivePlan (π : Type) where
  candidates : List (LiveCandidate π)
  policy : LivePolicy
  allowLiveSpecialists : Bool := false
  fallbackReason : Option Reason := none
  considered : List (LiveCandidate π) := []

/-! ## The planner and what it meets -/

variable {π φ ρ : Type}

/-- The fields of `LivePlanner` that its calls change. A snapshot is known by the object it is. -/
structure Planner (ρ : Type) where
  snapshot : Option ℕ := none
  manifests : List (String × RoutedModel) := []
  /-- keyed by version and artifact digest, the least recently used first -/
  routers : List ((String × String) × RoutedModel × ρ) := []

/-- The answers during one call. -/
structure PlanTurn (π φ ρ : Type) where
  /-- the three reads of the store: by `FoundationPlanner`, at the start of the live path and after
      the estimates -/
  foundationSnapshot : LiveResult RouteSnapshot
  firstSnapshot : LiveResult (ℕ × RouteSnapshot)
  latestSnapshot : LiveResult (ℕ × RouteSnapshot)
  /-- `registry.get` for the manifests, and again after a cold load -/
  manifest : String → LiveResult RoutedModel
  latestManifest : String → LiveResult RoutedModel
  /-- the verified `router.json` of an artifact -/
  readRouter : RoutedModel → LiveResult ρ
  estimate : ρ → φ → String → LiveResult Estimate
  /-- the breakers at the check of a version, and their clock -/
  breakers : String → CircuitBreakers
  breakerClock : String → ℚ
  load : String → LiveResult π

/-- What does not change: the provider of the foundation, the keyed hash of the keyring, SHA-256 as
    an integer. -/
structure PlannerSettings (π : Type) where
  provider : π
  pseudonym : String → String → String
  sha256 : String → ℕ

section Plan

variable (cfg : PlannerSettings π) (turn : PlanTurn π φ ρ) (selection : RouteSelection φ)

/-! ## The foundation -/

/-- The candidate that is always there. -/
def foundationCandidate : LiveCandidate π where
  deployment := selection.deployment
  provider := cfg.provider

/-- `FoundationPlanner.plan`. -/
def foundationPlan (options : PlanOptions) : LivePlan π :=
  let snapshot := match turn.foundationSnapshot with
    | .ok snapshot => snapshot
    | .error _ => { killed := true }
  { candidates := [foundationCandidate cfg selection]
    policy := snapshot.policy.getD
      { policyId := "foundation-only", foundationFallback := selection.deployment.modelDeploymentId }
    fallbackReason := if options.mode = .specialist then some .liveSpecialistsDisabled else none }

/-! ## Manifests and routers -/

/-- `_refresh_manifests`. -/
def refreshManifests (planner : Planner ρ) (object : ℕ) (policy : LivePolicy)
    (routerVersion : String) : LiveResult (Planner ρ) :=
  if planner.snapshot = some object then .ok planner
  else do
    let manifests ← (routerVersion :: policy.eligibleSpecialistVersions).mapM fun version => do
      let model ← turn.manifest version
      .ok (version, model)
    .ok
      { snapshot := some object
        manifests
        routers := planner.routers.filter fun (key, verified, _) =>
          match manifests.lookup key.1 with
          | none => true
          | some current => current.artifactDigest = key.2 && current.state = verified.state }

/-- `self._manifests[version]`. -/
def Planner.manifest (planner : Planner ρ) (version : String) : LiveResult RoutedModel :=
  match planner.manifests.lookup version with
  | some model => .ok model
  | none => .error .manifestMissing

/-- `_router`. -/
def router (planner : Planner ρ) (manifest : RoutedModel) : LiveResult (ρ × Planner ρ) :=
  let key := (manifest.version, manifest.artifactDigest)
  match planner.routers.lookup key with
  | some cached =>
    .ok (cached.2, { planner with
      routers := planner.routers.filter (·.1 ≠ key) ++ [(key, cached)] })
  | none => do
    let router ← turn.readRouter manifest
    let latest ← turn.latestManifest manifest.version
    if latest ≠ manifest then .error .routerChanged
    else
      let routers := planner.routers ++ [(key, manifest, router)]
      .ok (router, { planner with
        routers := if routers.length > 8 then routers.tail else routers })

/-! ## Candidates -/

/-- `assigned`. -/
def assigned (interactionId : String) (policy : LivePolicy) : Bool :=
  Python.float (cfg.sha256 (interactionId ++ ":" ++ policy.policyId) / 2 ^ 256) <
    policy.canary.trafficFraction

/-- The hard checks of a specialist. -/
def hardRejection (policy : LivePolicy) (snapshot : RouteSnapshot) (tenantId : String)
    (request : ProviderRequest) (decision : PolicyDecision) (version : String)
    (model : RoutedModel) : Option Reason :=
  if version ∈ snapshot.disabledSpecialists then some .deploymentDisabled
  else if model.state ∉ [LifecycleState.canary, .production] then some .stateIneligible
  else if ¬decision.processingAllowed ∨ model.processingRegion ≠ decision.residency then
    some .policyUncertainty
  else if tenantId ∉ model.tenantIds then some .policyUncertainty
  else if "text" ∉ model.modalities then some .unsupportedModality
  else if request.inputTokens + request.maxOutputTokens > model.contextLimit then
    some .contextLength
  else if ¬((turn.breakers version).available version policy.breaker (turn.breakerClock version)).1
  then some .circuitOpen
  else if model.state = .canary ∧ policy.canary.trafficFraction > canaryFractionMax then
    some .canaryNotAssigned
  else if policy.canary.tenantAllowlist ≠ [] ∧
      cfg.pseudonym tenantId "canary-tenant" ∉ policy.canary.tenantAllowlist then
    some .canaryNotAssigned
  else if ¬assigned cfg selection.interactionId policy then some .canaryNotAssigned
  else none

/-- The deployment of a specialist. -/
def specialistDeployment (version : String) (model : RoutedModel) : Deployment :=
  { selection.deployment with
    modelDeploymentId := version
    modelProvider := "local-specialist"
    modelId := model.baseModelId
    modelVersion := model.version
    processingRegion := model.processingRegion
    priceList :=
      { version := "model-" ++ version
        inputMicrosPer1000Tokens := model.inputMicrosPer1000Tokens
        outputMicrosPer1000Tokens := model.outputMicrosPer1000Tokens } }

/-- The checks on the estimate, and the price. -/
def softRejection (policy : LivePolicy) (request : ProviderRequest) (deployment : Deployment)
    (estimate : Estimate) : Option Reason :=
  if estimate.ood > policy.oodThresholdMax then some .outOfDistribution
  else if estimate.suitability < policy.qualityThreshold then some .lowQuality
  else if estimate.confidence < policy.routerConfidenceThreshold then some .lowConfidence
  else if deployment.quote request > selection.deployment.quote request then some .notCheapest
  else none

/-- The candidate of one eligible version. -/
def consider (planner : Planner ρ) (policy : LivePolicy) (snapshot : RouteSnapshot)
    (tenantId : String) (request : ProviderRequest) (features : φ) (decision : PolicyDecision)
    (router : ρ) (version : String) : LiveResult (LiveCandidate π) := do
  let model ← planner.manifest version
  let reason := hardRejection cfg turn selection policy snapshot tenantId request decision version
    model
  let deployment := specialistDeployment selection version model
  let candidate : LiveCandidate π :=
    { deployment
      provider := cfg.provider
      specialist := true
      rejectionReason := reason
      contextLimit := model.contextLimit
      hasEstimate := false }
  match reason with
  | some _ => .ok candidate
  | none => do
    let estimate ← turn.estimate router features version
    let candidate := { candidate with
      quality := estimate.suitability
      confidence := estimate.confidence
      oodScore := estimate.ood
      estimatedLatencyMs := estimate.latencyMs
      hasEstimate := true }
    match softRejection selection policy request deployment estimate with
    | some reason => .ok { candidate with rejectionReason := some reason }
    | none => do
      let provider ← turn.load version
      .ok { candidate with provider }

/-! ## The choice -/

/-- The key of the sort. -/
def sortKey (request : ProviderRequest) (c : LiveCandidate π) : ℕ ×ₗ String :=
  toLex (c.deployment.quote request, c.name)

/-- The candidates once the specialists that were disabled meanwhile are marked. -/
def markDisabled (latest : RouteSnapshot) (c : LiveCandidate π) : LiveCandidate π :=
  if c.name ∈ latest.disabledSpecialists then
    { c with rejectionReason := some .deploymentDisabled }
  else c

/-- The loop that leaves one candidate without a reason. -/
def markUnselected (selected : Bool) : List (LiveCandidate π) → List (LiveCandidate π)
  | [] => []
  | c :: rest =>
    if c.rejectionReason = none then
      (if selected then { c with rejectionReason := some .notSelected } else c) ::
        markUnselected true rest
    else c :: markUnselected selected rest

/-- The end of `_live`. -/
def choose (foundation : LivePlan π) (policy : LivePolicy) (latest : RouteSnapshot)
    (candidates : List (LiveCandidate π)) : LivePlan π :=
  let candidates := markUnselected false (candidates.map (markDisabled latest))
  let chosen := candidates.filter (·.rejectionReason = none)
  let reason := (candidates.find? (·.rejectionReason = some .outOfDistribution)).bind
    (·.rejectionReason)
  let reason := if chosen = [] ∧ reason = none then
      match candidates with
      | [] => some .lowConfidence
      | c :: _ => c.rejectionReason
    else reason
  { candidates := chosen ++ foundation.candidates
    policy
    allowLiveSpecialists := true
    fallbackReason := if chosen = [] then reason else none
    considered := candidates ++ foundation.candidates }

/-- The router may serve the tenant. -/
def routerAdmitted (tenantId : String) (manifest : RoutedModel) : Bool :=
  manifest.state ∈ [LifecycleState.approved, .shadow, .canary, .production] &&
    manifest.adapterArchitecture = "router-logistic-v1" && tenantId ∈ manifest.tenantIds

/-- `_live` from the manifests on. -/
def planSpecialists (planner : Planner ρ) (foundation : LivePlan π) (policy : LivePolicy)
    (snapshot : RouteSnapshot) (tenantId task : String) (request : ProviderRequest) (features : φ)
    (decision : PolicyDecision) (routerVersion : String) : LiveResult (LivePlan π × Planner ρ) := do
  let manifest ← planner.manifest routerVersion
  if !routerAdmitted tenantId manifest then
    .ok ({ foundation with fallbackReason := some .policyUncertainty }, planner)
  else
    let (router, planner) ← router turn planner manifest
    let candidates ← policy.eligibleSpecialistVersions.mapM
      (consider cfg turn selection planner policy snapshot tenantId request features decision router)
    let (_, latest) ← turn.latestSnapshot
    if latest.policy ≠ some policy ∨ !latest.enabled tenantId task then
      .ok ({ foundation with fallbackReason := some .liveSpecialistsDisabled }, planner)
    else
      .ok (choose foundation policy latest
        (candidates.insertionSort fun a b => sortKey request a ≤ sortKey request b), planner)

/-- `_live`. -/
def live (planner : Planner ρ) (foundation : LivePlan π) (tenantId task : String) :
    LiveResult (LivePlan π × Planner ρ) := do
  let (object, snapshot) ← turn.firstSnapshot
  match snapshot.policy with
  | none => .ok (foundation, planner)
  | some policy =>
    if !policy.liveSpecialistsAllowed then .ok (foundation, planner)
    else if !snapshot.enabled tenantId task then
      .ok ({ foundation with fallbackReason := some .liveSpecialistsDisabled }, planner)
    else
      match selection.request, selection.features, selection.policy, policy.routerVersion with
      | some request, some features, some decision, some routerVersion => do
        let planner ← refreshManifests turn planner object policy routerVersion
        planSpecialists cfg turn selection planner foundation policy snapshot tenantId task request
          features decision routerVersion
      | _, _, _, _ => .ok ({ foundation with fallbackReason := some .policyUncertainty }, planner)

/-- `plan`. -/
def plan (planner : Planner ρ) (options : PlanOptions) (tenantId task : String) :
    LivePlan π × Planner ρ :=
  let foundation := foundationPlan cfg turn selection options
  if options.mode = .foundation then (foundation, planner)
  else
    match live cfg turn selection planner foundation tenantId task with
    | .ok result => result
    | .error _ => ({ foundation with fallbackReason := some .policyUncertainty }, {})

end Plan

end Live

end AdaptiveLlm
