import AdaptiveLlm.Contracts.Attempts
import AdaptiveLlm.Contracts.Models

set_option autoImplicit false

/-! # Contracts of live routing

Route policies as the control plane stores them, the notes of operators, and what the planner reads of
a registered model. Numbers that pydantic requires to be finite are exact rationals.

A policy that names a specialist twice, or allows live specialists without a router, cannot be
built: the checks of its validators are fields. The notes of operators keep theirs too, which ask
for a reason and allow one scope at most. The control plane of `Routing/Control.lean` stores these
records, and the planner of `Routing/Live.lean` and the monitor of `Routing/CanaryMonitor.lean` read
them. -/

namespace AdaptiveLlm

deriving instance DecidableEq for BreakerThresholds, RoutePolicy

/-- The default is within the bounds. -/
theorem default_fraction : (0 : ℚ) ≤ 0 ∧ (0 : ℚ) ≤ 1 := by norm_num

/-- `CanaryConfig`. -/
structure CanaryConfig where
  trafficFraction : ℚ := 0
  tenantAllowlist : List String := []
  fraction_bounds : 0 ≤ trafficFraction ∧ trafficFraction ≤ 1 := by
    first | exact default_fraction | norm_num
  deriving DecidableEq

/-- The float `0.05`. -/
def canaryFractionMax : ℚ := 3602879701896397 / 2 ^ 56

/-- `RollbackThresholds`, without the monitor's interval. -/
structure RollbackThresholds where
  windowSeconds : ℚ := 300
  minimumSamples : ℕ := 4
  nonInferiorityMargin : ℚ := 2 / 100
  validationFailureRateMax : ℚ := 0
  errorRateMax : ℚ := 0
  p95LatencyMsMax : ℚ := 5000
  costRatioMax : ℚ := 1
  deriving DecidableEq

/-- Without live specialists no router is needed. -/
theorem no_live_router : false = true → (none : Option String).isSome = true := by simp

/-- A `RoutePolicy` with all it says about live routing. -/
structure LivePolicy extends RoutePolicy where
  policyId : String
  eligibleSpecialistVersions : List String := []
  foundationFallback : String := "fake-foundation-local-1"
  tenantEnabled : List (String × Bool) := []
  taskEnabled : List (String × Bool) := []
  killSwitch : Bool := false
  liveSpecialistsAllowed : Bool := false
  routerVersion : Option String := none
  canary : CanaryConfig := {}
  rollback : RollbackThresholds := {}
  unique_specialists : eligibleSpecialistVersions.Nodup := by first | exact List.nodup_nil | simp
  promoted_router : liveSpecialistsAllowed = true → routerVersion.isSome = true := by
    first | exact no_live_router | simp
  deriving DecidableEq

/-- `RouteControlNote`: it names one scope at most. -/
structure RouteControlNote where
  reason : String
  tenantId : Option String := none
  task : Option String := none
  specialistVersion : Option String := none
  nonblank : Python.isBlank reason = false
  length_le : reason.length ≤ 2000
  one_scope : [tenantId, task, specialistVersion].countP (·.isSome) ≤ 1

/-- A model with what routing reads of its manifest; `rest` stands for the other fields. -/
structure RoutedModel extends ModelManifest where
  baseModelId : String
  processingRegion : String := "local"
  modalities : List String := ["text"]
  contextLimit : ℕ := 4096
  inputMicrosPer1000Tokens : ℕ := 1000
  outputMicrosPer1000Tokens : ℕ := 2000
  rest : String := ""
  deriving DecidableEq

/-- `RouteSnapshot`. -/
structure RouteSnapshot where
  policy : Option LivePolicy := none
  killed : Bool := false
  disabledTenants : List String := []
  disabledTasks : List String := []
  disabledSpecialists : List String := []

/-- `enabled`. -/
def RouteSnapshot.enabled (s : RouteSnapshot) (tenant task : String) : Bool :=
  match s.policy with
  | none => false
  | some p => !s.killed && !p.killSwitch && tenant ∉ s.disabledTenants && task ∉ s.disabledTasks &&
      (p.tenantEnabled.lookup tenant).getD false && (p.taskEnabled.lookup task).getD false

/-- The caller of a control operation. -/
structure ControlIdentity extends Identity where
  tenantId : String
  environment : String
  deriving DecidableEq

/-! ## Requests to the planner -/

/-- The `mode` of `RoutingOptions`. -/
inductive RoutingMode where
  | auto
  | foundation
  | specialist
  deriving DecidableEq, Repr

/-- The options of a request that the planner reads. -/
structure PlanOptions extends RoutingOptions where
  mode : RoutingMode := .auto

/-- `RouteSelection`, with features of any kind. -/
structure RouteSelection (φ : Type) where
  interactionId : String
  deployment : Deployment
  features : Option φ := none
  request : Option ProviderRequest := none
  policy : Option PolicyDecision := none

/-- `Estimate` of a router. -/
structure Estimate where
  suitability : ℚ
  confidence : ℚ
  ood : ℚ
  latencyMs : ℚ
  deriving DecidableEq

end AdaptiveLlm
