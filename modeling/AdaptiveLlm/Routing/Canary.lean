import AdaptiveLlm.Evaluation.Stats
import AdaptiveLlm.Python.Float
import AdaptiveLlm.Routing.Control
import Mathlib.Data.Prod.Lex

set_option autoImplicit false

/-! # Canary reports

`outcomes`, `reduction` and `aggregate` (`routing/canary.py`), and `canary_report`
(`routing/control.py`) over the table of live observations. A time is in microseconds; its ISO text in
UTC, by which the table is read, compares as it does. An operation on floats is the exact one, rounded.

Left out are the paired bootstraps with `passed`, which the gate of a promotion reads: they raise
nothing, and no reason to disable a version depends on them.

Rates, percentiles and savings are computed on doubles, so an aggregate is a function of the rows up
to their order only because the operations that depend on order, the sums, are of integers. A report
has the aggregate of all rows, one of each critical segment and one of each version, each with both
arms and with the reasons for which it breaches a limit, in the order in which the source looks. -/

namespace AdaptiveLlm

namespace RouteControl

/-- The tiers of risk of a request. -/
inductive RiskTier where
  | low
  | medium
  | high
  deriving DecidableEq, Repr

/-- The tier as a report writes it. -/
def RiskTier.text : RiskTier → String
  | .low => "low"
  | .medium => "medium"
  | .high => "high"

/-- What a report reads of the `RoutingFeatures`. -/
structure ObservedFeatures where
  task : String
  language : String := "en"
  riskTier : RiskTier := .medium
  contextSupplied : Bool := false
  deriving DecidableEq

/-- `LiveObservation`: what is known of one interaction under a live policy. -/
structure LiveObservation where
  interactionId : String
  policyId : String
  tenantId : String
  createdAt : ℤ
  features : ObservedFeatures
  specialistVersion : Option String := none
  success : Bool
  validationFailure : Bool := false
  error : Bool := false
  criticalSafetyIncidents : ℕ := 0
  totalCostMicros : ℕ
  latencyMs : ℚ
  deriving DecidableEq

/-- `OutcomeAggregate` of a set of observations. -/
structure OutcomeAggregate where
  interactions : ℕ
  successes : ℕ
  totalCostMicros : ℕ
  costPerSuccessMicros : Option ℕ
  validationFailureRate : Option ℚ
  errorRate : Option ℚ
  p95LatencyMs : Option ℚ
  criticalSafetyIncidents : ℕ
  deriving DecidableEq

/-- The aggregates of the specialist and the foundation. -/
structure CanaryAggregate where
  specialist : OutcomeAggregate
  foundation : OutcomeAggregate
  costReductionFraction : Option ℚ
  breachReasons : List String
  triggerSegments : List String := []

/-- `CanaryReport` of a policy since a moment. -/
structure CanaryReport where
  policyId : String
  since : ℤ
  «until» : ℤ
  overall : CanaryAggregate
  criticalSegments : List (String × CanaryAggregate)
  specialists : List (String × CanaryAggregate)

/-- What a report and the monitor meet outside: the clock, the registry, the pseudonym of a tenant
    among the segments, the ids of the transaction that disables a version, and the rounding. -/
structure CanaryServices where
  clock : ℕ → ℤ
  model : String → ControlIdentity → ControlResult RoutedModel
  pseudonym : String → String
  uid : String → ℕ → String
  round : ℚ → ℚ := Python.double

section Aggregate

variable (cv : CanaryServices)

/-! ## Aggregates -/

/-- `fmean` of a flag, where there are rows. -/
def rate (flag : LiveObservation → Bool) (rows : List LiveObservation) : Option ℚ :=
  if rows = [] then none else some (cv.round ((rows.countP flag : ℚ) / rows.length))

/-- `outcomes`. -/
def outcomes (rows : List LiveObservation) : OutcomeAggregate :=
  let successes := rows.countP (·.success)
  let cost := (rows.map (·.totalCostMicros)).sum
  { interactions := rows.length
    successes
    totalCostMicros := cost
    costPerSuccessMicros := if successes = 0 then none else some ((cost + successes - 1) / successes)
    validationFailureRate := rate cv (·.validationFailure) rows
    errorRate := rate cv (·.error) rows
    p95LatencyMs := roundedPercentile cv.round (rows.map (·.latencyMs)) (cv.round (95 / 100))
    criticalSafetyIncidents := (rows.map (·.criticalSafetyIncidents)).sum }

/-- `reduction`. -/
def reduction (candidate foundation : OutcomeAggregate) : Option ℚ :=
  if candidate.successes = 0 ∨ foundation.successes = 0 ∨ foundation.totalCostMicros = 0 then none
  else some (cv.round (1 - cv.round ((candidate.totalCostMicros * foundation.successes : ℕ) /
    (foundation.totalCostMicros * candidate.successes : ℕ))))

/-- The measured values with their limits. -/
def measurements (limits : RollbackThresholds) (s : OutcomeAggregate) (savings : Option ℚ) :
    List (String × Option ℚ × ℚ) :=
  [("validation_failure_rate", s.validationFailureRate, limits.validationFailureRateMax),
    ("error_rate", s.errorRate, limits.errorRateMax),
    ("p95_latency_ms", s.p95LatencyMs, limits.p95LatencyMsMax),
    ("cost_ratio", savings.map fun savings => cv.round (1 - savings), limits.costRatioMax)]

/-- `aggregate`. -/
def aggregate (rows : List LiveObservation) (limits : RollbackThresholds) : CanaryAggregate :=
  let s := outcomes cv (rows.filter (·.specialistVersion.isSome))
  let f := outcomes cv (rows.filter (·.specialistVersion.isNone))
  let savings := reduction cv s f
  { specialist := s
    foundation := f
    costReductionFraction := savings
    breachReasons :=
      (if s.criticalSafetyIncidents ≠ 0 then ["critical_safety_incident"] else []) ++
      if s.interactions ≥ limits.minimumSamples then
        (measurements cv limits s savings).filterMap fun (name, value, maximum) =>
          if value.any (· > maximum) then some name else none
      else [] }

/-! ## Reports -/

/-- `labels`. -/
def labels (row : LiveObservation) : List String :=
  ["task." ++ row.features.task ++ ".risk." ++ row.features.riskTier.text,
    "language." ++ row.features.language,
    if row.features.contextSupplied then "citation" else "no_context",
    "tenant." ++ cv.pseudonym row.tenantId]

/-- The sorted labels of the rows. -/
def segmentKeys (rows : List LiveObservation) : List String :=
  (rows.flatMap (labels cv)).dedup.insertionSort (· ≤ ·)

/-- The rows of a segment. -/
def segment (key : String) (rows : List LiveObservation) : List LiveObservation :=
  rows.filter fun row => key ∈ labels cv row

/-- The rows of a version and those of the foundation. -/
def versionRows (version : String) (rows : List LiveObservation) : List LiveObservation :=
  rows.filter fun row => row.specialistVersion = none ∨ row.specialistVersion = some version

/-- The entry of a version in `specialists`. -/
def measureVersion (policy : LivePolicy) (rows : List LiveObservation) (version : String) :
    CanaryAggregate :=
  let measurement := aggregate cv (versionRows version rows) policy.rollback
  let segments := (segmentKeys cv rows).map fun key =>
    (key, aggregate cv (segment cv key (versionRows version rows)) policy.rollback)
  { measurement with
    breachReasons := (measurement.breachReasons ++
      segments.flatMap fun (_, value) => value.breachReasons).dedup.insertionSort (· ≤ ·)
    triggerSegments := (segments.filter fun (_, value) => value.breachReasons ≠ []).map (·.1) }

/-- What the table holds of a policy from `since` to `until`, in its order. -/
def selectRows (observations : List LiveObservation) (policyId : String) (since «until» : ℤ) :
    List LiveObservation :=
  (observations.filter fun row =>
    row.policyId = policyId && row.createdAt ≥ since && row.createdAt ≤ «until»).insertionSort
      fun a b => toLex (a.createdAt, a.interactionId) ≤ toLex (b.createdAt, b.interactionId)

/-- `canary_report`. -/
def ControlState.canaryReport (cfg : ControlSettings) (s : ControlState)
    (observations : List LiveObservation) (policyId : String) (since : ℤ)
    (identity : ControlIdentity) : ControlResult CanaryReport := do
  let policy ← s.get cfg policyId identity
  let rows := (selectRows observations policyId since (cv.clock 1)).filter
    (·.tenantId ∈ identity.datasetTenants)
  .ok
    { policyId
      since
      «until» := cv.clock 1
      overall := aggregate cv rows policy.rollback
      criticalSegments := (segmentKeys cv rows).map fun key =>
        (key, aggregate cv (segment cv key rows) policy.rollback)
      specialists := policy.eligibleSpecialistVersions.map fun version =>
        (version, measureVersion cv policy rows version) }

end Aggregate

/-! ## The monitor -/

/-- The services of the transaction that disables a version. -/
def CanaryServices.control (cv : CanaryServices) (version : String) : ControlServices :=
  { model := cv.model, uid := cv.uid version }

/-- The loop of `work_once`, over what the report says of the specialists. An exception ends it, and
    leaves what the transactions before it have committed. -/
def disableBreaching (cfg : ControlSettings) (cv : CanaryServices) (snapshot : RouteSnapshot)
    (policyId : String) (identity : ControlIdentity) :
    List (String × CanaryAggregate) → ControlState → Option ControlError × ControlState
  | [], s => (none, s)
  | (version, measurement) :: rest, s =>
    if version ∉ snapshot.disabledSpecialists ∧ measurement.breachReasons ≠ [] then
      match s.automaticDisable cfg (cv.control version) policyId version measurement.breachReasons
          identity with
      | .error error => (some error, s)
      | .ok (_, s) => disableBreaching cfg cv snapshot policyId identity rest s
    else disableBreaching cfg cv snapshot policyId identity rest s

/-- `timedelta(seconds=window_seconds)`. -/
def windowLength (policy : LivePolicy) : ℤ :=
  Python.roundHalfEven (policy.rollback.windowSeconds * 1000000)

/-- `CanaryMonitor.work_once`, with the snapshot that it gets; the error is the exception that ends it. -/
def workOnce (cfg : ControlSettings) (cv : CanaryServices) (observations : List LiveObservation)
    (identity : ControlIdentity) (snapshot : RouteSnapshot) (s : ControlState) :
    Option ControlError × ControlState :=
  match snapshot.policy with
  | none => (none, s)
  | some policy =>
    if !policy.liveSpecialistsAllowed || snapshot.killed then (none, s)
    else
      match s.canaryReport cv cfg observations policy.policyId (cv.clock 0 - windowLength policy)
          identity with
      | .error error => (some error, s)
      | .ok report => disableBreaching cfg cv snapshot policy.policyId identity report.specialists s

end RouteControl

end AdaptiveLlm
