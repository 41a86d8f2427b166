import AdaptiveLlm.Contracts.Routes
import AdaptiveLlm.Lib.Except
import Mathlib.Data.List.Sort
import Mathlib.Data.String.Basic

set_option autoImplicit false

/-! # Control of live routing

`SQLiteRoutePolicies` (`routing/control.py`) over the tables of `migrations/control/0009` and `0010`,
for the one environment of the store: immutable policies, the row of the active one with its
disablements, and the audit. Each operation is one transaction; the new state or the error alone.

The registry, the clock and `uid()` are parameters of a call.

The state is the tables, and every operation reads them anew. The validity of a policy is part of
its type, the audit is only appended to, and the row of the active policy is replaced as a whole. A
call of the control plane is an operation with its arguments and services (`ControlCall`), and a run
is a list of them, in which a failed call changes nothing. -/

namespace AdaptiveLlm

namespace RouteControl

/-- How a call of the control plane can be refused. -/
inductive ControlError where
  | operatorRequired
  | datasetTenantForbidden
  | environmentForbidden
  | foundationFallbackUnavailable
  | routeTenantUnavailable
  | shadowStateRequired
  | canaryFractionExceeded
  | promotedRouterRequired
  | immutableRoutePolicy
  | routePolicyNotFound
  | activationScopeInvalid
  | disablementLimit
  /-- of the registry -/
  | modelNotFound
  /-- a failed assertion, and a note that does not validate -/
  | invalid
  deriving DecidableEq, Repr

/-- A result, or an error that changes nothing. -/
abbrev ControlResult (α : Type) := Except ControlError α

/-- Fails with `error` unless the condition holds. -/
def check (condition : Bool) (error : ControlError) : ControlResult Unit :=
  if condition then .ok () else .error error

/-! ## Tables -/

/-- A stored policy with the scope it was made for. -/
structure StoredPolicy where
  environment : String
  tenantIds : List String
  actor : String
  data : LivePolicy

/-- The row of `route_policy_active`. -/
structure ActiveRow where
  policyId : Option String := none
  killSwitch : Bool := false
  disabledTenants : List String := []
  disabledTasks : List String := []
  disabledSpecialists : List String := []
  deriving DecidableEq

/-- The row of `route_policy_history`. -/
structure ControlHistory where
  transitionId : String
  environment : String
  policyId : Option String
  actor : String
  reason : String
  action : String
  deriving DecidableEq

/-- The states a `DeploymentChanged` of the control plane reports. -/
inductive RouteState where
  | active
  | enabled
  | disabled
  deriving DecidableEq, Repr

/-- The state as an event writes it. -/
def RouteState.text : RouteState → String
  | .active => "active"
  | .enabled => "enabled"
  | .disabled => "disabled"

/-- `DeploymentChanged` of a control operation. -/
structure RouteChanged where
  deploymentId : String
  modelVersion : String
  newState : RouteState
  actorId : String
  reason : String
  deriving DecidableEq

/-- What a measured rollback records. -/
structure RollbackMeasurement where
  policyId : String
  version : String
  breachReasons : List String
  deriving DecidableEq

/-- The tables of the route control. -/
structure ControlState where
  policies : List StoredPolicy := []
  active : Option ActiveRow := none
  history : List ControlHistory := []
  measurements : List RollbackMeasurement := []
  outbox : List (OutboxRow String RouteChanged) := []

/-- The fields of the store that do not change. -/
structure ControlSettings where
  environment : String
  foundationId : String
  /-- sorted -/
  tenants : List String

/-- What a call meets outside: the registry's models and the ids of `uid()`, numbered. -/
structure ControlServices where
  model : String → ControlIdentity → ControlResult RoutedModel
  uid : ℕ → String

namespace ControlState

variable (cfg : ControlSettings) (sv : ControlServices) (s : ControlState)

/-! ## Checks -/

/-- `_authorize`. -/
def authorize (identity : ControlIdentity) (tenants : List String) : ControlResult Unit := do
  check (identity.keyClass = .operator) .operatorRequired
  check (tenants.all (· ∈ identity.datasetTenants)) .datasetTenantForbidden
  check (identity.environment = cfg.environment && identity.subjectIdPseudonymous.isSome)
    .environmentForbidden

/-- The checks of `_validate` on one eligible version. -/
def validateSpecialist (policy : LivePolicy) (identity : ControlIdentity) (version : String) :
    ControlResult Unit := do
  let model ← sv.model version identity
  check (model.adapterArchitecture ≠ "router-logistic-v1" &&
    model.state ∈ [LifecycleState.shadow, .canary, .production]) .shadowStateRequired
  check (model.state = .production || policy.canary.trafficFraction ≤ canaryFractionMax)
    .canaryFractionExceeded

/-- The checks of `_validate` on the router. -/
def validateRouter (identity : ControlIdentity) (version : String) : ControlResult Unit := do
  let router ← sv.model version identity
  check (router.adapterArchitecture = "router-logistic-v1" &&
    router.state ∈ [LifecycleState.approved, .shadow, .canary, .production]) .promotedRouterRequired

/-- `_validate`. -/
def validate (policy : LivePolicy) (identity : ControlIdentity) : ControlResult Unit := do
  authorize cfg identity (policy.tenantEnabled.map (·.1))
  check (policy.foundationFallback = cfg.foundationId) .foundationFallbackUnavailable
  check (policy.tenantEnabled.all (·.1 ∈ cfg.tenants)) .routeTenantUnavailable
  policy.eligibleSpecialistVersions.forM (validateSpecialist sv policy identity)
  match policy.routerVersion with
  | none => .ok ()
  | some version => validateRouter sv identity version

/-! ## Policies -/

/-- `create`. -/
def create (policy : LivePolicy) (identity : ControlIdentity) : ControlResult ControlState := do
  validate cfg sv policy identity
  check (s.policies.all (·.data.policyId ≠ policy.policyId)) .immutableRoutePolicy
  .ok { s with
    policies := s.policies ++ [{
      environment := cfg.environment
      tenantIds := (policy.tenantEnabled.map (·.1)).insertionSort (· ≤ ·)
      actor := identity.subjectIdPseudonymous.getD ""
      data := policy }] }

/-- `get`. -/
def get (policyId : String) (identity : ControlIdentity) : ControlResult LivePolicy := do
  authorize cfg identity []
  match s.policies.find? fun row =>
    row.data.policyId = policyId && row.environment = cfg.environment with
  | none => .error .routePolicyNotFound
  | some row =>
    if row.tenantIds.all (· ∈ identity.datasetTenants) then .ok row.data
    else .error .routePolicyNotFound

/-- `_ensure_pointer`, and the row that is there then. -/
def pointer : ActiveRow := s.active.getD {}

/-- The snapshot of the row that `snapshot` selects, and of the policy it points to. -/
def routeSnapshot : RouteSnapshot :=
  match s.active with
  | none => {}
  | some row =>
    { policy := row.policyId.bind fun policyId =>
        (s.policies.find? (·.data.policyId = policyId)).map (·.data)
      killed := row.killSwitch
      disabledTenants := row.disabledTenants
      disabledTasks := row.disabledTasks
      disabledSpecialists := row.disabledSpecialists }

/-! ## The audit -/

/-- The scope of a note, as the audit names it. -/
def scopeText (note : RouteControlNote) : String :=
  ((note.tenantId.orElse fun _ => note.task).orElse fun _ => note.specialistVersion).getD
    "environment"

/-- `_audit`. -/
def audit (identity : ControlIdentity) (note : RouteControlNote) (policyId : Option String)
    (action : String) (state : RouteState) : ControlResult ControlState :=
  match identity.subjectIdPseudonymous with
  | none => .error .invalid
  | some actor =>
    let tenants := match note.tenantId with
      | some tenant => [tenant]
      | none => cfg.tenants
    let events : List (Event String RouteChanged) := tenants.mapIdx fun k tenant =>
      { eventId := sv.uid (k + 2)
        eventType := .deploymentChanged
        tenantId := tenant
        traceId := sv.uid 1
        data :=
          { deploymentId := note.specialistVersion.getD "route_policy"
            modelVersion := (note.specialistVersion.orElse fun _ => policyId).getD "none"
            newState := state
            actorId := actor
            reason := note.reason } }
    .ok { s with
      history := s.history ++ [{
        transitionId := sv.uid 0
        environment := cfg.environment
        policyId
        actor
        reason := note.reason
        action := action ++ ":" ++ scopeText note }]
      outbox := (enqueue 100000 s.outbox events).1 }

/-! ## Activation and switches -/

/-- `activate`. -/
def activate (policyId : String) (identity : ControlIdentity) (note : RouteControlNote) :
    ControlResult ControlState := do
  check (note.tenantId.isNone && note.task.isNone && note.specialistVersion.isNone)
    .activationScopeInvalid
  authorize cfg identity cfg.tenants
  let policy ← s.get cfg policyId identity
  validate cfg sv policy identity
  { s with active := some { s.pointer with policyId := some policyId } }.audit cfg sv identity note
    (some policyId) "activate" .active

/-- The values of a column with one added or discarded, sorted. -/
def updateValues (disabled : Bool) (value : String) (values : List String) : List String :=
  let values := values.dedup
  let values := if disabled then (if value ∈ values then values else value :: values)
    else values.filter (· ≠ value)
  values.insertionSort (· ≤ ·)

/-- The update of one column in `switch`. -/
def switchColumn (disabled : Bool) (value : String) (values : List String) :
    ControlResult (List String) := do
  let values := updateValues disabled value values
  check (values.length ≤ 100) .disablementLimit
  .ok values

/-- The row after a switch of the note's scope. -/
def switchRow (row : ActiveRow) (disabled : Bool) (note : RouteControlNote) :
    ControlResult ActiveRow :=
  match note.tenantId, note.task, note.specialistVersion with
  | some tenant, _, _ => do
    let disabledTenants ← switchColumn disabled tenant row.disabledTenants
    .ok { row with disabledTenants }
  | none, some task, _ => do
    let disabledTasks ← switchColumn disabled task row.disabledTasks
    .ok { row with disabledTasks }
  | none, none, some version => do
    let disabledSpecialists ← switchColumn disabled version row.disabledSpecialists
    .ok { row with disabledSpecialists }
  | none, none, none => .ok { row with killSwitch := disabled }

/-- `switch`, up to the snapshot it returns. -/
def switch (disabled : Bool) (identity : ControlIdentity) (note : RouteControlNote) :
    ControlResult ControlState := do
  authorize cfg identity (match note.tenantId with
    | some tenant => [tenant]
    | none => cfg.tenants)
  check (note.tenantId.all (· ∈ cfg.tenants)) .routeTenantUnavailable
  let row ← switchRow s.pointer disabled note
  { s with active := some row }.audit cfg sv identity note row.policyId
    (if disabled then "disable" else "enable") (if disabled then .disabled else .enabled)

/-! ## Automatic disablement -/

/-- The note of an automatic disablement. -/
def rollbackNote (version : String) (breachReasons : List String) : ControlResult RouteControlNote :=
  let reason := "automatic_rollback:" ++ ",".intercalate breachReasons
  if h : Python.isBlank reason = false ∧ reason.length ≤ 2000 then
    .ok { reason, specialistVersion := some version, nonblank := h.1, length_le := h.2,
          one_scope := by simp }
  else .error .invalid

/-- The two writes of `automatic_disable`. -/
def disableSpecialist (row : ActiveRow) (policyId version : String) (breachReasons : List String) :
    ControlState :=
  { s with
    active := some { row with
      disabledSpecialists := updateValues true version row.disabledSpecialists }
    measurements := s.measurements ++
      [{ policyId := policyId, version := version, breachReasons := breachReasons }] }

/-- `automatic_disable`, and whether it had an effect. -/
def automaticDisable (policyId version : String) (breachReasons : List String)
    (identity : ControlIdentity) : ControlResult (Bool × ControlState) :=
  match s.active with
  | none => .ok (false, s)
  | some row =>
    if breachReasons = [] ∨ row.policyId ≠ some policyId ∨ version ∈ row.disabledSpecialists then
      .ok (false, s)
    else do
      let model ← sv.model version identity
      if model.state ∉ [LifecycleState.canary, .production] then .ok (false, s)
      else do
        let note ← rollbackNote version breachReasons
        let s ← (s.disableSpecialist row policyId version breachReasons).audit cfg sv identity note
          (some policyId) "automatic_disable" .disabled
        .ok (true, s)

end ControlState

/-! ## Calls -/

/-- A call of the operations above. -/
inductive ControlCall where
  | create (policy : LivePolicy) (identity : ControlIdentity)
  | activate (policyId : String) (identity : ControlIdentity) (note : RouteControlNote)
  | switch (disabled : Bool) (identity : ControlIdentity) (note : RouteControlNote)
  | automaticDisable (policyId version : String) (breachReasons : List String)
      (identity : ControlIdentity)

/-- What a call does after its transaction: an automatic disablement without effect and `create`
    return, a `switch` ends with a call of `snapshot`. -/
inductive Continuation where
  | return
  | invalidate
  | invalidateAndSnapshot
  deriving DecidableEq

/-- The transaction of a call. -/
def ControlCall.transact (cfg : ControlSettings) (sv : ControlServices) (s : ControlState) :
    ControlCall → ControlResult (Continuation × ControlState)
  | .create policy identity => (s.create cfg sv policy identity).map (.return, ·)
  | .activate policyId identity note =>
    (s.activate cfg sv policyId identity note).map (.invalidate, ·)
  | .switch disabled identity note =>
    (s.switch cfg sv disabled identity note).map (.invalidateAndSnapshot, ·)
  | .automaticDisable policyId version breachReasons identity =>
    (s.automaticDisable cfg sv policyId version breachReasons identity).map fun (effective, s) =>
      (if effective then .invalidate else .return, s)

end RouteControl

end AdaptiveLlm
