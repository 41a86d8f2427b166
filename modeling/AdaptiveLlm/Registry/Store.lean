import AdaptiveLlm.Lib.Except
import AdaptiveLlm.Registry.State
import Mathlib.Data.List.Sort
import Mathlib.Logic.Function.Basic

set_option autoImplicit false

/-! # The model registry

`registry/sqlite.py` over the control database: training jobs, model versions, their lifecycle
transitions, deployment pointers, evaluation reports and the outbox. Every method is one transaction
on a `Registry`; an error rolls it back, so a method returns the new registry or the error alone.

What the methods ask of other code (signatures, artifact files, gates) is answered by the
`RegistryChecks` of the call, on which nothing is assumed. `uid()` hands out `nextUid`.

The methods are written as the source has them, with their checks in the same order, so the first
error is the source's. Rows of a table are functions from keys where the table has a primary key,
and lists where order matters, as with histories and the outbox. What a successful call has done is
said once for each kind of call in `Registry/Transitions.lean`. -/

namespace AdaptiveLlm

/-! ## The tables

The tables of the control database that the registry works on, with the outbox. A method is a
function of the tables that either fails, and then nothing is written, or gives the tables after its
commit. -/

/-- A row of `training_jobs`, with the tenants it is read for. -/
structure JobRow where
  tenantIds : List String
  job : TrainingJob
  deriving DecidableEq

/-- A row of `lifecycle_transitions`. -/
structure TransitionRow where
  transitionId : ℕ
  modelVersion : String
  data : LifecycleTransition
  deriving DecidableEq

/-- A row of `deployments`. -/
structure DeploymentRow where
  currentVersion : String
  previousVersion : Option String
  deriving DecidableEq, Repr

/-- The tables of the registry. -/
structure Registry where
  trainingJobs : String → Option JobRow := fun _ => none
  trainingSubmitters : String → Option Identity := fun _ => none
  modelVersions : String → Option ModelManifest := fun _ => none
  lifecycleTransitions : List TransitionRow := []
  deployments : String → Option DeploymentRow := fun _ => none
  evaluationReports : String → Option (List String × EvaluationReport) := fun _ => none
  /-- the evaluation a deployment and dataset version are locked to -/
  baselines : String × String → Option String := fun _ => none
  outbox : List (OutboxRow ℕ ControlData) := []
  nextUid : ℕ := 0

/-- The answers of other code during one call. -/
structure RegistryChecks where
  /-- the pattern of an `Identifier` -/
  identifier : String → Bool
  verifyMetadata : ModelManifest → Bool
  verifyArtifact : ModelManifest → Bool
  verifyReport : EvaluationReport → Bool
  /-- all decisions of `evaluation.gate` on the report -/
  gatesPass : EvaluationReport → Bool
  progressionGate : Option (ModelManifest → PromotionRequest → Identity → Bool)
  benchmarkGate : Option (ModelManifest → EvaluationReport → Identity → Bool)
  pendingLimit : ℕ := 100

/-- A result, or an error that rolls the transaction back. -/
abbrev Result (α : Type) := Except RegistryError α

/-- Fails with `error` unless the condition holds. -/
def require (condition : Bool) (error : RegistryError) : Result Unit :=
  if condition then .ok () else .error error

theorem require_eq_ok {condition : Bool} {error : RegistryError} {u : Unit} :
    require condition error = .ok u ↔ condition = true := by
  unfold require
  split <;> simp_all

theorem require_of {condition : Bool} (h : condition = true) (error : RegistryError) :
    require condition error = .ok () :=
  require_eq_ok.2 h

namespace Registry

variable (checks : RegistryChecks) (r : Registry) (identity : Identity)

/-- One event for each tenant, in the order of the tenants, under one trace id. -/
def events (tenants : List String) (data : ControlData) : List (Event ℕ ControlData) :=
  (tenants.insertionSort (· ≤ ·)).mapIdx fun i tenant =>
    { eventId := r.nextUid + 1 + i, eventType := data.eventType, tenantId := tenant,
      traceId := r.nextUid, data }

/-- Puts the events of `data` into the outbox. -/
def emit (tenants : List String) (data : ControlData) : Registry :=
  { r with
    outbox := (enqueue checks.pendingLimit r.outbox (r.events tenants data)).1
    nextUid := r.nextUid + 1 + tenants.length }

theorem of_mem_events {tenants : List String} {data : ControlData} {e : Event ℕ ControlData}
    (he : e ∈ r.events tenants data) :
    e.eventType = data.eventType ∧ e.data = data ∧ r.nextUid < e.eventId ∧
      e.eventId < r.nextUid + 1 + tenants.length := by
  unfold events at he
  rw [List.mem_mapIdx] at he
  obtain ⟨i, hi, rfl⟩ := he
  rw [List.length_insertionSort] at hi
  refine ⟨rfl, rfl, ?_, ?_⟩ <;> dsimp only <;> omega

theorem events_tenants (tenants : List String) (data : ControlData) :
    (r.events tenants data).map (·.tenantId) = tenants.insertionSort (· ≤ ·) := by
  unfold events
  apply List.ext_getElem <;> simp

theorem events_nodup (tenants : List String) (data : ControlData) :
    ((r.events tenants data).map (·.eventId)).Nodup := by
  refine List.Pairwise.imp (fun {a b} (h : a < b) => h.ne) ?_
  rw [List.pairwise_iff_getElem]
  intro i j hi hj hij
  simp only [events, List.getElem_map, List.getElem_mapIdx]
  omega

@[simp] theorem emit_trainingJobs (tenants : List String) (data : ControlData) :
    (r.emit checks tenants data).trainingJobs = r.trainingJobs := rfl

@[simp] theorem emit_modelVersions (tenants : List String) (data : ControlData) :
    (r.emit checks tenants data).modelVersions = r.modelVersions := rfl

/-! ## Reading -/

/-- `_authorize` of an operator for the given tenants. -/
def authorize (tenants : List String) : Result Unit := do
  require (identity.keyClass = .operator) .operatorRequired
  require (tenants ⊆ identity.datasetTenants) .datasetTenantForbidden

/-- `get`. -/
def get (version : String) : Result ModelManifest := do
  authorize identity []
  match r.modelVersions version with
  | none => .error .modelNotFound
  | some manifest =>
    require (manifest.tenantIds ⊆ identity.datasetTenants) .modelNotFound
    require (checks.verifyMetadata manifest) .artifactIntegrityFailed
    .ok manifest

/-- `job`. -/
def job (jobId : String) : Result (Option TrainingJob) := do
  authorize identity []
  match r.trainingJobs jobId with
  | none => .ok none
  | some row =>
    require (row.tenantIds ⊆ identity.datasetTenants) .trainingJobNotFound
    .ok (some row.job)

/-- `get` of the evaluation store. -/
def evaluation (evaluationId : String) : Result (Option EvaluationReport) := do
  authorize identity []
  match r.evaluationReports evaluationId with
  | none => .ok none
  | some (tenants, report) =>
    if tenants ⊆ identity.datasetTenants then
      require (checks.verifyReport report) .reportIntegrityFailed
      .ok (some report)
    else .ok none

/-- `baseline` of the evaluation store. -/
def baseline (deploymentId datasetVersion : String) : Result (Option EvaluationReport) := do
  authorize identity []
  match r.baselines (deploymentId, datasetVersion) with
  | none => .ok none
  | some evaluationId => r.evaluation checks identity evaluationId

/-! ## Training jobs

A job's row is written by the worker, which saves its copy, and by the API, which queues and
cancels. A save does not overwrite a cancellation, and an outcome is announced with the save that
brings it about. -/

/-- `_save_job`: an existing row keeps its tenants. -/
def saveJobRow (job : TrainingJob) (tenants : List String) : Registry :=
  let tenants := ((r.trainingJobs job.jobId).map (·.tenantIds)).getD
    (tenants.insertionSort (· ≤ ·))
  { r with trainingJobs := Function.update r.trainingJobs job.jobId (some ⟨tenants, job⟩) }

@[simp] theorem saveJobRow_modelVersions (job : TrainingJob) (tenants : List String) :
    (r.saveJobRow job tenants).modelVersions = r.modelVersions := rfl

theorem saveJobRow_of_none {job : TrainingJob} (hrow : r.trainingJobs job.jobId = none)
    (tenants : List String) :
    (r.saveJobRow job tenants).trainingJobs job.jobId =
      some ⟨tenants.insertionSort (· ≤ ·), job⟩ := by
  simp [saveJobRow, hrow]

theorem saveJobRow_of_some {jobId : String} {row : JobRow} {job : TrainingJob}
    (hid : job.jobId = jobId) (hrow : r.trainingJobs jobId = some row) (tenants : List String) :
    (r.saveJobRow job tenants).trainingJobs jobId = some ⟨row.tenantIds, job⟩ := by
  simp [saveJobRow, hid, hrow]

/-- The end of `_save_job_outcome`: the row, and the events of a failure or cancellation. -/
def announceJob (job : TrainingJob) (tenants : List String) : Registry :=
  let r := r.saveJobRow job tenants
  if job.state = .failed ∨ job.state = .cancelled then
    r.emit checks tenants (.trainingCompleted job.jobId job.specification.jobType
      [job.specification.datasetId ++ "/" ++ job.specification.datasetVersion] none job.state none
      job.failureCode)
  else r

@[simp] theorem announceJob_trainingJobs (job : TrainingJob) (tenants : List String) :
    (r.announceJob checks job tenants).trainingJobs = (r.saveJobRow job tenants).trainingJobs := by
  unfold announceJob
  dsimp only
  split <;> simp

@[simp] theorem announceJob_modelVersions (job : TrainingJob) (tenants : List String) :
    (r.announceJob checks job tenants).modelVersions = r.modelVersions := by
  unfold announceJob
  dsimp only
  split <;> simp

/-- `_save_job_outcome`: a cancelled job stays as it is, a cancellation request is kept, and an
    outcome is announced once. -/
def saveJobOutcome (job : TrainingJob) (tenants : List String) : Registry :=
  match r.trainingJobs job.jobId with
  | none => r.announceJob checks job tenants
  | some previous =>
    let old := previous.job
    if old.state = .cancelled then r
    else
      let job := { job with cancelRequested := old.cancelRequested || job.cancelRequested }
      if old.state = job.state ∧ (old.state = .failed ∨ old.state = .cancelled) then r
      else r.announceJob checks job previous.tenantIds

/-- `save_job`. -/
def saveJob (job : TrainingJob) (tenants : List String) : Registry :=
  r.saveJobOutcome checks job tenants

/-- Writes the submitter of a job. -/
def setSubmitter (jobId : String) : Registry :=
  { r with trainingSubmitters := Function.update r.trainingSubmitters jobId (some identity) }

@[simp] theorem setSubmitter_trainingJobs (jobId : String) :
    (r.setSubmitter identity jobId).trainingJobs = r.trainingJobs := rfl

/-- `enqueue`: a new job, or a failed one again. -/
def enqueueJob (job : TrainingJob) (tenants : List String) : Result (TrainingJob × Registry) := do
  let old ← r.job identity job.jobId
  match old with
  | none => .ok (job, (r.saveJobRow job tenants).setSubmitter identity job.jobId)
  | some old =>
    require (old.trainerArchitecture = job.trainerArchitecture) .trainingTrainerMismatch
    require (old.specification = job.specification) .trainingJobIdConflict
    if old.state = .failed then
      let job := { old with state := .queued, failureCode := none, completedAt := none }
      .ok (job, (r.saveJobRow job tenants).setSubmitter identity job.jobId)
    else if (old.state = .queued ∨ old.state = .running) ∧ r.trainingSubmitters job.jobId = none then
      .ok (old, r.setSubmitter identity job.jobId)
    else .ok (old, r)

/-- The job with its cancellation requested, cancelled at once while it is queued. -/
def requestCancel (job : TrainingJob) (now : ℤ) : TrainingJob :=
  let job := { job with cancelRequested := true }
  if job.state = .queued then { job with state := .cancelled, completedAt := some now } else job

@[simp] theorem requestCancel_jobId (job : TrainingJob) (now : ℤ) :
    (requestCancel job now).jobId = job.jobId := by
  unfold requestCancel; dsimp only; split <;> rfl

@[simp] theorem requestCancel_modelVersion (job : TrainingJob) (now : ℤ) :
    (requestCancel job now).modelVersion = job.modelVersion := by
  unfold requestCancel; dsimp only; split <;> rfl

@[simp] theorem requestCancel_cancelRequested (job : TrainingJob) (now : ℤ) :
    (requestCancel job now).cancelRequested = true := by
  unfold requestCancel; dsimp only; split <;> rfl

theorem requestCancel_state (job : TrainingJob) (now : ℤ) :
    (requestCancel job now).state = if job.state = .queued then .cancelled else job.state := by
  unfold requestCancel; dsimp only; split <;> simp_all

/-- `cancel_job` at the instant `now`. -/
def cancelJob (jobId : String) (now : ℤ) : Result (TrainingJob × Registry) := do
  match ← r.job identity jobId with
  | none => .error .trainingJobNotFound
  | some job =>
    if job.state = .succeeded ∨ job.state = .failed ∨ job.state = .cancelled then .ok (job, r)
    else
      let job := requestCancel job now
      .ok (job, r.saveJobOutcome checks job (((r.trainingJobs jobId).map (·.tenantIds)).getD []))

/-! ## Completing a job -/

/-- `_record`: the row and the events of a transition. -/
def record (manifest : ModelManifest) (transition : LifecycleTransition) : Registry :=
  let r : Registry := { r with
    lifecycleTransitions :=
      r.lifecycleTransitions ++ [⟨r.nextUid, manifest.version, transition⟩]
    nextUid := r.nextUid + 1 }
  r.emit checks manifest.tenantIds (.deploymentChanged manifest.registryId manifest.version
    transition.fromState transition.toState transition.actor transition.reason
    transition.evaluationId)

@[simp] theorem record_trainingJobs (manifest : ModelManifest) (transition : LifecycleTransition) :
    (r.record checks manifest transition).trainingJobs = r.trainingJobs := rfl

@[simp] theorem record_modelVersions (manifest : ModelManifest) (transition : LifecycleTransition) :
    (r.record checks manifest transition).modelVersions = r.modelVersions := rfl

/-- `_dataset`. -/
def dataset (manifest : ModelManifest) : Result DatasetLineage :=
  match manifest.datasets with
  | [d] => .ok d
  | _ => .error .singleDatasetRequired

/-- Writes the row of a version. -/
def setModel (manifest : ModelManifest) : Registry :=
  { r with modelVersions := Function.update r.modelVersions manifest.version (some manifest) }

/-- `complete`: registers the model of a job, unless the job was cancelled or the version exists. -/
def complete (job : TrainingJob) (manifest : ModelManifest) (trainerArchitecture : String) :
    Result Registry := do
  require (manifest.adapterArchitecture = trainerArchitecture) .trainerArchitectureMismatch
  let _ ← dataset manifest
  require (!(r.trainingJobs job.jobId).any (·.job.cancelRequested)) .trainingCancelled
  require (r.modelVersions manifest.version).isNone .constraint
  let r := manifest.lifecycleHistory.foldl (fun r t => r.record checks manifest t)
    (r.setModel manifest)
  let r := r.saveJobRow job manifest.tenantIds
  .ok (r.emit checks manifest.tenantIds (.trainingCompleted job.jobId job.specification.jobType
    (manifest.datasets.map fun d => d.datasetId ++ "/" ++ d.version) (some manifest.version)
    .succeeded (some manifest.artifactDigest) none))

/-! ## Evaluations -/

/-- `reports[id] = passed` on a dictionary. -/
def setReport (reports : List (String × Bool)) (id : String) (passed : Bool) : List (String × Bool) :=
  if id ∈ reports.map (·.1) then reports.map fun e => if e.1 = id then (id, passed) else e
  else reports ++ [(id, passed)]

/-- `record_evaluation`, the hook of a publication. -/
def recordEvaluation (report : EvaluationReport) : Result Registry := do
  let version := report.specification.candidateDeploymentId
  if (r.modelVersions version).isNone then .ok r
  else
    let model ← r.get checks identity version
    require (model.state ≠ .deprecated && model.state ≠ .revoked &&
      report.candidateArtifactDigest = some model.artifactDigest) .evaluationModelChanged
    .ok (r.setModel { model with
      evaluationReports :=
        setReport model.evaluationReports report.specification.evaluationId report.passed })

/-- The rows of a published report. -/
def storeReport (report : EvaluationReport) (tenants : List String) (lockBaseline : Bool) :
    Registry :=
  let spec := report.specification
  { r with
    evaluationReports := Function.update r.evaluationReports spec.evaluationId
      (some (tenants.insertionSort (· ≤ ·), report))
    baselines := if lockBaseline then
        Function.update r.baselines (spec.candidateDeploymentId, spec.datasetVersion)
          (some spec.evaluationId)
      else r.baselines }

/-- `publish` of the evaluation store, with `record_evaluation` as its hook. -/
def publish (report : EvaluationReport) (tenants : List String) (lockBaseline : Bool)
    (expectedBaseline : Option String) : Result Registry := do
  let spec := report.specification
  authorize identity tenants
  require (r.evaluationReports spec.evaluationId).isNone .evaluationExists
  let locked := spec.baselineDeploymentId.bind fun d => r.baselines (d, spec.datasetVersion)
  require (locked = expectedBaseline) .baselineChanged
  let r := (r.storeReport report tenants lockBaseline).emit checks tenants (.evaluationCompleted
    spec.evaluationId report.candidateManifestVersion report.baselineManifestVersion report.passed)
  r.recordEvaluation checks identity report

/-! ## Lifecycle

A promotion is a transition of one model with the checks of its target state, and for the production
state the exchange on the deployment as well. What has been done already with the same request is
answered without doing it again. -/

/-- `_approval`: the latest approval in the history. -/
def approval (manifest : ModelManifest) : Option LifecycleTransition :=
  manifest.lifecycleHistory.reverse.find? fun t =>
    t.fromState = some .evaluating && t.toState = .approved

/-- What a report has to say of a model, whatever its architecture. -/
def reportMatches (manifest : ModelManifest) (dataset : DatasetLineage) (report : EvaluationReport) :
    Bool :=
  report.passed && checks.gatesPass report &&
    report.specification.candidateDeploymentId = manifest.version &&
    report.candidateManifestVersion = manifest.version &&
    report.candidateArtifactDigest = some manifest.artifactDigest &&
    report.specification.datasetId = dataset.datasetId &&
    report.specification.datasetVersion = dataset.version &&
    report.datasetContentDigest = dataset.contentDigest

/-- The dataset that a model has to be evaluated on. -/
def evaluationDataset (manifest : ModelManifest) : Result DatasetLineage :=
  match manifest.pruning with
  | some pruning => .ok pruning.evaluationDataset
  | none => dataset manifest

/-- `_passed`: whether the evaluation shows that the model may be approved. -/
def passed (manifest : ModelManifest) (evaluationId : Option String) : Result Bool := do
  let dataset ← evaluationDataset manifest
  match evaluationId with
  | none => .ok false
  | some evaluationId =>
    let report ← r.evaluation checks identity evaluationId
    if manifest.adapterArchitecture = "router-logistic-v1" then
      .ok (report.any fun report =>
        report.specification.suites = [.routing] && reportMatches checks manifest dataset report)
    else
      match report with
      | none => .ok false
      | some report =>
        match report.specification.baselineDeploymentId with
        | none => .ok false
        | some baselineId =>
          let benchmarked := checks.benchmarkGate.any fun gate => gate manifest report identity
          if manifest.adapterArchitecture = "pruned-full-v1" ∧
              (manifest.pruning.isNone ∨ ¬benchmarked) then .ok false
          else if manifest.distillation.isSome ∧
              (report.distillation ≠ manifest.distillation ∨ ¬benchmarked) then .ok false
          else
            let baseline ← r.baseline checks identity baselineId dataset.version
            .ok (baseline.any fun baseline =>
              baseline.passed && reportMatches checks manifest dataset report &&
                report.baselineReportId = some baseline.specification.evaluationId &&
                report.baselineManifestVersion = some baseline.candidateManifestVersion &&
                baseline.specification.datasetId = dataset.datasetId)

/-- The approval a transition rests on: a rollback trusts the recorded one. -/
def transitionPassed (manifest : ModelManifest) (request : PromotionRequest) (rollback : Bool) :
    Result Bool :=
  if rollback then .ok (approval manifest).isSome
  else r.passed checks identity manifest request.evaluationId

/-- The progression gate on the way into canary and production. -/
def progression (manifest : ModelManifest) (request : PromotionRequest) (rollback : Bool) :
    Result Unit :=
  if !rollback && (request.targetState = .canary || request.targetState = .production) then
    match checks.progressionGate with
    | none => .error .deploymentReportRequired
    | some gate => require (gate manifest request identity) .progressionRefused
  else .ok ()

/-- `_transition`: the updated manifest, and the registry with its row, its transition and its
    events. -/
def transition (manifest : ModelManifest) (request : PromotionRequest) (rollback : Bool) :
    Result (ModelManifest × Registry) := do
  let passed ← r.transitionPassed checks identity manifest request rollback
  validateTransition manifest.state request.targetState identity.subjectIdPseudonymous
    request.reason passed rollback
  progression checks identity manifest request rollback
  require (request.targetState = .revoked || request.targetState = .deprecated ||
    checks.verifyArtifact manifest) .artifactIntegrityFailed
  let actor := identity.subjectIdPseudonymous.getD ""
  require (checks.identifier actor) .validation
  let transition : LifecycleTransition :=
    { fromState := some manifest.state
      toState := request.targetState
      actor
      reason := request.reason
      evaluationId := request.evaluationId }
  let reports := match request.evaluationId with
    | some id => if passed && !rollback then setReport manifest.evaluationReports id passed
        else manifest.evaluationReports
    | none => manifest.evaluationReports
  let updated := { manifest with
    state := request.targetState
    lifecycleHistory := manifest.lifecycleHistory ++ [transition]
    evaluationReports := reports }
  .ok (updated, (r.setModel updated).record checks updated transition)

/-- The request is the one that the model's last transition was made by. -/
def isRetry (manifest : ModelManifest) (request : PromotionRequest) : Bool :=
  manifest.state = request.targetState &&
    manifest.lifecycleHistory.getLast?.any fun last =>
      some last.actor = identity.subjectIdPseudonymous && last.reason = request.reason &&
        last.evaluationId = request.evaluationId

/-- Retires the version that a deployment points to, if any, for the promotion of `manifest`. -/
def retireIncumbent (manifest : ModelManifest) (note : OperatorNote) (previous : Option String) :
    Result Registry :=
  match previous with
  | none => .ok r
  | some previous => do
    let incumbent ← r.get checks identity previous
    require (incumbent.state = .production && incumbent.tenantIds = manifest.tenantIds)
      .deploymentConflict
    let (_, r) ← r.transition checks identity incumbent
      { note with modelVersion := previous, targetState := .deprecated } false
    .ok r

/-- Writes the row of a deployment. -/
def setDeployment (deploymentId : String) (row : DeploymentRow) : Registry :=
  { r with deployments := Function.update r.deployments deploymentId (some row) }

/-- `promote`. -/
def promote (request : PromotionRequest) : Result (ModelManifest × Registry) := do
  authorize identity []
  let manifest ← r.get checks identity request.modelVersion
  require (request.actor.all fun a => some a = identity.subjectIdPseudonymous) .actorMismatch
  if isRetry identity manifest request then .ok (manifest, r)
  else
    let (updated, r) ← r.transition checks identity manifest request false
    if updated.state ≠ .production then .ok (updated, r)
    else
      let previous := (r.deployments manifest.registryId).map (·.currentVersion)
      let r ← r.retireIncumbent checks identity manifest request.toOperatorNote previous
      .ok (updated, r.setDeployment manifest.registryId ⟨manifest.version, previous⟩)

/-- `rollback`. -/
def rollback (deploymentId reason : String) : Result (List ModelManifest × Registry) := do
  authorize identity []
  match r.deployments deploymentId with
  | none => .error .previousVersionRequired
  | some ⟨_, none⟩ => .error .previousVersionRequired
  | some ⟨currentVersion, some previousVersion⟩ =>
    let current ← r.get checks identity currentVersion
    let previous ← r.get checks identity previousVersion
    match approval previous with
    | none => .error .rollbackVersionUnavailable
    | some approved =>
      require (current.state = .production && previous.state = .deprecated)
        .rollbackVersionUnavailable
      match OperatorNote.make reason with
      | none => .error .validation
      | some note =>
        let (retired, r) ← r.transition checks identity current
          { note with modelVersion := current.version, targetState := .deprecated } true
        let (restored, r) ← r.transition checks identity previous
          { note with
            modelVersion := previous.version
            targetState := .production
            evaluationId := approved.evaluationId } true
        .ok ([retired, restored],
          r.setDeployment deploymentId ⟨previous.version, some current.version⟩)

end Registry

end AdaptiveLlm
