import AdaptiveLlm.Python.Text
import AdaptiveLlm.Storage.Outbox
import Mathlib.Data.Int.Notation

set_option autoImplicit false

/-! # Contracts of the control plane

Model manifests with their lifecycle, evaluation reports, promotion requests, training jobs and the
events about them. Instants are left out where nothing compares them, and of a report or a manifest
the parts that only its signature covers.

What the registry and the training worker exchange is typed here once, so that `Registry/Store.lean`
and `Training/Worker.lean` speak of the same manifests and jobs. The rules of `registry/state.py` on
these states are in `Registry/State.lean`; the signed text of a manifest, for which every field
counts, has contracts of its own in `Registry/SignedMetadata.lean`. -/

namespace AdaptiveLlm

/-! ## Models -/

/-- `LifecycleState`: where a version of a model stands between training and retirement. -/
inductive LifecycleState where
  | candidate
  | evaluating
  | approved
  | shadow
  | canary
  | production
  | deprecated
  | revoked
  deriving DecidableEq, Repr

/-- `LifecycleTransition`: one move of a version, with who made it and on what evidence. -/
structure LifecycleTransition where
  fromState : Option LifecycleState
  toState : LifecycleState
  actor : String
  reason : String
  evaluationId : Option String := none
  deriving DecidableEq, Repr

/-- The dataset that a model was trained on. -/
structure DatasetLineage where
  datasetId : String
  version : String
  contentDigest : String
  deriving DecidableEq, Repr

/-- The teacher and the dataset that a distilled model comes from. -/
structure DistillationLineage where
  sourceDatasetId : String
  sourceDatasetVersion : String
  sourceContentDigest : String
  teacherDeploymentId : String
  teacherVersion : String
  teacherArtifactDigest : String
  mixContentDigest : String
  deriving DecidableEq, Repr

/-- The study that a pruned model comes from. -/
structure PruningLineage where
  studyId : String
  evaluationDataset : DatasetLineage
  deriving DecidableEq, Repr

/-- `ModelManifest`: a version of a model as the registry holds it. -/
structure ModelManifest where
  registryId : String
  version : String
  state : LifecycleState := .candidate
  tenantIds : List String
  adapterArchitecture : String := "deterministic-fake-adapter-v1"
  datasets : List DatasetLineage
  trainingJobId : String
  evaluationReports : List (String × Bool) := []
  artifactDigest : String
  storageLocation : String
  lifecycleHistory : List LifecycleTransition := []
  distillation : Option DistillationLineage := none
  pruning : Option PruningLineage := none
  deriving DecidableEq, Repr

/-! ## Evaluations -/

/-- `SuiteName`. -/
inductive SuiteName where
  | golden
  | heldOut
  | safety
  | retrieval
  | performance
  | routing
  deriving DecidableEq, Repr

/-- `EvaluationSpecification`: which deployments are compared, and on which dataset. -/
structure EvaluationSpecification where
  evaluationId : String
  candidateDeploymentId : String
  baselineDeploymentId : Option String
  datasetId : String
  datasetVersion : String
  suites : List SuiteName
  deriving DecidableEq, Repr

/-- `EvaluationReport`: what an evaluation found, with the digests it is about. -/
structure EvaluationReport where
  specification : EvaluationSpecification
  candidateManifestVersion : String
  candidateArtifactDigest : Option String
  baselineManifestVersion : Option String
  baselineReportId : Option String
  datasetContentDigest : String
  passed : Bool
  distillation : Option DistillationLineage := none
  deriving DecidableEq, Repr

/-! ## Operators -/

/-- Whether a caller is a user or an operator. -/
inductive KeyClass where
  | user
  | operator
  deriving DecidableEq, Repr

/-- The caller that the authentication found, and the tenants whose datasets it may use. -/
structure Identity where
  subjectIdPseudonymous : Option String
  keyClass : KeyClass := .user
  datasetTenants : List String := []
  deriving DecidableEq, Repr

/-- The reason of an `OperatorNote`: not blank and of bounded length. -/
structure OperatorNote where
  reason : String
  length_le : reason.length ≤ 2000
  nonblank : Python.isBlank reason = false
  deriving DecidableEq

/-- The constructor of a note; `none` is its validation error. -/
def OperatorNote.make (reason : String) : Option OperatorNote :=
  if h : reason.length ≤ 2000 ∧ Python.isBlank reason = false then some ⟨reason, h.1, h.2⟩ else none

/-- `PromotionRequest`: the state that an operator asks for, with a reason. -/
structure PromotionRequest extends OperatorNote where
  modelVersion : String
  targetState : LifecycleState
  actor : Option String := none
  evaluationId : Option String := none
  deriving DecidableEq

/-! ## Training jobs -/

/-- `JobState` of a training job. -/
inductive JobState where
  | queued
  | running
  | succeeded
  | failed
  | cancelled
  deriving DecidableEq, Repr

/-- `JobType`: what is trained. -/
inductive JobType where
  | adapter
  | router
  | distillation
  deriving DecidableEq, Repr

/-- `TrainingJobSpecification`: what a job is submitted with. -/
structure TrainingJobSpecification where
  jobId : String
  jobType : JobType := .adapter
  registryId : String := "synthetic-specialist"
  datasetId : String
  datasetVersion : String
  codeRevision : String := "server"
  deriving DecidableEq, Repr

/-- `ResourceUsage` of a job that has ended. -/
structure ResourceUsage where
  examples : ℕ := 0
  steps : ℕ := 0
  artifactBytes : ℕ := 0
  deriving DecidableEq, Repr

/-- `TrainingJob`: a job with its state and what it has left behind. -/
structure TrainingJob where
  specification : TrainingJobSpecification
  trainerArchitecture : String := "deterministic-fake-adapter-v1"
  cancelRequested : Bool := false
  modelVersion : String
  state : JobState := .queued
  startedAt : Option ℤ := none
  completedAt : Option ℤ := none
  resourceUsage : ResourceUsage := {}
  checkpointRefs : List String := []
  artifactRef : Option String := none
  artifactDigest : Option String := none
  failureCode : Option String := none
  deriving DecidableEq, Repr

/-- The identifier of a job is that of its specification. -/
def TrainingJob.jobId (j : TrainingJob) : String := j.specification.jobId

/-! ## Events -/

/-- The data of the control plane's events. -/
inductive ControlData where
  | trainingCompleted (jobId : String) (jobType : JobType) (datasetRefs : List String)
      (modelVersion : Option String) (status : JobState) (artifactDigest failureCode : Option String)
  | deploymentChanged (deploymentId modelVersion : String) (previousState : Option LifecycleState)
      (newState : LifecycleState) (actorId reason : String) (evaluationId : Option String)
  | evaluationCompleted (evaluationId modelVersion : String) (baselineVersion : Option String)
      (passed : Bool)
  deriving DecidableEq, Repr

/-- The type of the event that carries the data. -/
def ControlData.eventType : ControlData → EventType
  | .trainingCompleted .. => .trainingCompleted
  | .deploymentChanged .. => .deploymentChanged
  | .evaluationCompleted .. => .evaluationCompleted

end AdaptiveLlm
