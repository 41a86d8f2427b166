import AdaptiveLlm.Registry.Store
import Mathlib.Logic.Relation

set_option autoImplicit false

/-! # The training worker beside the API

`training/service.py`: `work_once` claims a pending job and runs it. Between its registry calls,
each of which is a transaction of its own, the API submits, retries and cancels. The worker lock and
the job lock admit one run of a job at a time, so the system is the registry and one `WorkerPhase`:
where the worker stands, with the copy of the job it holds there.

The trainer, the artifact files and the clock are left open: a run may fail between any two calls,
with any error, and the worker may stop anywhere.

The registry's calls are those of `Registry/Store.lean`, so each step of the system is a transaction
of the real tables. The worker holds a copy of the job between its calls, and every phase has the
copy with it, which is what the invariants of the next modules are about. Steps of the API are
submissions, retries and cancellations by anyone at any time. -/

namespace AdaptiveLlm

/-! ## The worker's copies of the job -/

/-- The codes a failed run passes on; every other error is `training_failed`. -/
def permittedCodes : List String :=
  ["training_interrupted", "checkpoint_integrity_failed", "invalid_dataset_artifact",
    "empty_training_split", "model_version_exists", "artifact_integrity_failed",
    "trainer_architecture_mismatch", "single_dataset_required", "training_cancelled",
    "training_shutdown", "training_memory_limit", "training_dependencies_unavailable",
    "invalid_base_model", "training_configuration_invalid", "student_must_be_smaller",
    "soft_target_tokenizer_mismatch", "invalid_soft_targets"]

/-- The code of a failed run; `error` is the code of a `GatewayError`, `none` any other exception. -/
def failureCode (error : Option String) : String :=
  match error with
  | some code => if code ∈ permittedCodes then code else "training_failed"
  | none => "training_failed"

namespace TrainingJob

/-- The job `submit` builds, with its new model version. -/
def new (specification : TrainingJobSpecification) (trainerArchitecture version : String) :
    TrainingJob :=
  { specification, trainerArchitecture, modelVersion := version }

/-- The job begins to run. -/
def start (j : TrainingJob) (now : ℤ) : TrainingJob :=
  { j with
    state := .running
    startedAt := some (j.startedAt.getD now)
    completedAt := none
    failureCode := none }

/-- A checkpoint is noted, once. -/
def checkpoint (j : TrainingJob) (reference : String) : TrainingJob :=
  { j with
    checkpointRefs := if reference ∈ j.checkpointRefs then j.checkpointRefs
      else j.checkpointRefs ++ [reference] }

/-- The job ends with an artifact. -/
def succeed (j : TrainingJob) (usage : ResourceUsage) (artifactRef artifactDigest : String)
    (now : ℤ) : TrainingJob :=
  { j with
    state := .succeeded
    completedAt := some now
    resourceUsage := usage
    artifactRef := some artifactRef
    artifactDigest := some artifactDigest }

/-- The `except` clause of `_run`. -/
def fail (j : TrainingJob) (code : String) (now : ℤ) : TrainingJob :=
  { j with
    state := if code = "training_cancelled" then .cancelled
      else if code = "training_shutdown" then .queued
      else .failed
    completedAt := if code = "training_shutdown" then none else some now
    failureCode := if code = "training_shutdown" then none else some code
    artifactRef := none
    artifactDigest := none }

theorem fail_state (j : TrainingJob) (code : String) (now : ℤ) :
    (j.fail code now).state ≠ .succeeded := by
  unfold fail
  split_ifs <;> simp

/-- The `except` clause of `work_once`. -/
def failEligibility (j : TrainingJob) (now : ℤ) : TrainingJob :=
  { j with
    state := .failed
    completedAt := some now
    failureCode := some "training_eligibility_failed" }

/-- The job is queued or runs. -/
def pending (j : TrainingJob) : Prop := j.state = .queued ∨ j.state = .running

end TrainingJob

/-! ## The system -/

/-- Where the worker stands. -/
inductive WorkerPhase where
  | idle
  /-- `run` was called; the job is not read yet -/
  | claimed
  /-- `_run` found no job and made one -/
  | creating (job : TrainingJob)
  /-- `_run` read the job -/
  | loaded (job : TrainingJob)
  /-- inside the `try` of `_run` -/
  | training (job : TrainingJob)
  /-- in its `except`, before the save -/
  | failing (job : TrainingJob) (code : String)
  /-- in the `except` of `work_once`, before and after it reads the job again -/
  | raised (code : String)
  | reporting (job : TrainingJob)

/-- The phases of `run` in which an error of the registry comes out of it as it is. -/
def WorkerPhase.passesErrors : WorkerPhase → Prop
  | .claimed | .creating _ | .loaded _ | .failing _ _ => True
  | _ => False

/-- The registry and the worker. -/
structure TrainingSystem where
  registry : Registry := {}
  worker : WorkerPhase := .idle

/-- The stored row of a job. -/
def TrainingSystem.row (s : TrainingSystem) (jobId : String) : Option JobRow :=
  s.registry.trainingJobs jobId

/-- The model version of the row is registered. -/
def TrainingSystem.Registered (s : TrainingSystem) (row : JobRow) : Prop :=
  (s.registry.modelVersions row.job.modelVersion).isSome

/-- One registry call of the API or of the worker, or a move of the worker between two of them. -/
inductive TrainingStep (jobId : String) : TrainingSystem → TrainingSystem → Prop
  -- the API; `uid()` gives a new job a version that is not taken
  | enqueue {r r' : Registry} {w : WorkerPhase} {identity : Identity}
      {specification : TrainingJobSpecification} {architecture version : String}
      {tenants : List String} {job : TrainingJob} :
      specification.jobId = jobId → r.modelVersions version = none →
      r.enqueueJob identity (.new specification architecture version) tenants = .ok (job, r') →
      TrainingStep jobId ⟨r, w⟩ ⟨r', w⟩
  | cancel {checks : RegistryChecks} {r r' : Registry} {w : WorkerPhase} {identity : Identity}
      {now : ℤ} {job : TrainingJob} :
      r.cancelJob checks identity jobId now = .ok (job, r') → TrainingStep jobId ⟨r, w⟩ ⟨r', w⟩
  -- any other transaction: it leaves this job and the row of its version where they are
  | other {r r' : Registry} {w : WorkerPhase} :
      r'.trainingJobs jobId = r.trainingJobs jobId →
      (∀ row, r.trainingJobs jobId = some row →
        (r'.modelVersions row.job.modelVersion).isSome =
          (r.modelVersions row.job.modelVersion).isSome) →
      TrainingStep jobId ⟨r, w⟩ ⟨r', w⟩
  -- the worker
  | claim {r : Registry} {row : JobRow} :
      r.trainingJobs jobId = some row → row.job.pending →
      TrainingStep jobId ⟨r, .idle⟩ ⟨r, .claimed⟩
  | refuse {r : Registry} {w : WorkerPhase} {code : String} :
      w.passesErrors → TrainingStep jobId ⟨r, w⟩ ⟨r, .raised code⟩
  | load {r : Registry} {row : JobRow} :
      r.trainingJobs jobId = some row → row.job.state ≠ .succeeded → row.job.state ≠ .cancelled →
      TrainingStep jobId ⟨r, .claimed⟩ ⟨r, .loaded row.job⟩
  | loadNew {r : Registry} {specification : TrainingJobSpecification}
      {architecture version : String} :
      r.trainingJobs jobId = none → specification.jobId = jobId →
      TrainingStep jobId ⟨r, .claimed⟩ ⟨r, .creating (.new specification architecture version)⟩
  | create {checks : RegistryChecks} {r : Registry} {job : TrainingJob} {tenants : List String} :
      TrainingStep jobId ⟨r, .creating job⟩ ⟨r.saveJob checks job tenants, .loaded job⟩
  | start {checks : RegistryChecks} {r : Registry} {job : TrainingJob} {tenants : List String}
      {now : ℤ} :
      TrainingStep jobId ⟨r, .loaded job⟩
        ⟨r.saveJob checks (job.start now) tenants, .training (job.start now)⟩
  | checkpoint {checks : RegistryChecks} {r : Registry} {job : TrainingJob} {tenants : List String}
      {reference : String} :
      TrainingStep jobId ⟨r, .training job⟩
        ⟨r.saveJob checks (job.checkpoint reference) tenants, .training (job.checkpoint reference)⟩
  | complete {checks : RegistryChecks} {r r' : Registry} {job : TrainingJob}
      {usage : ResourceUsage} {artifactRef artifactDigest : String} {now : ℤ}
      {manifest : ModelManifest} {architecture : String} :
      manifest.version = job.modelVersion →
      r.complete checks (job.succeed usage artifactRef artifactDigest now) manifest architecture =
        .ok r' →
      TrainingStep jobId ⟨r, .training job⟩ ⟨r', .idle⟩
  | fail {r : Registry} {job : TrainingJob} {error : Option String} {now : ℤ} :
      TrainingStep jobId ⟨r, .training job⟩
        ⟨r, .failing (job.fail (failureCode error) now) (failureCode error)⟩
  -- a failure of `complete`, where the copy has succeeded already
  | failComplete {r : Registry} {job : TrainingJob} {usage : ResourceUsage}
      {artifactRef artifactDigest : String} {error : Option String} {now : ℤ} :
      TrainingStep jobId ⟨r, .training job⟩
        ⟨r, .failing ((job.succeed usage artifactRef artifactDigest now).fail (failureCode error) now)
          (failureCode error)⟩
  | saveFailure {checks : RegistryChecks} {r : Registry} {job : TrainingJob} {code : String}
      {tenants : List String} :
      TrainingStep jobId ⟨r, .failing job code⟩ ⟨r.saveJob checks job tenants, .raised code⟩
  | reread {r : Registry} {row : JobRow} {code : String} :
      code ≠ "training_shutdown" → code ≠ "training_job_running" →
      r.trainingJobs jobId = some row → row.job.pending →
      TrainingStep jobId ⟨r, .raised code⟩ ⟨r, .reporting row.job⟩
  | report {checks : RegistryChecks} {r : Registry} {job : TrainingJob} {tenants : List String}
      {now : ℤ} :
      TrainingStep jobId ⟨r, .reporting job⟩
        ⟨r.saveJob checks (job.failEligibility now) tenants, .idle⟩
  -- the worker returns, or its process ends
  | leave {r : Registry} {w : WorkerPhase} : TrainingStep jobId ⟨r, w⟩ ⟨r, .idle⟩

end AdaptiveLlm
