import AdaptiveLlm.Evaluation.Bootstrap
import AdaptiveLlm.Registry.Store

set_option autoImplicit false

/-! # Benchmarks

`distillation/benchmark.py`: a distilled model is measured against its teacher, and the signed report
is the ground on which the registry lets it be approved. `LocalBenchmarker.run` reads the model, its
evaluation and the teacher, measures for a while, and publishes; the two ends are `begin` and
`publish` here, with any number of other steps between them.

Floats are the rationals they stand for. What measuring yields and what other code answers are
parameters.

`Prepared` is what a run has in hand between its two ends, taken from the registry as it was.
`allows` is the gate of the registry: it looks for a stored report that names the model, its
artifact and its evaluation, and passes the thresholds. A report that is there already under the id
of a run is returned in place of a new one, or refused where the two specifications differ. -/

namespace AdaptiveLlm

namespace Distillation

/-! ## Reports -/

/-- `BenchmarkSpecification`: which version is measured, on which evaluation. -/
structure BenchmarkSpecification where
  benchmarkId : String
  candidateVersion : String
  evaluationId : String
  requests : ℕ := 40
  deriving DecidableEq

/-- What the gate reads of a `BenchmarkMeasurement`. -/
structure BenchmarkMeasurement where
  requests : ℕ
  successes : ℕ
  deriving DecidableEq

/-- `BenchmarkReport`: what was measured, and for which digests. -/
structure BenchmarkReport where
  specification : BenchmarkSpecification
  tenantIds : List String
  candidateArtifactDigest : String
  teacherVersion : String
  teacherArtifactDigest : String
  datasetContentDigest : String
  student : BenchmarkMeasurement
  teacher : BenchmarkMeasurement
  qualityComparison : PairedComparison
  latencyReductionFraction : Option ℚ
  costReductionFraction : Option ℚ
  passed : Bool
  deriving DecidableEq

/-- `targets()`. -/
structure Targets where
  nonInferiorityMargin : ℚ
  minimumSamples : ℚ
  p95LatencyReductionMin : ℚ
  costReductionMin : ℚ

/-- `passes`. -/
def passes (thresholds : Targets) (report : BenchmarkReport) : Bool :=
  let quality := report.qualityComparison
  thresholds.minimumSamples ≤ quality.sampleSize &&
    (quality.ciLower.any fun lower => -thresholds.nonInferiorityMargin < lower) &&
    report.student.requests = report.teacher.requests &&
    0 < report.student.successes && 0 < report.teacher.successes &&
    ((report.latencyReductionFraction.any fun x => thresholds.p95LatencyReductionMin ≤ x) ||
      report.costReductionFraction.any fun x => thresholds.costReductionMin ≤ x)

/-! ## What other code answers -/

/-- How a benchmark can be refused. -/
inductive BenchmarkError where
  | registry (error : RegistryError)
  | benchmarkIntegrityFailed
  | benchmarkExists
  | benchmarkLocalOnly
  | benchmarkIdConflict
  | benchmarkEvaluationMismatch
  | benchmarkCoverageRequired
  | evaluationNotFound
  | distillationTeacherChanged
  | teacherNotApproved
  | teacherNotGenerative
  | unknownEvaluationDeployment
  | modelNotEvaluating
  | signingKeyRequired
  deriving DecidableEq

/-- A result or a refusal. -/
abbrev Answer (α : Type) := Except BenchmarkError α

/-- Fails with `error` unless the condition holds. -/
def demand (condition : Bool) (error : BenchmarkError) : Answer Unit :=
  if condition then .ok () else .error error

theorem demand_eq_ok {condition : Bool} {error : BenchmarkError} {u : Unit} :
    demand condition error = .ok u ↔ condition = true := by
  cases condition with
  | true => exact iff_of_true rfl rfl
  | false => exact iff_of_false (fun h => by cases h) Bool.false_ne_true

/-- An `EvaluationDeployment` by its version and its `teacher_digest`. -/
structure Deployed where
  version : String
  digest : String
  deriving DecidableEq

/-- The dataset of an evaluation, as the reader returns it. -/
structure Read where
  tenantIds : List String
  contentDigest : String
  cases : ℕ
  deriving DecidableEq

/-- The answers of other code during one call. -/
structure BenchmarkServices where
  /-- the deployments of the evaluator that are no registered models -/
  configured : String → Option Deployed
  foundationId : String
  /-- a `SpecialistProvider` can be made for the model -/
  loads : ModelManifest → Answer Unit
  verifyReport : BenchmarkReport → Bool
  /-- `require_signer` returns -/
  signs : Bool
  read : EvaluationSpecification → Identity → Answer Read

section Calls

variable (thresholds : Targets) (sv : BenchmarkServices) (checks : RegistryChecks) (r : Registry)
  (reports : List BenchmarkReport) (identity : Identity)

/-! ## The store -/

/-- `LocalDatasetBuilder._authorize`. -/
def authorize (tenants : List String) : Answer Unit :=
  (Registry.authorize identity tenants).mapError .registry

/-- `get` of the store. -/
def get (benchmarkId : String) : Answer (Option BenchmarkReport) := do
  authorize identity []
  match reports.find? fun report => report.specification.benchmarkId = benchmarkId with
  | none => .ok none
  | some report =>
    demand (sv.verifyReport report) .benchmarkIntegrityFailed
    .ok (if report.tenantIds ⊆ identity.datasetTenants then some report else none)

/-- `publish`. -/
def publish (report : BenchmarkReport) : Answer (List BenchmarkReport) := do
  authorize identity report.tenantIds
  demand sv.signs .signingKeyRequired
  demand (!reports.any fun old => old.specification.benchmarkId = report.specification.benchmarkId)
    .benchmarkExists
  .ok (reports ++ [report])

/-- `for_evaluation`. -/
def forEvaluation (candidate evaluation : String) : Answer (List BenchmarkReport) := do
  authorize identity []
  let rows := reports.filter fun report =>
    report.specification.candidateVersion = candidate && report.specification.evaluationId = evaluation
  let found ← rows.mapM fun row => get sv reports identity row.specification.benchmarkId
  .ok ((found.filterMap id).filter fun report =>
    report.specification.candidateVersion = candidate && report.specification.evaluationId = evaluation)

/-! ## Teachers -/

/-- `_deployment` of the evaluator. -/
def deployment (deploymentId : String) : Answer Deployed :=
  match sv.configured deploymentId with
  | some deployed => .ok deployed
  | none =>
    match r.get checks identity deploymentId with
    | .error .modelNotFound => .error .unknownEvaluationDeployment
    | .error error => .error (.registry error)
    | .ok model => do
      demand (model.state ≠ .candidate && model.state ≠ .deprecated && model.state ≠ .revoked)
        .modelNotEvaluating
      sv.loads model
      .ok ⟨model.version, model.artifactDigest⟩

/-- `teacher_deployment`. -/
def teacherDeployment (deploymentId : String) : Answer Deployed := do
  if deploymentId ≠ sv.foundationId then
    let model ← (r.get checks identity deploymentId).mapError .registry
    demand (model.state = .approved || model.state = .canary || model.state =
      .production) .teacherNotApproved
    demand (model.adapterArchitecture ≠ "router-logistic-v1") .teacherNotGenerative
  deployment sv checks r identity deploymentId

/-! ## The gate -/

/-- What `allows` asks of a report. -/
def supports (model : ModelManifest) (lineage : DistillationLineage) (evaluation : EvaluationReport)
    (report : BenchmarkReport) : Bool :=
  report.passed && passes thresholds report &&
    report.specification.candidateVersion = model.version &&
    report.specification.evaluationId = evaluation.specification.evaluationId &&
    report.candidateArtifactDigest = model.artifactDigest &&
    report.teacherVersion = lineage.teacherVersion &&
    report.teacherArtifactDigest = lineage.teacherArtifactDigest &&
    report.datasetContentDigest = evaluation.datasetContentDigest

/-- `allows`. -/
def allows (model : ModelManifest) (evaluation : EvaluationReport) : Answer Bool :=
  match model.distillation with
  | none => .ok false
  | some lineage =>
    if evaluation.distillation ≠ some lineage then .ok false
    else do
      let teacher ← teacherDeployment sv checks r identity lineage.teacherDeploymentId
      if teacher.version ≠ lineage.teacherVersion ∨
        teacher.digest ≠ lineage.teacherArtifactDigest then .ok false
      else
        let found ← forEvaluation sv reports identity model.version evaluation.specification.evaluationId
        .ok (found.any (supports thresholds model lineage evaluation))

/-! ## A run -/

/-- What a run goes on with once it has read the model and its evaluation. -/
structure Prepared where
  specification : BenchmarkSpecification
  model : ModelManifest
  evaluation : EvaluationReport
  lineage : DistillationLineage
  read : Read
  deriving DecidableEq

/-- `run` up to the measuring: the report there is already, or what is to be measured. `isLocal` says
    whether the caller's environment is the local one. -/
def begin (isLocal : Bool) (specification : BenchmarkSpecification) :
    Answer (BenchmarkReport ⊕ Prepared) := do
  authorize identity []
  demand isLocal .benchmarkLocalOnly
  match ← get sv reports identity specification.benchmarkId with
  | some existing =>
    demand (existing.specification = specification) .benchmarkIdConflict
    .ok (.inl existing)
  | none =>
    let model ← (r.get checks identity specification.candidateVersion).mapError .registry
    match ← (r.evaluation checks identity specification.evaluationId).mapError .registry with
    | none => .error .evaluationNotFound
    | some evaluation =>
      match model.distillation with
      | none => .error .benchmarkEvaluationMismatch
      | some lineage =>
        demand (evaluation.distillation = some lineage && evaluation.candidateManifestVersion =
          model.version && evaluation.candidateArtifactDigest = some model.artifactDigest)
          .benchmarkEvaluationMismatch
        let teacher ← teacherDeployment sv checks r identity lineage.teacherDeploymentId
        demand (teacher.version = lineage.teacherVersion && teacher.digest = lineage.teacherArtifactDigest)
          .distillationTeacherChanged
        let _ ← deployment sv checks r identity model.version
        let read ← sv.read evaluation.specification identity
        demand (read.cases ≤ specification.requests && 0 < read.cases) .benchmarkCoverageRequired
        .ok (.inr { specification, model, evaluation, lineage, read })

/-- What measuring the two deployments yields. -/
structure Measured where
  studentSuccesses : ℕ
  teacherSuccesses : ℕ
  comparison : PairedComparison
  latencyReduction : Option ℚ
  costReduction : Option ℚ

/-- The report of a run. -/
def Prepared.report (p : Prepared) (measured : Measured) : BenchmarkReport :=
  let report : BenchmarkReport := {
    specification := p.specification
    tenantIds := p.read.tenantIds
    candidateArtifactDigest := p.model.artifactDigest
    teacherVersion := p.lineage.teacherVersion
    teacherArtifactDigest := p.lineage.teacherArtifactDigest
    datasetContentDigest := p.read.contentDigest
    student := ⟨p.specification.requests, measured.studentSuccesses⟩
    teacher := ⟨p.specification.requests, measured.teacherSuccesses⟩
    qualityComparison := measured.comparison
    latencyReductionFraction := measured.latencyReduction
    costReductionFraction := measured.costReduction
    passed := false }
  { report with passed := p.evaluation.passed && checks.gatesPass p.evaluation && passes thresholds report }

end Calls

end Distillation

end AdaptiveLlm
