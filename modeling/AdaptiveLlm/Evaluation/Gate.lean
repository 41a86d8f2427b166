import AdaptiveLlm.Contracts.Models
import AdaptiveLlm.Evaluation.Bootstrap
import AdaptiveLlm.Lib.Grouping
import Mathlib.Data.Finset.Insert

set_option autoImplicit false

/-! # The gate

`decisions` of `evaluation/gate.py`: the checks on the report of an evaluation, in exact rationals.

A decision is the name of a gate, whether it passed, and the reason if it did not. What the
decisions say when all of them have passed is stated once for the report of a specialist and once
for a structured one, as a fact about the comparisons in the report: which of them are there, and
how many samples they have. -/

namespace AdaptiveLlm

namespace Gate

/-- The score of one item and the segments it counts for. -/
structure ItemScore where
  itemId : String
  score : ℚ
  segments : List String := []
  deriving DecidableEq, Repr

/-- What a suite of an evaluation found. -/
structure SuiteResult where
  suite : SuiteName
  items : ℕ
  metrics : List (String × ℚ) := []
  failures : List (String × ℕ) := []
  scores : List ItemScore := []
  completed : Bool := true
  costPerSuccessMicros : Option ℕ := none
  deriving DecidableEq, Repr

/-- What the comparisons and the gates read of a specification besides. -/
structure EvaluationSpecification extends AdaptiveLlm.EvaluationSpecification where
  fixtureTenantId : Option String := none
  seed : ℕ := 23
  confidenceLevel : ℚ := 95 / 100
  nonInferiorityMargin : ℚ := 2 / 100
  minimumSampleSize : Option ℕ := none
  criticalSegments : List String := []
  performanceRequests : ℕ := 40
  concurrency : ℕ := 4
  latencyP95MsMax : ℚ := 5000
  errorRateMax : ℚ := 0
  costPerSuccessMicrosMax : ℕ := 20000
  deriving DecidableEq, Repr

/-- What the gates read of a report. -/
structure EvaluationReport where
  specification : EvaluationSpecification
  candidateArtifactDigest : Option String := none
  baselineManifestVersion : Option String
  suiteResults : List SuiteResult
  baselineSuiteResults : List SuiteResult
  pairedComparison : PairedComparison
  segmentComparisons : List (String × PairedComparison)
  coverage : List (SuiteName × ℕ)
  derivedMinimumSampleSize : ℕ
  knownLimitations : List String
  distillation : Option DistillationLineage := none

/-- `{suite.suite: suite for suite in results}`. -/
def suitesOf (results : List SuiteResult) : List (SuiteName × SuiteResult) :=
  results.foldl (fun suites s => Grouping.update s.suite s (fun _ => s) suites) []

namespace EvaluationReport

variable (report : EvaluationReport)

/-- The least number of pairs that the report needs. -/
def minimum : ℕ := max (report.specification.minimumSampleSize.getD 0) report.derivedMinimumSampleSize

/-- The comparison has that many. -/
def enough (comparison : PairedComparison) : Bool :=
  report.specification.minimumSampleSize.isSome && report.minimum ≤ comparison.sampleSize

/-- The comparison with the teacher. -/
def teacherComparison : PairedComparison :=
  Grouping.get { sampleSize := 0 } report.segmentComparisons "distillation"

/-- The comparison has the larger of the requested and the derived minimum of samples, and its lower bound
    is above the margin. -/
structure Sufficient (comparison : PairedComparison) : Prop where
  samples : report.minimum ≤ comparison.sampleSize
  lower : ∃ lower, comparison.ciLower = some lower ∧ -report.specification.nonInferiorityMargin < lower

variable {report}

end EvaluationReport

end Gate

end AdaptiveLlm
