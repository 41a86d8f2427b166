import AdaptiveLlm.Contracts.Attempts
import AdaptiveLlm.Datasets.Sources

set_option autoImplicit false

/-! # Records of a candidate

What `select` looks up around an interaction, and the reasons it finds there.
`Datasets/Eligibility.lean` has the rest of `select`, for which these are a parameter.

An id without a record excludes the interaction under a reason of its own, and so does a negative
label of a user that no later correction answers. The reasons are the texts under which a build
counts its exclusions; which of them apply depends on the purpose of the dataset. -/

namespace AdaptiveLlm

namespace Datasets

open Rag (RetrievalRun)
open Stored (Feedback Interaction)

/-- A generation attempt with its output. -/
structure StoredAttempt extends GenerationAttempt where
  outputRef : Option String
  outputHash : Option String

/-- What the store has of the interaction's retrieval run, feedback and final attempt, and what is
    left of the policy. -/
structure Records where
  /-- `some none` is an id without a record -/
  retrieval : Option (Option RetrievalRun)
  feedback : List (Option Feedback)
  attempt : Option StoredAttempt
  residency : String

namespace Records

variable (r : Records)

/-- The feedback that there is. -/
def found : List Feedback := r.feedback.filterMap id

/-- `corrections` of `select`. -/
def corrections : List Feedback :=
  r.found.filter fun f => f.labelType = "correction" && f.trainingAuthorised &&
    f.correctionRef.any (· ≠ "") && f.errorCode.all (· = "")

/-- A user's negative label without a later correction. -/
def unresolved (f : Feedback) : Bool :=
  f.source = "user" && f.labelType ∈ ["thumb", "rubric"] && f.value.score * 2 < f.value.maxScore &&
    !r.corrections.any fun c => f.createdAt < c.createdAt

/-- `Example.retrieval`. -/
def run : Option RetrievalRun := r.retrieval.bind id

/-- The candidates of the run that were supplied. -/
def supplied : List Rag.ChunkEvidence :=
  (r.run.map (·.candidates)).getD [] |>.filter (·.suppliedToModel)

/-- The reasons in the status and the records. -/
def reasons (purpose : DatasetPurpose) (i : Interaction) : List String :=
  (if textField i.others "status" ≠ some "completed" && purpose ≠ .routerTraining then ["not_completed"]
    else []) ++
  (if r.retrieval.any (·.isNone) then ["missing_retrieval"] else []) ++
  (if r.supplied.any fun e => e.licenceClass ∉ [.synthetic, .internalApproved] then ["unsupported_licence"]
    else []) ++
  (if r.feedback.any (·.isNone) then ["missing_feedback"] else []) ++
  (if purpose ≠ .routerTraining && r.found.any r.unresolved then ["unresolved_negative_feedback"] else [])

end Records

/-- `select` over the records that are looked up. -/
def selectOver (decide : Interaction → CurrentPolicy) (records : Stored.Store → Interaction → Records) :
    EligibilityServices where
  decide := decide
  recordReasons s purpose i := (records s i).reasons purpose i

end Datasets

end AdaptiveLlm
