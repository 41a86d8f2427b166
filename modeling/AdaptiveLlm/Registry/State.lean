import AdaptiveLlm.Contracts.Models

set_option autoImplicit false

/-! # Lifecycle rules

`registry/state.py`: which changes of a model's lifecycle state are allowed.

The edges are listed as in the source. A transition needs its edge, an actor and a reason that is
not blank; an approval needs an evaluation that passed, and so does the way back into production,
which is open to a rollback only. `ValidTransition` collects what a transition that was allowed has
been checked for, and the registry's results cite it. -/

namespace AdaptiveLlm

/-- The errors of the registry: its own codes, and those of the checks it calls. -/
inductive RegistryError where
  | operatorRequired
  | datasetTenantForbidden
  | modelNotFound
  | artifactIntegrityFailed
  | reportIntegrityFailed
  | singleDatasetRequired
  | invalidLifecycleTransition
  | operatorNoteRequired
  | passedEvaluationRequired
  | deploymentReportRequired
  | progressionRefused
  | actorMismatch
  | deploymentConflict
  | previousVersionRequired
  | rollbackVersionUnavailable
  | evaluationModelChanged
  | evaluationExists
  | baselineChanged
  | trainerArchitectureMismatch
  | trainingCancelled
  | trainingJobNotFound
  | trainingTrainerMismatch
  | trainingJobIdConflict
  /-- a record that does not validate, and a violated SQL constraint -/
  | validation
  | constraint
  deriving DecidableEq, Repr

/-- `ALLOWED_EDGES`. -/
def allowedEdges : List (LifecycleState × LifecycleState) :=
  [(.candidate, .evaluating), (.evaluating, .approved), (.approved, .shadow), (.shadow, .canary),
    (.canary, .production), (.production, .deprecated), (.candidate, .revoked),
    (.evaluating, .revoked), (.approved, .revoked), (.shadow, .revoked), (.canary, .revoked),
    (.production, .revoked), (.deprecated, .revoked)]

/-- The `allowed` of `validate_transition`: a listed edge or, as a rollback of an approved model, the
    way back into production. -/
def edgeAllowed (current target : LifecycleState) (evaluationPassed rollback : Bool) : Bool :=
  if rollback ∧ (current, target) = (.deprecated, .production) then evaluationPassed
  else (current, target) ∈ allowedEdges

/-- `validate_transition`. -/
def validateTransition (current target : LifecycleState) (actor : Option String) (reason : String)
    (evaluationPassed rollback : Bool) : Except RegistryError Unit :=
  if ¬edgeAllowed current target evaluationPassed rollback then .error .invalidLifecycleTransition
  else if actor.getD "" = "" ∨ Python.isBlank reason then .error .operatorNoteRequired
  else if target = .approved ∧ ¬evaluationPassed then .error .passedEvaluationRequired
  else .ok ()

theorem edgeAllowed_iff {current target : LifecycleState} {evaluationPassed rollback : Bool} :
    edgeAllowed current target evaluationPassed rollback ↔
      (current, target) ∈ allowedEdges ∨
        rollback = true ∧ evaluationPassed = true ∧ current = .deprecated ∧ target = .production := by
  unfold edgeAllowed
  split
  · rename_i h
    obtain ⟨hrollback, hedge⟩ := h
    obtain ⟨rfl, rfl⟩ := Prod.mk.inj hedge
    simp [hrollback, allowedEdges]
  · rename_i h
    simp only [Prod.mk.injEq] at h
    simp only [decide_eq_true_eq]
    tauto

/-- What `validateTransition` lets through. -/
structure ValidTransition (current target : LifecycleState) (actor : Option String)
    (reason : String) (evaluationPassed rollback : Bool) : Prop where
  edge : edgeAllowed current target evaluationPassed rollback
  actor : actor.getD "" ≠ ""
  reason : Python.isBlank reason = false
  approved : target = .approved → evaluationPassed = true

theorem validateTransition_ok {current target : LifecycleState} {actor : Option String}
    {reason : String} {evaluationPassed rollback : Bool} :
    validateTransition current target actor reason evaluationPassed rollback = .ok () ↔
      ValidTransition current target actor reason evaluationPassed rollback := by
  unfold validateTransition
  constructor
  · intro h
    split at h
    · cases h
    rename_i hedge
    split at h
    · cases h
    rename_i hnote
    split at h
    · cases h
    rename_i happroved
    rw [not_or] at hnote
    rw [not_and] at happroved
    exact ⟨not_not.1 hedge, hnote.1, by simpa using hnote.2, fun ht => not_not.1 (happroved ht)⟩
  · intro h
    rw [if_neg (not_not.2 h.edge), if_neg (by simp [h.actor, h.reason]), if_neg]
    rintro ⟨ht, hp⟩
    exact hp (h.approved ht)

end AdaptiveLlm
