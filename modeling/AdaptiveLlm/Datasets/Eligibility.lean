import AdaptiveLlm.Contracts.Models
import AdaptiveLlm.Datasets.Deduplication
import AdaptiveLlm.Storage.Privacy

set_option autoImplicit false

/-! # Eligible interactions

`select` (`datasets/eligibility.py`) walks the interactions of the tenants of a specification and
keeps those that nothing excludes. What it asks of the lifecycle, the tombstones and the record
itself is spelled out; its questions to the policy and to the records around an interaction are
parameters.

A reason is counted once for each interaction that it excludes. Nothing is assumed of what the
policy says, which is asked anew for every interaction. For what follows it matters only where a
candidate comes from: it was stored for a tenant of the specification when the build read the store,
and the store keeps it or a tombstone of it (`Eligible`). -/

namespace AdaptiveLlm

namespace Datasets

open Stored (Fields Interaction Store StoreResult RowState)

/-! ## Specifications -/

/-- `DatasetPurpose`: what a dataset is built for. -/
inductive DatasetPurpose where
  | adapterTraining
  | distillation
  | routerTraining
  | evaluation
  deriving DecidableEq, Repr

/-- The window of time that the interactions of a dataset fall into. -/
structure SourceWindow where
  startAt : ℤ
  endAt : ℤ
  ordered : startAt < endAt

/-- The other fields of a dataset specification that a build reads. -/
structure BuildSpecification extends DatasetSpecification where
  datasetId : String
  fixtureSet : String := "synthetic"
  purpose : DatasetPurpose := .adapterTraining
  tenantIds : List String
  sourceWindow : SourceWindow
  eligibilityPolicyVersion : String
  minimumExamples : ℕ := 1
  nearDuplicateThreshold : ℚ
  generalSafetyFraction : ℚ
  softTargets : Bool := false
  sourceDatasetId : Option String := none
  distinctTenants : tenantIds.Nodup
  thresholdNonneg : 0 ≤ nearDuplicateThreshold

/-- Why a build ends without a dataset. -/
inductive BuildError where
  | operatorRequired
  | datasetTenantForbidden
  | eligibilityPolicyVersionMismatch
  | routingObservationsUnavailable
  | distillationUnavailable
  | distillationMixInsufficientExamples
  | distillationMixContaminated
  | distillationBuildFailed
  | insufficientTrainingExamples
  | datasetVersionExists
  /-- any other exception -/
  | failed
  deriving DecidableEq, Repr

/-! ## Selection

An interaction is left out for every reason that applies, and each is counted. The policy is asked
anew about each, and the build ends where its version is not that of the specification. -/

/-- A text field of an interaction that the storage has no name for. -/
def textField (fields : Fields) (name : String) : Option String :=
  (fields.lookup name).bind Json.str?

/-- What `select` reads of the current policy. -/
structure CurrentPolicy where
  policyVersion : String
  processingAllowed : Bool
  trainingAllowed : Bool
  evaluationAllowed : Bool
  deriving DecidableEq, Repr

/-- The dataclass `Example`: a candidate. Its records are looked up in the snapshot again. -/
structure Example where
  interaction : Interaction
  policy : CurrentPolicy

/-- What was selected so far, and how many were left out for which reason. -/
structure Selection where
  examples : List Example := []
  considered : ℕ := 0
  exclusions : String → ℕ := fun _ => 0

/-- The services `select` asks. -/
structure EligibilityServices where
  decide : Interaction → CurrentPolicy
  /-- the reasons found in the status, retrieval run, feedback and attempt of an interaction -/
  recordReasons : Store → DatasetPurpose → Interaction → List String

/-- `in_window`. -/
def inWindow (s : Store) (tenant : String) (window : SourceWindow) : StoreResult (List Interaction) :=
  Stored.Store.parseAll ((s.records.filter fun row =>
    row.kind = .interactions && row.tenantId = tenant &&
      row.startedAt.any fun asOf => window.startAt ≤ asOf && asOf < window.endAt).mergeSort
    fun a b => a.startedAt.getD 0 < b.startedAt.getD 0 ||
      a.startedAt.getD 0 = b.startedAt.getD 0 && a.recordId ≤ b.recordId)

section Select

variable (sv : EligibilityServices) (s : Store) (spec : BuildSpecification) (asOf : ℤ)

/-- The set `reasons` of an interaction. -/
def exclusionReasons (tenant : String) (i : Interaction) (current : CurrentPolicy) : List String :=
  let id := i.interactionId
  ((if i.applicationId = "evaluation" then ["evaluation_interaction"] else []) ++
    (if !current.trainingAllowed || !current.processingAllowed then ["training_forbidden"] else []) ++
    (if spec.purpose = .evaluation && !current.evaluationAllowed then ["evaluation_forbidden"]
      else []) ++
    (if (s.getTombstone tenant id).isSome then ["interaction_deleted"] else []) ++
    (if i.subjectIdPseudonymous.any fun subject => (s.getSubjectTombstone tenant subject).isSome then
      ["subject_deleted"] else []) ++
    (if (s.expiresAt tenant id).all (· ≤ asOf) || s.stateOf tenant id = some .expired then ["expired"]
      else []) ++
    (if s.stateOf tenant id = some .deleted then ["interaction_deleted"] else []) ++
    (if i.errorCode = some "persistence_redaction_failed" then ["persistence_redaction_failed"]
      else []) ++
    (if spec.purpose ≠ .routerTraining && (i.input.messagesRef.all (· = "") ||
        (textField i.input.others "content_hash").all (· = "")) then ["missing_input"] else []) ++
    sv.recordReasons s spec.purpose i).dedup

/-- One interaction of the loop. -/
def considerInteraction (tenant : String) (selection : Selection) (i : Interaction) :
    Except BuildError Selection :=
  let current := sv.decide i
  if current.policyVersion ≠ spec.eligibilityPolicyVersion then
    .error .eligibilityPolicyVersionMismatch
  else match exclusionReasons sv s spec asOf tenant i current with
    | [] => .ok { selection with
        considered := selection.considered + 1
        examples := selection.examples ++ [⟨i, current⟩] }
    | reasons => .ok { selection with
        considered := selection.considered + 1
        exclusions := reasons.foldl increment selection.exclusions }

/-- One tenant of the loop. -/
def considerTenant (selection : Selection) (tenant : String) : Except BuildError Selection :=
  match inWindow s tenant spec.sourceWindow with
  | .error _ => .error .failed
  | .ok interactions => interactions.foldlM (considerInteraction sv s spec asOf tenant) selection

/-- The tenants of a specification in order. -/
def BuildSpecification.sortedTenants : List String := spec.tenantIds.mergeSort (· ≤ ·)

/-- `select`. -/
def select : Except BuildError Selection := do
  let selection ← spec.sortedTenants.foldlM (considerTenant sv s spec asOf) {}
  .ok { selection with
    examples := selection.examples.mergeSort fun a b =>
      a.interaction.startedAt < b.interaction.startedAt ||
        a.interaction.startedAt = b.interaction.startedAt &&
          a.interaction.interactionId ≤ b.interaction.interactionId }

end Select

/-! ## What is selected -/

section Selected

variable {sv : EligibilityServices} {s : Store} {spec : BuildSpecification} {asOf : ℤ}

theorem BuildSpecification.sortedTenants_perm : spec.sortedTenants.Perm spec.tenantIds :=
  List.mergeSort_perm _ _

theorem BuildSpecification.sortedTenants_nodup : spec.sortedTenants.Nodup :=
  spec.sortedTenants_perm.nodup_iff.2 spec.distinctTenants

/-- A candidate can be selected: it is of a tenant of the specification, and stored. -/
structure Eligible (s : Store) (spec : BuildSpecification) (i : Interaction) : Prop where
  tenant : i.tenantId ∈ spec.tenantIds
  holds : s.Holds i.tenantId i

/-- The interactions of a tenant name it. -/
theorem inWindow_eq_ok (hinv : s.PrivacyInv) {tenant : String} {window : SourceWindow}
    {interactions : List Interaction} (h : inWindow s tenant window = .ok interactions) :
    ∀ i ∈ interactions, i.tenantId = tenant ∧ s.Holds tenant i := by
  intro i hi
  obtain ⟨row, hrow, hparse⟩ := (Stored.Store.parseAll_eq_ok h).2 i hi
  rw [List.mem_mergeSort, List.mem_filter] at hrow
  obtain ⟨hmem, hmatch⟩ := hrow
  simp only [Bool.and_eq_true, decide_eq_true_eq] at hmatch
  obtain ⟨⟨hkind, htenant⟩, -⟩ := hmatch
  obtain ⟨hid, hsubject, hnames⟩ := hinv.ofJson_row hmem hkind hparse
  exact ⟨hnames.symm.trans htenant, row, hmem, hkind, htenant, hid, hsubject, hnames⟩

/-- **Candidates.** Each is of a tenant of the specification and stored. -/
theorem select_eligible (hinv : s.PrivacyInv) {selection : Selection}
    (h : select sv s spec asOf = .ok selection) :
    ∀ c ∈ selection.examples, Eligible s spec c.interaction := by
  obtain ⟨found, hloop, h⟩ := Except.bind_eq_ok.1 h
  cases h
  have hfound : ∀ c ∈ found.examples, Eligible s spec c.interaction := by
    refine (Except.foldlM_of_invariant (fun rest (sel : Selection) =>
      (∀ t ∈ rest, t ∈ spec.tenantIds) ∧ ∀ c ∈ sel.examples, Eligible s spec c.interaction) ?_
      spec.sortedTenants ⟨fun t ht => spec.sortedTenants_perm.mem_iff.1 ht, by simp⟩ hloop).2
    rintro tenant rest sel sel' ⟨hrest, hsel⟩ hstep
    refine ⟨fun t ht => hrest t (List.mem_cons_of_mem _ ht), ?_⟩
    have htenant : tenant ∈ spec.tenantIds := hrest tenant List.mem_cons_self
    unfold considerTenant at hstep
    split at hstep
    · cases hstep
    rename_i interactions hwindow
    -- the interactions of the window, one by one
    refine (Except.foldlM_of_invariant (fun rest (sel : Selection) =>
      (∀ i ∈ rest, Eligible s spec i) ∧ ∀ c ∈ sel.examples, Eligible s spec c.interaction) ?_
      interactions ⟨fun i hi => ?_, hsel⟩ hstep).2
    · rintro i rest' sel₁ sel₂ ⟨hi, hsel₁⟩ hone
      refine ⟨fun j hj => hi j (List.mem_cons_of_mem _ hj), ?_⟩
      unfold considerInteraction at hone
      dsimp only at hone
      split at hone
      · cases hone
      split at hone
      · cases hone
        intro c hc
        rcases List.mem_append.1 hc with hc | hc
        · exact hsel₁ c hc
        · obtain rfl := List.mem_singleton.1 hc
          exact hi i List.mem_cons_self
      · cases hone
        exact hsel₁
    · obtain ⟨hnames, hholds⟩ := inWindow_eq_ok hinv hwindow i hi
      subst hnames
      exact ⟨htenant, hholds⟩
  intro c hc
  exact hfound c (List.mem_mergeSort.1 hc)

end Selected

end Datasets

end AdaptiveLlm
