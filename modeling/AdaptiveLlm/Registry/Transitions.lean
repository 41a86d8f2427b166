import AdaptiveLlm.Registry.Store

set_option autoImplicit false

/-! # What a lifecycle call does

A successful call is taken apart once here: `Transitioned` says all that `_transition` can do,
`Promoted` and `RolledBack` which transitions and pointer rows make up `promote` and `rollback`.

The inversion lemmas have all that a call checks as conclusions, so the proofs behind them never
unfold a method. `promote` may do nothing, where the same request was carried out before; otherwise
it moves one or two versions and their pointer. `rollback` moves two. -/

namespace AdaptiveLlm

namespace Registry

variable {checks : RegistryChecks} {identity : Identity} {r r' : Registry}

/-! ## Reading -/

theorem get_eq_ok {version : String} {manifest : ModelManifest}
    (h : r.get checks identity version = .ok manifest) :
    r.modelVersions version = some manifest := by
  unfold get at h
  obtain ⟨_, -, h⟩ := Except.bind_eq_ok.1 h
  cases hfound : r.modelVersions version with
  | none => rw [hfound] at h; cases h
  | some found =>
    rw [hfound] at h
    obtain ⟨_, -, h⟩ := Except.bind_eq_ok.1 h
    obtain ⟨_, -, h⟩ := Except.bind_eq_ok.1 h
    cases h
    rfl

theorem evaluation_eq_ok {evaluationId : String} {report : EvaluationReport}
    (h : r.evaluation checks identity evaluationId = .ok (some report)) :
    ∃ tenants, r.evaluationReports evaluationId = some (tenants, report) := by
  unfold evaluation at h
  obtain ⟨_, -, h⟩ := Except.bind_eq_ok.1 h
  cases hfound : r.evaluationReports evaluationId with
  | none => rw [hfound] at h; cases h
  | some found =>
    obtain ⟨tenants, stored⟩ := found
    rw [hfound] at h
    dsimp only at h
    split at h
    · obtain ⟨_, -, h⟩ := Except.bind_eq_ok.1 h
      cases h
      exact ⟨tenants, rfl⟩
    · cases h

/-- A stored report that the model has passed with its artifact. -/
def Evidence (r : Registry) (manifest : ModelManifest) (evaluationId : String) : Prop :=
  ∃ tenants report, r.evaluationReports evaluationId = some (tenants, report) ∧
    report.passed = true ∧ report.specification.candidateDeploymentId = manifest.version ∧
    report.candidateArtifactDigest = some manifest.artifactDigest

theorem evidence_of_matches {manifest : ModelManifest} {evaluationId : String}
    {report : EvaluationReport} {dataset : DatasetLineage}
    (h : r.evaluation checks identity evaluationId = .ok (some report))
    (hmatches : reportMatches checks manifest dataset report = true) :
    r.Evidence manifest evaluationId := by
  obtain ⟨tenants, hstored⟩ := evaluation_eq_ok h
  simp only [reportMatches, Bool.and_eq_true, decide_eq_true_eq] at hmatches
  exact ⟨tenants, report, hstored, hmatches.1.1.1.1.1.1.1, hmatches.1.1.1.1.1.2,
    hmatches.1.1.1.2⟩

/-- `passed` answers yes on the evidence of a stored report only. -/
theorem passed_eq_true {manifest : ModelManifest} {evaluationId : Option String}
    (h : r.passed checks identity manifest evaluationId = .ok true) :
    ∃ id, evaluationId = some id ∧ r.Evidence manifest id := by
  unfold passed at h
  obtain ⟨dataset, -, h⟩ := Except.bind_eq_ok.1 h
  cases evaluationId with
  | none => cases h
  | some id =>
    refine ⟨id, rfl, ?_⟩
    obtain ⟨found, hfound, h⟩ := Except.bind_eq_ok.1 h
    split at h
    · cases found with
      | none => simp at h
      | some report =>
        have hmatches : reportMatches checks manifest dataset report = true := by
          simp only [Option.any_some, Except.ok.injEq, Bool.and_eq_true] at h
          exact h.2
        exact evidence_of_matches hfound hmatches
    · cases found with
      | none => cases h
      | some report =>
        dsimp only at h
        cases hbaseline : report.specification.baselineDeploymentId with
        | none => rw [hbaseline] at h; cases h
        | some baselineId =>
          rw [hbaseline] at h
          dsimp only at h
          split at h
          · cases h
          split at h
          · cases h
          obtain ⟨baseline, -, h⟩ := Except.bind_eq_ok.1 h
          cases baseline with
          | none => simp at h
          | some baseline =>
            have hmatches : reportMatches checks manifest dataset report = true := by
              simp only [Option.any_some, Except.ok.injEq, Bool.and_eq_true] at h
              exact h.1.1.1.2
            exact evidence_of_matches hfound hmatches

/-! ## Transitions -/

/-- All that a transition of `manifest` does. `passed` is the approval it rests on. -/
structure Transitioned (checks : RegistryChecks) (identity : Identity) (r : Registry)
    (manifest : ModelManifest) (request : PromotionRequest) (rollback : Bool)
    (entry : LifecycleTransition) (updated : ModelManifest) (r' : Registry) : Prop where
  actor : entry.actor = identity.subjectIdPseudonymous.getD ""
  identified : checks.identifier entry.actor = true
  fromState : entry.fromState = some manifest.state
  toState : entry.toState = request.targetState
  reason : entry.reason = request.reason
  evaluationId : entry.evaluationId = request.evaluationId
  valid : ∃ passed, r.transitionPassed checks identity manifest request rollback = .ok passed ∧
    ValidTransition manifest.state request.targetState identity.subjectIdPseudonymous
      request.reason passed rollback
  manifest : ∃ reports, updated = { manifest with
    state := request.targetState
    lifecycleHistory := manifest.lifecycleHistory ++ [entry]
    evaluationReports := reports }
  registry : r' = (r.setModel updated).record checks updated entry

theorem transition_eq_ok {manifest updated : ModelManifest} {request : PromotionRequest}
    {rollback : Bool} (h : r.transition checks identity manifest request rollback =
      .ok (updated, r')) :
    ∃ entry, Transitioned checks identity r manifest request rollback entry updated r' := by
  unfold transition at h
  obtain ⟨passed, hpassed, h⟩ := Except.bind_eq_ok.1 h
  obtain ⟨_, hvalid, h⟩ := Except.bind_eq_ok.1 h
  obtain ⟨_, -, h⟩ := Except.bind_eq_ok.1 h
  obtain ⟨_, -, h⟩ := Except.bind_eq_ok.1 h
  obtain ⟨_, hidentified, h⟩ := Except.bind_eq_ok.1 h
  cases h
  exact ⟨_, rfl, require_eq_ok.1 hidentified, rfl, rfl, rfl, rfl,
    ⟨passed, hpassed, validateTransition_ok.1 hvalid⟩, ⟨_, rfl⟩, rfl⟩

theorem Transitioned.state {manifest updated : ModelManifest} {request : PromotionRequest}
    {rollback : Bool} {entry : LifecycleTransition}
    (h : Transitioned checks identity r manifest request rollback entry updated r') :
    updated.state = request.targetState := by
  obtain ⟨reports, rfl⟩ := h.manifest
  rfl

/-- A forward transition is along an allowed edge. -/
theorem Transitioned.edge {manifest updated : ModelManifest} {request : PromotionRequest}
    {entry : LifecycleTransition}
    (h : Transitioned checks identity r manifest request false entry updated r') :
    (manifest.state, request.targetState) ∈ allowedEdges := by
  obtain ⟨passed, -, hvalid⟩ := h.valid
  rcases edgeAllowed_iff.1 hvalid.edge with hedge | ⟨hrollback, -⟩
  · exact hedge
  · cases hrollback

/-! ## Promotion -/

/-- All that `promote` does with a request that is not a retry. -/
inductive Promoted (checks : RegistryChecks) (identity : Identity) (r : Registry)
    (manifest : ModelManifest) (request : PromotionRequest) (updated : ModelManifest) :
    Registry → Prop
  | moved {r' : Registry} {entry : LifecycleTransition} :
      request.targetState ≠ .production →
      Transitioned checks identity r manifest request false entry updated r' →
      Promoted checks identity r manifest request updated r'
  | deployed {r₁ : Registry} {entry : LifecycleTransition} :
      request.targetState = .production →
      Transitioned checks identity r manifest request false entry updated r₁ →
      r.deployments manifest.registryId = none →
      Promoted checks identity r manifest request updated
        (r₁.setDeployment manifest.registryId ⟨manifest.version, none⟩)
  | replaced {r₁ r₂ : Registry} {entry retirement : LifecycleTransition} {row : DeploymentRow}
      {incumbent retired : ModelManifest} {note : PromotionRequest} :
      request.targetState = .production →
      Transitioned checks identity r manifest request false entry updated r₁ →
      r.deployments manifest.registryId = some row →
      r₁.modelVersions row.currentVersion = some incumbent → incumbent.state = .production →
      incumbent.tenantIds = manifest.tenantIds →
      note.targetState = .deprecated →
      Transitioned checks identity r₁ incumbent note false retirement retired r₂ →
      Promoted checks identity r manifest request updated
        (r₂.setDeployment manifest.registryId ⟨manifest.version, some row.currentVersion⟩)

theorem Transitioned.deployments {manifest updated : ModelManifest} {request : PromotionRequest}
    {rollback : Bool} {entry : LifecycleTransition}
    (h : Transitioned checks identity r manifest request rollback entry updated r') :
    r'.deployments = r.deployments := by
  rw [h.registry]
  rfl

theorem retireIncumbent_eq_ok {manifest : ModelManifest} {note : OperatorNote} {previous : String}
    (h : r.retireIncumbent checks identity manifest note (some previous) = .ok r') :
    ∃ incumbent request retirement retired, r.modelVersions previous = some incumbent ∧
      incumbent.state = .production ∧ incumbent.tenantIds = manifest.tenantIds ∧
      request.targetState = .deprecated ∧
      Transitioned checks identity r incumbent request false retirement retired r' := by
  unfold retireIncumbent at h
  obtain ⟨incumbent, hget, h⟩ := Except.bind_eq_ok.1 h
  obtain ⟨_, hready, h⟩ := Except.bind_eq_ok.1 h
  have hready := require_eq_ok.1 hready
  simp only [Bool.and_eq_true, decide_eq_true_eq] at hready
  obtain ⟨⟨retired, r₁⟩, htransition, h⟩ := Except.bind_eq_ok.1 h
  cases h
  obtain ⟨retirement, hretired⟩ := transition_eq_ok htransition
  exact ⟨incumbent, _, retirement, retired, get_eq_ok hget, hready.1, hready.2, rfl, hretired⟩

/-- **Promotion.** A successful `promote` is a retry that changes nothing, or a `Promoted`. -/
theorem promote_eq_ok {request : PromotionRequest} {updated : ModelManifest}
    (h : r.promote checks identity request = .ok (updated, r')) :
    ∃ manifest, r.modelVersions request.modelVersion = some manifest ∧
      ((updated = manifest ∧ r' = r) ∨
        Promoted checks identity r manifest request updated r') := by
  unfold promote at h
  obtain ⟨_, -, h⟩ := Except.bind_eq_ok.1 h
  obtain ⟨manifest, hget, h⟩ := Except.bind_eq_ok.1 h
  refine ⟨manifest, get_eq_ok hget, ?_⟩
  obtain ⟨_, -, h⟩ := Except.bind_eq_ok.1 h
  split at h
  · cases h
    exact .inl ⟨rfl, rfl⟩
  obtain ⟨⟨updated₁, r₁⟩, htransition, h⟩ := Except.bind_eq_ok.1 h
  obtain ⟨entry, hmoved⟩ := transition_eq_ok htransition
  dsimp only at h
  by_cases htarget : request.targetState = .production
  · rw [if_neg (by rw [hmoved.state]; exact not_not.2 htarget)] at h
    obtain ⟨r₂, hretire, h⟩ := Except.bind_eq_ok.1 h
    cases h
    cases hrow : r.deployments manifest.registryId with
    | none =>
      rw [hmoved.deployments, hrow] at hretire ⊢
      cases hretire
      exact .inr (.deployed htarget hmoved hrow)
    | some row =>
      rw [hmoved.deployments, hrow] at hretire ⊢
      obtain ⟨incumbent, note, retirement, retired, hincumbent, hstate, htenants, hnote, hretired⟩ :=
        retireIncumbent_eq_ok hretire
      exact .inr (.replaced htarget hmoved hrow hincumbent hstate htenants hnote hretired)
  · rw [if_pos (by rw [hmoved.state]; exact htarget)] at h
    cases h
    exact .inr (.moved htarget hmoved)

/-! ## Rollback -/

/-- All that `rollback` does. -/
structure RolledBack (checks : RegistryChecks) (identity : Identity) (r : Registry)
    (deploymentId : String) (current previous : ModelManifest) (r' : Registry) : Prop where
  row : ∃ row, r.deployments deploymentId = some row ∧
    r.modelVersions row.currentVersion = some current ∧
    ∃ version, row.previousVersion = some version ∧ r.modelVersions version = some previous
  currentState : current.state = .production
  previousState : previous.state = .deprecated
  steps : ∃ retire restore retirement restoration retired restored r₁ r₂,
    retire.targetState = .deprecated ∧
    Transitioned checks identity r current retire true retirement retired r₁ ∧
    restore.targetState = .production ∧
    Transitioned checks identity r₁ previous restore true restoration restored r₂ ∧
    r' = r₂.setDeployment deploymentId ⟨previous.version, some current.version⟩

/-- **Rollback.** -/
theorem rollback_eq_ok {deploymentId reason : String} {models : List ModelManifest}
    (h : r.rollback checks identity deploymentId reason = .ok (models, r')) :
    ∃ current previous, RolledBack checks identity r deploymentId current previous r' := by
  unfold rollback at h
  obtain ⟨_, -, h⟩ := Except.bind_eq_ok.1 h
  split at h
  · cases h
  · cases h
  rename_i currentVersion previousVersion hrow
  obtain ⟨current, hcurrent, h⟩ := Except.bind_eq_ok.1 h
  obtain ⟨previous, hprevious, h⟩ := Except.bind_eq_ok.1 h
  split at h
  · cases h
  obtain ⟨_, hstates, h⟩ := Except.bind_eq_ok.1 h
  have hstates := require_eq_ok.1 hstates
  simp only [Bool.and_eq_true, decide_eq_true_eq] at hstates
  split at h
  · cases h
  obtain ⟨⟨retired, r₁⟩, hretire, h⟩ := Except.bind_eq_ok.1 h
  obtain ⟨⟨restored, r₂⟩, hrestore, h⟩ := Except.bind_eq_ok.1 h
  cases h
  obtain ⟨retirement, hretired⟩ := transition_eq_ok hretire
  obtain ⟨restoration, hrestored⟩ := transition_eq_ok hrestore
  exact ⟨current, previous, ⟨_, hrow, get_eq_ok hcurrent, _, rfl, get_eq_ok hprevious⟩, hstates.1,
    hstates.2, _, _, retirement, restoration, retired, restored, r₁, r₂, rfl, hretired, rfl,
    hrestored, rfl⟩

/-! ## Evaluations -/

/-- What `complete` does: it registers a version that is new, with its history. -/
theorem complete_effect {job : TrainingJob} {manifest : ModelManifest} {architecture : String}
    (h : r.complete checks job manifest architecture = .ok r') :
    r.modelVersions manifest.version = none ∧ (∃ d, manifest.datasets = [d]) ∧
      ∃ data, data.eventType = .trainingCompleted ∧
        r' = ((manifest.lifecycleHistory.foldl (fun r t => r.record checks manifest t)
          (r.setModel manifest)).saveJobRow job manifest.tenantIds).emit checks manifest.tenantIds
            data := by
  unfold complete at h
  obtain ⟨_, -, h⟩ := Except.bind_eq_ok.1 h
  obtain ⟨d, hdataset, h⟩ := Except.bind_eq_ok.1 h
  obtain ⟨_, -, h⟩ := Except.bind_eq_ok.1 h
  obtain ⟨_, hnew, h⟩ := Except.bind_eq_ok.1 h
  cases h
  refine ⟨by simpa using require_eq_ok.1 hnew, ⟨d, ?_⟩, _, rfl, rfl⟩
  unfold dataset at hdataset
  split at hdataset
  · rename_i d' heq
    cases hdataset
    exact heq
  · cases hdataset

/-- A successful `record_evaluation` changes at most the reports listed by the model. -/
theorem recordEvaluation_eq_ok {report : EvaluationReport}
    (h : r.recordEvaluation checks identity report = .ok r') :
    r' = r ∨ ∃ model reports,
      r.modelVersions report.specification.candidateDeploymentId = some model ∧
      r' = r.setModel { model with evaluationReports := reports } := by
  unfold recordEvaluation at h
  dsimp only at h
  split at h
  · cases h
    exact .inl rfl
  · obtain ⟨model, hget, h⟩ := Except.bind_eq_ok.1 h
    obtain ⟨_, -, h⟩ := Except.bind_eq_ok.1 h
    cases h
    exact .inr ⟨model, _, get_eq_ok hget, rfl⟩

/-- A successful `publish` stores a report under a new id and announces it, then runs
    `record_evaluation`. -/
theorem publish_eq_ok {report : EvaluationReport} {tenants : List String} {lockBaseline : Bool}
    {expectedBaseline : Option String}
    (h : r.publish checks identity report tenants lockBaseline expectedBaseline = .ok r') :
    r.evaluationReports report.specification.evaluationId = none ∧
      ∃ data, data.eventType = .evaluationCompleted ∧
        ((r.storeReport report tenants lockBaseline).emit checks tenants data).recordEvaluation
          checks identity report = .ok r' := by
  unfold publish at h
  obtain ⟨_, -, h⟩ := Except.bind_eq_ok.1 h
  obtain ⟨_, hnew, h⟩ := Except.bind_eq_ok.1 h
  obtain ⟨_, -, h⟩ := Except.bind_eq_ok.1 h
  exact ⟨by simpa using require_eq_ok.1 hnew, _, rfl, h⟩

end Registry

end AdaptiveLlm
