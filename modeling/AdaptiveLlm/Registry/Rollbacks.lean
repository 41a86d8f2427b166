import AdaptiveLlm.Registry.Deployments
import AdaptiveLlm.Registry.History

set_option autoImplicit false

/-! # Rolling back a rollback

A rollback exchanges the two versions of a deployment row. What it asks of the version that returns,
an approval in the history, also holds of the version it retires: no model reaches production without
one. So the same call once more exchanges them back.

`Exchangeable` says what a rollback needs of the registry, and `exchange` what it makes of it; the
theorem `rollback_iff` has nothing between the two. That an exchanged registry is exchangeable again
is then a matter of reading the conditions on the registry that `exchange` returns. What is not
restored grows: histories, rows of transitions and events. -/

namespace AdaptiveLlm

/-- The manifest with one more entry in its history. -/
def ModelManifest.moved (m : ModelManifest) (entry : LifecycleTransition) : ModelManifest :=
  { m with state := entry.toState, lifecycleHistory := m.lifecycleHistory ++ [entry] }

@[simp] theorem ModelManifest.moved_version (m : ModelManifest) (entry : LifecycleTransition) :
    (m.moved entry).version = m.version := rfl

@[simp] theorem ModelManifest.moved_tenantIds (m : ModelManifest) (entry : LifecycleTransition) :
    (m.moved entry).tenantIds = m.tenantIds := rfl

@[simp] theorem ModelManifest.moved_state (m : ModelManifest) (entry : LifecycleTransition) :
    (m.moved entry).state = entry.toState := rfl

namespace Registry

variable {checks checks' : RegistryChecks} {identity : Identity} {r r' : Registry}

theorem get_eq_ok_iff {version : String} {m : ModelManifest} :
    r.get checks identity version = .ok m ↔
      authorize identity [] = .ok () ∧ r.modelVersions version = some m ∧
        m.tenantIds ⊆ identity.datasetTenants ∧ checks.verifyMetadata m = true := by
  unfold get
  rw [Except.bind_eq_ok]
  constructor
  · rintro ⟨_, hauthorized, h⟩
    cases hfound : r.modelVersions version with
    | none => rw [hfound] at h; cases h
    | some found =>
      rw [hfound] at h
      obtain ⟨_, htenants, h⟩ := Except.bind_eq_ok.1 h
      obtain ⟨_, hmetadata, h⟩ := Except.bind_eq_ok.1 h
      cases h
      exact ⟨hauthorized, rfl, of_decide_eq_true (require_eq_ok.1 htenants),
        require_eq_ok.1 hmetadata⟩
  · rintro ⟨hauthorized, hfound, htenants, hmetadata⟩
    refine ⟨_, hauthorized, ?_⟩
    rw [hfound]
    dsimp only
    rw [require_of (decide_eq_true htenants), Except.ok_bind, require_of hmetadata, Except.ok_bind]

/-! ## One exchange

A rollback takes the current version of a deployment out of production and puts the previous one
back. It is stated with all that it asks for and all that it leaves, so that two of them can be
composed. -/

/-- The entry that a rollback by the identity writes. -/
def rollbackEntry (identity : Identity) (reason : String) (m : ModelManifest)
    (target : LifecycleState) (evaluationId : Option String) : LifecycleTransition :=
  { fromState := some m.state, toState := target, actor := identity.subjectIdPseudonymous.getD "",
    reason, evaluationId }

/-- One model moved, with its row and its events. -/
def move (checks : RegistryChecks) (r : Registry) (m : ModelManifest) (entry : LifecycleTransition) :
    Registry := (r.setModel (m.moved entry)).record checks (m.moved entry) entry

/-- A transition of a rollback rests on the approval in the history alone. -/
theorem transition_rollback {m updated : ModelManifest} {request : PromotionRequest} :
    r.transition checks identity m request true = .ok (updated, r') ↔
      ValidTransition m.state request.targetState identity.subjectIdPseudonymous request.reason
          (approval m).isSome true ∧
        (request.targetState = .revoked ∨ request.targetState = .deprecated ∨
          checks.verifyArtifact m = true) ∧
        checks.identifier (identity.subjectIdPseudonymous.getD "") = true ∧
        updated = m.moved
          (rollbackEntry identity request.reason m request.targetState request.evaluationId) ∧
        r' = r.move checks m
          (rollbackEntry identity request.reason m request.targetState request.evaluationId) := by
  unfold transition
  rw [show r.transitionPassed checks identity m request true = .ok (approval m).isSome from rfl,
    Except.ok_bind, Except.bind_eq_ok]
  constructor
  · rintro ⟨_, hvalid, h⟩
    obtain ⟨_, -, h⟩ := Except.bind_eq_ok.1 h
    obtain ⟨_, hartifact, h⟩ := Except.bind_eq_ok.1 h
    obtain ⟨_, hidentified, h⟩ := Except.bind_eq_ok.1 h
    have hartifact := require_eq_ok.1 hartifact
    simp only [Bool.or_eq_true, decide_eq_true_eq, or_assoc] at hartifact
    refine ⟨validateTransition_ok.1 hvalid, hartifact, require_eq_ok.1 hidentified, ?_⟩
    cases hevaluation : request.evaluationId <;>
      simp only [hevaluation, Bool.not_true, Bool.and_false, Bool.false_eq_true, if_false,
        Except.ok.injEq, Prod.mk.injEq] at h <;>
      exact ⟨h.1.symm, h.2.symm⟩
  · rintro ⟨hvalid, hartifact, hidentified, rfl, rfl⟩
    refine ⟨_, validateTransition_ok.2 hvalid, ?_⟩
    have hprogression : progression checks identity m request true = .ok () := rfl
    rw [hprogression, Except.ok_bind, require_of (by simpa [or_assoc] using hartifact), Except.ok_bind]
    dsimp only
    rw [require_of hidentified, Except.ok_bind]
    cases request.evaluationId <;>
      simp only [Bool.not_true, Bool.and_false, Bool.false_eq_true, if_false] <;> rfl

/-- What a rollback asks for. -/
structure Exchangeable (checks : RegistryChecks) (identity : Identity) (r : Registry)
    (deploymentId reason : String) (current previous : ModelManifest)
    (approved : LifecycleTransition) : Prop where
  authorized : authorize identity [] = .ok ()
  row : ∃ v w, r.deployments deploymentId = some ⟨v, some w⟩ ∧ r.modelVersions v = some current ∧
    r.modelVersions w = some previous
  currentTenants : current.tenantIds ⊆ identity.datasetTenants
  previousTenants : previous.tenantIds ⊆ identity.datasetTenants
  currentMetadata : checks.verifyMetadata current = true
  previousMetadata : checks.verifyMetadata previous = true
  currentState : current.state = .production
  previousState : previous.state = .deprecated
  approval : approval previous = some approved
  note : (OperatorNote.make reason).isSome = true
  actor : identity.subjectIdPseudonymous.getD "" ≠ ""
  identified : checks.identifier (identity.subjectIdPseudonymous.getD "") = true
  artifact : checks.verifyArtifact previous = true

/-- The registry after a rollback. -/
def exchange (checks : RegistryChecks) (identity : Identity) (r : Registry)
    (deploymentId reason : String) (current previous : ModelManifest)
    (approved : LifecycleTransition) : Registry :=
  ((r.move checks current (rollbackEntry identity reason current .deprecated none)).move checks previous
    (rollbackEntry identity reason previous .production approved.evaluationId)).setDeployment
      deploymentId ⟨previous.version, some current.version⟩

theorem note_make {reason : String} {note : OperatorNote} (h : OperatorNote.make reason = some note) :
    note.reason = reason := by
  unfold OperatorNote.make at h
  split at h
  · cases h
    rfl
  · cases h

/-- **A rollback**, exactly. -/
theorem rollback_iff {deploymentId reason : String} {models : List ModelManifest} :
    r.rollback checks identity deploymentId reason = .ok (models, r') ↔
      ∃ current previous approved,
        Exchangeable checks identity r deploymentId reason current previous approved ∧
        models = [current.moved (rollbackEntry identity reason current .deprecated none),
          previous.moved (rollbackEntry identity reason previous .production approved.evaluationId)] ∧
        r' = r.exchange checks identity deploymentId reason current previous approved := by
  unfold rollback
  rw [Except.bind_eq_ok]
  constructor
  · rintro ⟨_, hauthorized, h⟩
    split at h
    · cases h
    · cases h
    rename_i v w hrow
    obtain ⟨current, hcurrent, h⟩ := Except.bind_eq_ok.1 h
    obtain ⟨previous, hprevious, h⟩ := Except.bind_eq_ok.1 h
    split at h
    · cases h
    rename_i approved happroved
    obtain ⟨_, hstates, h⟩ := Except.bind_eq_ok.1 h
    have hstates := require_eq_ok.1 hstates
    simp only [Bool.and_eq_true, decide_eq_true_eq] at hstates
    split at h
    · cases h
    rename_i note hnote
    obtain ⟨⟨retired, r₁⟩, hretire, h⟩ := Except.bind_eq_ok.1 h
    obtain ⟨⟨restored, r₂⟩, hrestore, h⟩ := Except.bind_eq_ok.1 h
    cases h
    obtain ⟨hvalid, -, hidentified, rfl, rfl⟩ := transition_rollback.1 hretire
    obtain ⟨-, hartifact, -, rfl, rfl⟩ := transition_rollback.1 hrestore
    obtain ⟨-, hcurrent, hcurrentTenants, hcurrentMetadata⟩ := get_eq_ok_iff.1 hcurrent
    obtain ⟨-, hprevious, hpreviousTenants, hpreviousMetadata⟩ := get_eq_ok_iff.1 hprevious
    refine ⟨current, previous, approved, ⟨hauthorized, ⟨v, w, hrow, hcurrent, hprevious⟩,
      hcurrentTenants, hpreviousTenants, hcurrentMetadata, hpreviousMetadata, hstates.1, hstates.2,
      happroved, by rw [hnote]; rfl, hvalid.actor, hidentified, by simpa using hartifact⟩, ?_, ?_⟩
    · rw [note_make hnote]
    · rw [exchange, note_make hnote]
  · rintro ⟨current, previous, approved, h, rfl, rfl⟩
    refine ⟨_, h.authorized, ?_⟩
    obtain ⟨v, w, hrow, hcurrent, hprevious⟩ := h.row
    obtain ⟨note, hnote⟩ := Option.isSome_iff_exists.1 h.note
    have hget : r.get checks identity v = .ok current :=
      get_eq_ok_iff.2 ⟨h.authorized, hcurrent, h.currentTenants, h.currentMetadata⟩
    have hget' : r.get checks identity w = .ok previous :=
      get_eq_ok_iff.2 ⟨h.authorized, hprevious, h.previousTenants, h.previousMetadata⟩
    rw [hrow]
    dsimp only
    rw [hget, Except.ok_bind, hget', Except.ok_bind, h.approval]
    dsimp only
    rw [require_of (by simp [h.currentState, h.previousState]), Except.ok_bind, hnote]
    dsimp only
    have hretire : r.transition checks identity current
        { note with modelVersion := current.version, targetState := .deprecated } true = .ok (_, _) :=
      transition_rollback.2 ⟨⟨edgeAllowed_iff.2 (.inl (by simp [h.currentState, allowedEdges])), h.actor,
        note.nonblank, by simp⟩, .inr (.inl rfl), h.identified, rfl, rfl⟩
    rw [hretire, Except.ok_bind]
    dsimp only
    have hrestore : (r.move checks current (rollbackEntry identity note.reason current .deprecated
        none)).transition checks identity previous
          { note with
            modelVersion := previous.version
            targetState := .production
            evaluationId := approved.evaluationId } true = .ok (_, _) :=
      transition_rollback.2 ⟨⟨edgeAllowed_iff.2 (.inr ⟨rfl, by rw [h.approval]; rfl, h.previousState, rfl⟩),
        h.actor, note.nonblank, by simp⟩, .inr (.inr h.artifact), h.identified, rfl, rfl⟩
    rw [hrestore, Except.ok_bind, exchange, note_make hnote]

/-! ## Both exchanges

After the first exchange the row names the two versions the other way round, and each is in the
state the other had. What the second call asks is read off this. -/

/-- Transition rows and events are added, and of the other tables those of jobs and of evaluations stay. -/
structure Grown (r r' : Registry) : Prop where
  lifecycleTransitions : r.lifecycleTransitions <+: r'.lifecycleTransitions
  outbox : r.outbox <+: r'.outbox
  trainingJobs : r'.trainingJobs = r.trainingJobs
  trainingSubmitters : r'.trainingSubmitters = r.trainingSubmitters
  evaluationReports : r'.evaluationReports = r.evaluationReports
  baselines : r'.baselines = r.baselines

theorem Grown.trans {r'' : Registry} (h : Grown r r') (h' : Grown r' r'') : Grown r r'' :=
  ⟨h.lifecycleTransitions.trans h'.lifecycleTransitions, h.outbox.trans h'.outbox,
    h'.trainingJobs.trans h.trainingJobs, h'.trainingSubmitters.trans h.trainingSubmitters,
    h'.evaluationReports.trans h.evaluationReports, h'.baselines.trans h.baselines⟩

/-- The registry as it was, but for histories, transition rows and events, which have grown. -/
structure Restored (r r' : Registry) : Prop extends Grown r r' where
  deployments : r'.deployments = r.deployments
  modelVersions : ∀ v, ∃ entries, r'.modelVersions v = (r.modelVersions v).map fun m =>
    { m with lifecycleHistory := m.lifecycleHistory ++ entries }

/-- The approval stays the latest one. -/
theorem approval_moved {m : ModelManifest} {entry : LifecycleTransition}
    (h : entry.fromState ≠ some .evaluating) : approval (m.moved entry) = approval m := by
  simp [approval, ModelManifest.moved, h]

/-- No model reaches production without an approval. -/
theorem Reachable.approved (hr : r.Reachable) {v : String} {m : ModelManifest}
    (hm : r.modelVersions v = some m) (hstate : m.state = .production) :
    ∃ approved, approval m = some approved := by
  have hmodel := (hr.of_moves HistoryInv.empty fun _ _ hkeyed h hmove =>
    h.move hkeyed hmove).2.models v m hm
  obtain ⟨last, hlast, hto⟩ := Option.map_eq_some_iff.1 hmodel.path.last
  obtain ⟨entry, hentry, hfrom, hto, -⟩ := hmodel.evidenced
    ⟨last, List.mem_of_getLast? hlast, by rw [hto, hstate]; rfl⟩
  refine Option.isSome_iff_exists.1 (List.find?_isSome.2 ⟨entry, List.mem_reverse.2 hentry, ?_⟩)
  simp [hfrom, hto]

theorem move_grown (m : ModelManifest) (entry : LifecycleTransition) :
    Grown r (r.move checks m entry) := by
  have houtbox : r.outbox <+: (r.move checks m entry).outbox :=
    (enqueue_append checks.pendingLimit r.outbox _).elim fun _ h => ⟨_, h.2.symm⟩
  exact ⟨List.prefix_append _ _, houtbox, rfl, rfl, rfl, rfl⟩

theorem exchange_grown (deploymentId reason : String) (current previous : ModelManifest)
    (approved : LifecycleTransition) :
    Grown r (r.exchange checks identity deploymentId reason current previous approved) := by
  have hset (r : Registry) (d : String) (row : DeploymentRow) : Grown r (r.setDeployment d row) :=
    ⟨List.prefix_rfl, List.prefix_rfl, rfl, rfl, rfl, rfl⟩
  exact ((move_grown _ _).trans (move_grown _ _)).trans (hset _ _ _)

/-- The versions that a rollback exchanges are stored under their own names, which are two. -/
theorem Exchangeable.stored (h : r.Keyed) {deploymentId reason : String}
    {current previous : ModelManifest} {approved : LifecycleTransition}
    (hex : Exchangeable checks identity r deploymentId reason current previous approved) :
    r.modelVersions current.version = some current ∧ r.modelVersions previous.version = some previous ∧
      r.deployments deploymentId = some ⟨current.version, some previous.version⟩ ∧
      current.version ≠ previous.version := by
  obtain ⟨v, w, hrow, hcurrent, hprevious⟩ := hex.row
  obtain rfl := (h v current hcurrent).1
  obtain rfl := (h w previous hprevious).1
  refine ⟨hcurrent, hprevious, hrow, fun heq => ?_⟩
  obtain rfl : current = previous := by simpa [heq, hprevious] using hcurrent.symm
  have hstates := hex.currentState.symm.trans hex.previousState
  cases hstates

theorem exchange_modelVersions {deploymentId reason : String} {current previous : ModelManifest}
    {approved : LifecycleTransition} :
    (r.exchange checks identity deploymentId reason current previous approved).modelVersions =
      Function.update (Function.update r.modelVersions current.version
          (some (current.moved (rollbackEntry identity reason current .deprecated none))))
        previous.version (some (previous.moved
          (rollbackEntry identity reason previous .production approved.evaluationId))) := rfl

theorem exchange_deployments {deploymentId reason : String} {current previous : ModelManifest}
    {approved : LifecycleTransition} :
    (r.exchange checks identity deploymentId reason current previous approved).deployments =
      Function.update r.deployments deploymentId (some ⟨previous.version, some current.version⟩) := rfl

/-- Two exchanges of the same two versions. -/
theorem restored_of_exchanges (hkeyed : r.Keyed) {deploymentId reason reason' : String}
    {current previous : ModelManifest} {approved approved' : LifecycleTransition}
    (h : Exchangeable checks identity r deploymentId reason current previous approved) :
    Restored r ((r.exchange checks identity deploymentId reason current previous approved).exchange
      checks' identity deploymentId reason'
      (previous.moved (rollbackEntry identity reason previous .production approved.evaluationId))
      (current.moved (rollbackEntry identity reason current .deprecated none)) approved') := by
  obtain ⟨hcurrent, hprevious, hrow, hne⟩ := h.stored hkeyed
  refine ⟨(exchange_grown ..).trans (exchange_grown ..), ?_, fun v => ?_⟩
  · rw [exchange_deployments, exchange_deployments, Function.update_idem]
    exact Function.update_eq_self_iff.2 hrow.symm
  · rw [exchange_modelVersions, exchange_modelVersions]
    by_cases hv : v = current.version
    · subst hv
      exact ⟨_, by simp [hcurrent, ModelManifest.moved, rollbackEntry, h.currentState]; rfl⟩
    · by_cases hw : v = previous.version
      · subst hw
        exact ⟨_, by simp [hprevious, ModelManifest.moved, rollbackEntry, h.previousState, hv]; rfl⟩
      · exact ⟨[], by simp [hv, hw]⟩

/-- **A rollback of a rollback** succeeds while the artifacts verify, and restores the registry but for
    histories, transition rows and events. -/
theorem rollback_rollback (hr : r.Reachable) {deploymentId reason reason' : String}
    {models : List ModelManifest}
    (h : r.rollback checks identity deploymentId reason = .ok (models, r'))
    (hreason : (OperatorNote.make reason').isSome = true)
    (hidentifier : checks'.identifier = checks.identifier)
    (hverify : ∀ m ∈ models, checks'.verifyMetadata m = true ∧ checks'.verifyArtifact m = true) :
    ∃ models' r'', r'.rollback checks' identity deploymentId reason' = .ok (models', r'') ∧
      Restored r r'' := by
  obtain ⟨current, previous, approved, hex, rfl, rfl⟩ := rollback_iff.1 h
  obtain ⟨hcurrent, hprevious, hrow, hne⟩ := hex.stored hr.valid.1
  obtain ⟨approved', happroved'⟩ := hr.approved hcurrent hex.currentState
  have hretired := hverify _ List.mem_cons_self
  have hrestored := hverify _ (List.mem_cons_of_mem _ List.mem_cons_self)
  -- the two versions have changed places, and the one that was retired carries its approval
  have hback : Exchangeable checks' identity
      (r.exchange checks identity deploymentId reason current previous approved) deploymentId reason'
      (previous.moved (rollbackEntry identity reason previous .production approved.evaluationId))
      (current.moved (rollbackEntry identity reason current .deprecated none)) approved' := by
    refine
      { authorized := hex.authorized
        row := ⟨previous.version, current.version, ?_, ?_, ?_⟩
        currentTenants := hex.previousTenants
        previousTenants := hex.currentTenants
        currentMetadata := hrestored.1
        previousMetadata := hretired.1
        currentState := rfl
        previousState := rfl
        approval := ?_
        note := hreason
        actor := hex.actor
        identified := hidentifier ▸ hex.identified
        artifact := hretired.2 }
    · rw [exchange_deployments, Function.update_self]
    · rw [exchange_modelVersions, Function.update_self]
    · rw [exchange_modelVersions, Function.update_of_ne hne, Function.update_self]
    · rw [approval_moved (by simp [rollbackEntry, hex.currentState]), happroved']
  exact ⟨_, _, rollback_iff.2 ⟨_, _, _, hback, rfl, rfl⟩, restored_of_exchanges hr.valid.1 hex⟩

end Registry

namespace SupportModels

/-- The second version in production, the first one deprecated. -/
def replaced : Registry := released.after acceptAll [.promote operator (request "v2" .production)]

theorem replaced_reachable : replaced.Reachable := released_reachable.after acceptAll _

theorem replaced_rolls_back :
    (replaced.rollback acceptAll operator "support" "incident").isOk = true := by decide +kernel

end SupportModels

open SupportModels in
theorem replaced_restored :
    ∃ models r' models' r'', replaced.rollback acceptAll operator "support" "incident" =
        .ok (models, r') ∧
      r'.rollback acceptAll operator "support" "resolved" = .ok (models', r'') ∧
      Registry.Restored replaced r'' := by
  cases h : replaced.rollback acceptAll operator "support" "incident" with
  | error e =>
    have hrolls := replaced_rolls_back
    rw [h] at hrolls
    cases hrolls
  | ok done =>
    have hreason : (OperatorNote.make "resolved").isSome = true := by decide
    obtain ⟨models', r'', hback, hrestored⟩ := Registry.rollback_rollback replaced_reachable h hreason
      rfl fun _ _ => ⟨rfl, rfl⟩
    exact ⟨_, _, models', r'', rfl, hback, hrestored⟩

end AdaptiveLlm
