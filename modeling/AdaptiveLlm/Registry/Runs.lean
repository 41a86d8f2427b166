import AdaptiveLlm.Lib.Runs
import AdaptiveLlm.Registry.Transitions

set_option autoImplicit false

/-! # Runs of the registry

`RegistryStep` is a successful transaction on the control database. Each is a sequence of
`RegistryMove`s, small changes of one model, one pointer or the reports, by which the invariants of
the models are proved.

A registry is reachable when successful calls lead to it from an empty one. Invariants of single
models are proved for moves, of which there are few, rather than for methods; `RegistryStep.moves`
is the only place where the methods are taken apart for that. A list of calls can be executed
(`Registry.after`), where a call that fails leaves the registry as it was. -/

namespace AdaptiveLlm

/-! ## Transactions -/

/-- A model as the run that trained it registers it: a candidate with one entry in its history. -/
structure FirstEntry (manifest : ModelManifest) (entry : LifecycleTransition) : Prop where
  history : manifest.lifecycleHistory = [entry]
  state : manifest.state = .candidate
  fromState : entry.fromState = none
  toState : entry.toState = .candidate
  actor : entry.actor ≠ ""
  reason : Python.isBlank entry.reason = false

/-- A transaction that is not about models, deployments or reports: it leaves them where they are,
    and the events it adds, if any, are about something else. -/
structure Unrelated (r r' : Registry) : Prop where
  modelVersions : r'.modelVersions = r.modelVersions
  deployments : r'.deployments = r.deployments
  lifecycleTransitions : r'.lifecycleTransitions = r.lifecycleTransitions
  evaluationReports : ∀ id stored, r.evaluationReports id = some stored →
    r'.evaluationReports id = some stored
  outbox : ∃ events, r'.outbox.map (·.event) = r.outbox.map (·.event) ++ events ∧
    ∀ e ∈ events, e.eventType ≠ .deploymentChanged ∧ e.eventId < r'.nextUid
  nextUid : r.nextUid ≤ r'.nextUid

theorem Unrelated.refl (r : Registry) : Unrelated r r :=
  ⟨rfl, rfl, rfl, fun _ _ h => h, ⟨[], by simp, by simp⟩, le_rfl⟩

theorem Unrelated.trans {r r' r'' : Registry} (h : Unrelated r r') (h' : Unrelated r' r'') :
    Unrelated r r'' := by
  obtain ⟨events, hevents, hnew⟩ := h.outbox
  obtain ⟨events', hevents', hnew'⟩ := h'.outbox
  refine ⟨h'.modelVersions.trans h.modelVersions, h'.deployments.trans h.deployments,
    h'.lifecycleTransitions.trans h.lifecycleTransitions, fun id stored hid =>
      h'.evaluationReports id stored (h.evaluationReports id stored hid),
    ⟨events ++ events', by rw [hevents', hevents, List.append_assoc], fun e he => ?_⟩,
    h.nextUid.trans h'.nextUid⟩
  rcases List.mem_append.1 he with he | he
  · exact ⟨(hnew e he).1, (hnew e he).2.trans_le h'.nextUid⟩
  · exact hnew' e he

/-- A successful transaction on the control database; a failed one changes nothing. -/
inductive RegistryStep : Registry → Registry → Prop
  | complete {checks : RegistryChecks} {r r' : Registry} {job : TrainingJob}
      {manifest : ModelManifest} {entry : LifecycleTransition} {architecture : String} :
      FirstEntry manifest entry → r.complete checks job manifest architecture = .ok r' →
      RegistryStep r r'
  | promote {checks : RegistryChecks} {r r' : Registry} {identity : Identity}
      {request : PromotionRequest} {updated : ModelManifest} :
      r.promote checks identity request = .ok (updated, r') → RegistryStep r r'
  | rollback {checks : RegistryChecks} {r r' : Registry} {identity : Identity}
      {deploymentId reason : String} {models : List ModelManifest} :
      r.rollback checks identity deploymentId reason = .ok (models, r') → RegistryStep r r'
  | recordEvaluation {checks : RegistryChecks} {r r' : Registry} {identity : Identity}
      {report : EvaluationReport} :
      r.recordEvaluation checks identity report = .ok r' → RegistryStep r r'
  | publish {checks : RegistryChecks} {r r' : Registry} {identity : Identity}
      {report : EvaluationReport} {tenants : List String} {lockBaseline : Bool}
      {expectedBaseline : Option String} :
      r.publish checks identity report tenants lockBaseline expectedBaseline = .ok r' →
      RegistryStep r r'
  | unrelated {r r' : Registry} : Unrelated r r' → RegistryStep r r'

namespace Registry

/-- The states that the registry can be in. -/
def Reachable (r : Registry) : Prop := Relation.ReflTransGen RegistryStep {} r

/-! ## Moves

A move changes a row of one table, or appends to the log. An invariant of a model has to look at
those that change this model or what its evidence rests on. -/

/-- Every model is stored under its version and was trained on one dataset. -/
def Keyed (r : Registry) : Prop :=
  ∀ v m, r.modelVersions v = some m → m.version = v ∧ ∃ d, m.datasets = [d]

end Registry

/-- What one committed call of the registry does. -/
inductive RegistryMove : Registry → Registry → Prop
  | register {checks : RegistryChecks} {r : Registry} {manifest : ModelManifest}
      {entry : LifecycleTransition} :
      FirstEntry manifest entry → (∃ d, manifest.datasets = [d]) →
      r.modelVersions manifest.version = none →
      RegistryMove r ((r.setModel manifest).record checks manifest entry)
  | transition {checks : RegistryChecks} {identity : Identity} {r r' : Registry}
      {manifest updated : ModelManifest} {request : PromotionRequest} {rollback : Bool}
      {entry : LifecycleTransition} :
      r.modelVersions manifest.version = some manifest →
      (rollback = true → request.targetState ≠ .approved) →
      Registry.Transitioned checks identity r manifest request rollback entry updated r' →
      RegistryMove r r'
  | annotate {r : Registry} {model : ModelManifest} {reports : List (String × Bool)} :
      r.modelVersions model.version = some model →
      RegistryMove r (r.setModel { model with evaluationReports := reports })
  | point {r : Registry} {deploymentId : String} {row : DeploymentRow} :
      RegistryMove r (r.setDeployment deploymentId row)
  | unrelated {r r' : Registry} : Unrelated r r' → RegistryMove r r'

namespace Registry

variable {checks : RegistryChecks} {identity : Identity} {r r' : Registry}

theorem Keyed.setModel (h : r.Keyed) {manifest : ModelManifest}
    (hdatasets : ∃ d, manifest.datasets = [d]) : (r.setModel manifest).Keyed := by
  intro v m hm
  by_cases heq : v = manifest.version
  · obtain rfl : manifest = m := by simpa [Registry.setModel, heq] using hm
    exact ⟨heq.symm, hdatasets⟩
  · exact h v m (by simpa [Registry.setModel, Function.update_of_ne heq] using hm)

theorem Keyed.of_modelVersions (h : r.Keyed) (hsame : r'.modelVersions = r.modelVersions) :
    r'.Keyed := by
  intro v m hm
  exact h v m (by rwa [hsame] at hm)

theorem Keyed.transitioned (h : r.Keyed) {manifest updated : ModelManifest}
    {request : PromotionRequest} {rollback : Bool} {entry : LifecycleTransition} {v : String}
    (hfound : r.modelVersions v = some manifest)
    (hmoved : Transitioned checks identity r manifest request rollback entry updated r') :
    r'.Keyed := by
  have hdatasets : ∃ d, updated.datasets = [d] := by
    obtain ⟨reports, rfl⟩ := hmoved.manifest
    exact (h v manifest hfound).2
  rw [hmoved.registry]
  exact (h.setModel hdatasets).of_modelVersions (record_modelVersions ..)

theorem Keyed.move (h : r.Keyed) (hmove : RegistryMove r r') : r'.Keyed := by
  cases hmove with
  | register _ hdatasets _ => exact (h.setModel hdatasets).of_modelVersions (record_modelVersions ..)
  | transition hfound _ hmoved => exact h.transitioned hfound hmoved
  | annotate hfound => exact h.setModel (h _ _ hfound).2
  | point => exact h.of_modelVersions rfl
  | unrelated hother => exact h.of_modelVersions hother.modelVersions

/-! ## Transactions as moves -/

/-- Events about something other than models. -/
theorem unrelated_emit {tenants : List String} {data : ControlData}
    (hdata : data.eventType ≠ .deploymentChanged) : Unrelated r (r.emit checks tenants data) := by
  obtain ⟨kept, hkept, hrows⟩ := enqueue_append checks.pendingLimit r.outbox (r.events tenants data)
  refine ⟨rfl, rfl, rfl, fun _ _ h => h, ⟨kept, ?_, fun e he => ?_⟩, ?_⟩
  · unfold emit
    rw [hrows]
    simp [Function.comp_def]
  · obtain ⟨htype, -, -, hid⟩ := r.of_mem_events (hkept he)
    exact ⟨htype ▸ hdata, hid⟩
  · show r.nextUid ≤ r.nextUid + 1 + tenants.length
    omega

/-- A change of tables that no model depends on. -/
theorem unrelated_of_eq (hmodels : r'.modelVersions = r.modelVersions)
    (hdeployments : r'.deployments = r.deployments)
    (htransitions : r'.lifecycleTransitions = r.lifecycleTransitions)
    (hreports : ∀ id stored, r.evaluationReports id = some stored →
      r'.evaluationReports id = some stored)
    (houtbox : r'.outbox = r.outbox) (hnextUid : r'.nextUid = r.nextUid) : Unrelated r r' :=
  ⟨hmodels, hdeployments, htransitions, hreports, ⟨[], by simp [houtbox], by simp⟩, hnextUid.ge⟩

/-! ### Training jobs -/

theorem saveJobRow_unrelated (r : Registry) (job : TrainingJob) (tenants : List String) :
    Unrelated r (r.saveJobRow job tenants) :=
  unrelated_of_eq rfl rfl rfl (fun _ _ h => h) rfl rfl

theorem announceJob_unrelated (r : Registry) (job : TrainingJob) (tenants : List String) :
    Unrelated r (r.announceJob checks job tenants) := by
  unfold announceJob
  dsimp only
  split
  · exact (r.saveJobRow_unrelated job tenants).trans (unrelated_emit (by simp [ControlData.eventType]))
  · exact r.saveJobRow_unrelated job tenants

/-- Saves, submissions and cancellations of training jobs are about no model. -/
theorem saveJob_unrelated (r : Registry) (job : TrainingJob) (tenants : List String) :
    Unrelated r (r.saveJob checks job tenants) := by
  unfold saveJob saveJobOutcome
  split
  · exact r.announceJob_unrelated job tenants
  · dsimp only
    split
    · exact .refl r
    split
    · exact .refl r
    · exact r.announceJob_unrelated _ _

theorem enqueueJob_unrelated {job job' : TrainingJob} {tenants : List String}
    (h : r.enqueueJob identity job tenants = .ok (job', r')) : Unrelated r r' := by
  have hsubmitted (r : Registry) (id : String) : Unrelated r (r.setSubmitter identity id) :=
    unrelated_of_eq rfl rfl rfl (fun _ _ h => h) rfl rfl
  unfold enqueueJob at h
  obtain ⟨found, -, h⟩ := Except.bind_eq_ok.1 h
  cases found with
  | none =>
    cases h
    exact (r.saveJobRow_unrelated job tenants).trans (hsubmitted _ _)
  | some old =>
    obtain ⟨_, -, h⟩ := Except.bind_eq_ok.1 h
    obtain ⟨_, -, h⟩ := Except.bind_eq_ok.1 h
    split at h
    · cases h
      exact (r.saveJobRow_unrelated _ tenants).trans (hsubmitted _ _)
    split at h
    · cases h
      exact hsubmitted r _
    · cases h
      exact .refl r

theorem cancelJob_unrelated {jobId : String} {now : ℤ} {job : TrainingJob}
    (h : r.cancelJob checks identity jobId now = .ok (job, r')) : Unrelated r r' := by
  unfold cancelJob at h
  obtain ⟨found, -, h⟩ := Except.bind_eq_ok.1 h
  cases found with
  | none => cases h
  | some old =>
    dsimp only at h
    split at h
    · cases h
      exact .refl r
    · cases h
      exact r.saveJob_unrelated _ _

/-! ### Models

Each transaction of the registry that concerns models is taken apart into moves of single models.
What is kept by every move is kept by all transactions, and the induction over runs is made once. -/

theorem Keyed.found (h : r.Keyed) {v : String} {m : ModelManifest}
    (hm : r.modelVersions v = some m) : r.modelVersions m.version = some m := by
  rw [(h v m hm).1]
  exact hm

/-- A transition leaves the other models alone. -/
theorem Transitioned.other {manifest updated : ModelManifest} {request : PromotionRequest}
    {rollback : Bool} {entry : LifecycleTransition} {v : String}
    (h : Transitioned checks identity r manifest request rollback entry updated r')
    (hne : v ≠ manifest.version) : r'.modelVersions v = r.modelVersions v := by
  obtain ⟨reports, rfl⟩ := h.manifest
  rw [h.registry, record_modelVersions, setModel]
  exact Function.update_of_ne hne _ _

theorem Transitioned.found {manifest updated : ModelManifest} {request : PromotionRequest}
    {rollback : Bool} {entry : LifecycleTransition}
    (h : Transitioned checks identity r manifest request rollback entry updated r') :
    r'.modelVersions manifest.version = some updated := by
  obtain ⟨reports, rfl⟩ := h.manifest
  rw [h.registry, record_modelVersions, setModel]
  exact Function.update_self ..

/-- The two versions that a rollback exchanges are two. -/
theorem RolledBack.distinct (h : r.Keyed) {deploymentId : String} {current previous : ModelManifest}
    (hrolled : RolledBack checks identity r deploymentId current previous r') :
    previous.version ≠ current.version := by
  intro heq
  obtain ⟨row, -, hcurrent, version, -, hprevious⟩ := hrolled.row
  have hsame : some previous = some current := by
    rw [← h.found hprevious, ← h.found hcurrent, heq]
  obtain rfl : previous = current := by simpa using hsame
  have hstates := hrolled.currentState.symm.trans hrolled.previousState
  cases hstates

theorem recordEvaluation_moves (h : r.Keyed) {report : EvaluationReport}
    (hcall : r.recordEvaluation checks identity report = .ok r') :
    Relation.ReflTransGen RegistryMove r r' := by
  rcases recordEvaluation_eq_ok hcall with rfl | ⟨model, reports, hfound, rfl⟩
  · exact .refl
  · exact .single (.annotate (h.found hfound))

end Registry

/-- **Moves.** Every transaction is a sequence of moves. -/
theorem RegistryStep.moves {r r' : Registry} (h : r.Keyed) (hstep : RegistryStep r r') :
    Relation.ReflTransGen RegistryMove r r' := by
  cases hstep with
  | complete hfirst hcall =>
    obtain ⟨hnew, hdatasets, data, hdata, rfl⟩ := Registry.complete_effect hcall
    rename_i checks job manifest entry architecture
    rw [hfirst.history, List.foldl_cons, List.foldl_nil]
    have hregister : RegistryMove r ((r.setModel manifest).record checks manifest entry) :=
      .register hfirst hdatasets hnew
    exact .tail (.tail (.single hregister) (.unrelated (Registry.saveJobRow_unrelated ..)))
      (.unrelated (Registry.unrelated_emit (by simp [hdata])))
  | promote hcall =>
    obtain ⟨manifest, hfound, ⟨rfl, rfl⟩ | hpromoted⟩ := Registry.promote_eq_ok hcall
    · exact .refl
    have hmanifest := h.found hfound
    cases hpromoted with
    | moved _ hmoved => exact .single (.transition hmanifest (by simp) hmoved)
    | deployed _ hmoved _ => exact .tail (.single (.transition hmanifest (by simp) hmoved)) .point
    | replaced _ hmoved _ hincumbent _ _ _ hretired =>
      have hkeyed := h.transitioned hfound hmoved
      exact .tail (.tail (.single (.transition hmanifest (by simp) hmoved))
        (.transition (hkeyed.found hincumbent) (by simp) hretired)) .point
  | rollback hcall =>
    obtain ⟨current, previous, hrolled⟩ := Registry.rollback_eq_ok hcall
    obtain ⟨row, -, hcurrent, version, -, hprevious⟩ := hrolled.row
    obtain ⟨retire, restore, _, _, _, _, r₁, r₂, hretire, hretired, hrestore, hrestored, rfl⟩ :=
      hrolled.steps
    have hfound : r₁.modelVersions previous.version = some previous :=
      (hretired.other (hrolled.distinct h)).trans (h.found hprevious)
    exact .tail (.tail (.single (.transition (h.found hcurrent) (by simp [hretire]) hretired))
      (.transition hfound (by simp [hrestore]) hrestored)) .point
  | recordEvaluation hcall => exact Registry.recordEvaluation_moves h hcall
  | publish hcall =>
    rename_i checks identity report tenants lockBaseline expectedBaseline
    obtain ⟨hnew, data, hdata, hrecord⟩ := Registry.publish_eq_ok hcall
    have hstored : Unrelated r (r.storeReport report tenants lockBaseline) := by
      refine Registry.unrelated_of_eq rfl rfl rfl (fun id stored hid => ?_) rfl rfl
      have hne : id ≠ report.specification.evaluationId := by
        rintro rfl
        simp [hnew] at hid
      exact (Function.update_of_ne hne _ _).trans hid
    have hemitted : Unrelated r
        ((r.storeReport report tenants lockBaseline).emit checks tenants data) :=
      hstored.trans (Registry.unrelated_emit (by simp [hdata]))
    exact .trans (.single (.unrelated hemitted))
      (Registry.recordEvaluation_moves (h.of_modelVersions hemitted.modelVersions) hrecord)
  | unrelated hother => exact .single (.unrelated hother)

theorem RegistryStep.keyed {r r' : Registry} (h : r.Keyed) (hstep : RegistryStep r r') : r'.Keyed :=
  Runs.reflTransGen_of_invariant (fun _ _ h hmove => h.move hmove) h (hstep.moves h)

/-- **Run lemma.** What holds of an empty registry and is kept by every move holds of every reachable
    registry. -/
theorem Registry.Reachable.of_moves {Inv : Registry → Prop} {r : Registry} (hr : r.Reachable)
    (hempty : Inv {}) (keep : ∀ r r', r.Keyed → Inv r → RegistryMove r r' → Inv r') :
    r.Keyed ∧ Inv r := by
  have hmoves : ∀ r r', r.Keyed ∧ Inv r → RegistryMove r r' → r'.Keyed ∧ Inv r' :=
    fun r r' h hmove => ⟨h.1.move hmove, keep r r' h.1 h.2 hmove⟩
  have hsteps : ∀ r r', r.Keyed ∧ Inv r → RegistryStep r r' → r'.Keyed ∧ Inv r' :=
    fun r r' h hstep => Runs.reflTransGen_of_invariant hmoves h (hstep.moves h.1)
  exact Runs.reflTransGen_of_invariant hsteps ⟨fun v m hm => absurd hm (by simp), hempty⟩ hr

/-! ## Executing calls -/

/-- A call with its arguments. -/
inductive RegistryCall where
  | complete (job : TrainingJob) (manifest : ModelManifest) (entry : LifecycleTransition)
      (first : FirstEntry manifest entry)
  | promote (identity : Identity) (request : PromotionRequest)
  | rollback (identity : Identity) (deploymentId reason : String)
  | publish (identity : Identity) (report : EvaluationReport) (tenants : List String)
      (lockBaseline : Bool) (expectedBaseline : Option String)

/-- The call on a registry: the new one, or an error that leaves it. -/
def RegistryCall.run (checks : RegistryChecks) (r : Registry) : RegistryCall → Result Registry
  | .complete job manifest _ _ => r.complete checks job manifest manifest.adapterArchitecture
  | .promote identity request => (r.promote checks identity request).map (·.2)
  | .rollback identity deploymentId reason =>
    (r.rollback checks identity deploymentId reason).map (·.2)
  | .publish identity report tenants lockBaseline expectedBaseline =>
    r.publish checks identity report tenants lockBaseline expectedBaseline

theorem RegistryCall.step {checks : RegistryChecks} {r r' : Registry} {call : RegistryCall}
    (h : call.run checks r = .ok r') : RegistryStep r r' := by
  cases call with
  | complete job manifest entry first => exact .complete first h
  | promote identity request =>
    obtain ⟨⟨updated, _⟩, hcall, rfl⟩ := Except.map_eq_ok.1 h
    exact .promote hcall
  | rollback identity deploymentId reason =>
    obtain ⟨⟨models, _⟩, hcall, rfl⟩ := Except.map_eq_ok.1 h
    exact .rollback hcall
  | publish identity report tenants lockBaseline expectedBaseline => exact .publish h

/-- What a list of successful calls makes of a registry; a failed call leaves it. -/
def Registry.after (checks : RegistryChecks) (calls : List RegistryCall) (r : Registry) : Registry :=
  calls.foldl (fun r call => (call.run checks r).toOption.getD r) r

theorem Registry.Reachable.after {r : Registry} (hr : r.Reachable) (checks : RegistryChecks)
    (calls : List RegistryCall) : (r.after checks calls).Reachable := by
  induction calls generalizing r with
  | nil => exact hr
  | cons call calls ih =>
    refine ih ?_
    show ((call.run checks r).toOption.getD r).Reachable
    cases hrun : call.run checks r with
    | error e => exact hr
    | ok r' => exact .tail hr (RegistryCall.step hrun)

/-! Two routing models of one registry id, to run the calls on. -/

namespace SupportModels

/-- An operator of the tenant. -/
def operator : Identity :=
  { subjectIdPseudonymous := some "operator", keyClass := .operator, datasetTenants := ["acme"] }

/-- Checks that accept every manifest. -/
def acceptAll : RegistryChecks :=
  { identifier := fun actor => actor ≠ ""
    verifyMetadata := fun _ => true
    verifyArtifact := fun _ => true
    verifyReport := fun _ => true
    gatesPass := fun report => report.passed
    progressionGate := some fun _ _ _ => true
    benchmarkGate := none }

/-- The dataset of the sample models. -/
def tickets : DatasetLineage := ⟨"tickets", "1", "digest"⟩

/-- The first entry of a history. -/
def entry : LifecycleTransition := ⟨none, .candidate, "operator", "training_completed", none⟩

/-- A routing model. -/
def router (version : String) : ModelManifest :=
  { registryId := "support", version, tenantIds := ["acme"],
    adapterArchitecture := "router-logistic-v1", datasets := [tickets],
    trainingJobId := version, artifactDigest := version, storageLocation := version,
    lifecycleHistory := [entry] }

theorem router_first (version : String) : FirstEntry (router version) entry :=
  ⟨rfl, rfl, rfl, rfl, by decide, by decide⟩

/-- A job that trains a router. -/
def job (version : String) : TrainingJob :=
  { specification :=
      { jobId := version, jobType := .router, datasetId := "tickets", datasetVersion := "1" }
    modelVersion := version }

/-- The report that its evaluation publishes. -/
def report (version : String) : EvaluationReport :=
  { specification := ⟨version, version, none, "tickets", "1", [.routing]⟩
    candidateManifestVersion := version, candidateArtifactDigest := some version
    baselineManifestVersion := none, baselineReportId := none
    datasetContentDigest := "digest", passed := true }

/-- A promotion of the version on this report. -/
def request (version : String) (targetState : LifecycleState) : PromotionRequest :=
  { reason := "release", length_le := by decide, nonblank := by decide, modelVersion := version,
    targetState, evaluationId := some version }

/-- The calls that take a version from training to canary. -/
def toCanary (version : String) : List RegistryCall :=
  [.complete (job version) (router version) entry (router_first version),
    .publish operator (report version) ["acme"] false none,
    .promote operator (request version .evaluating),
    .promote operator (request version .approved),
    .promote operator (request version .shadow),
    .promote operator (request version .canary)]

/-- The first version in production, the second in canary. -/
def released : Registry :=
  ({} : Registry).after acceptAll
    (toCanary "v1" ++ [.promote operator (request "v1" .production)] ++ toCanary "v2")

/-- The first version revoked. -/
def revoked : Registry := released.after acceptAll [.promote operator (request "v1" .revoked)]

theorem released_reachable : released.Reachable :=
  Registry.Reachable.after .refl acceptAll _

theorem revoked_reachable : revoked.Reachable := released_reachable.after acceptAll _

end SupportModels

end AdaptiveLlm
