import AdaptiveLlm.Lib.Slots
import AdaptiveLlm.Registry.Runs

set_option autoImplicit false

/-! # Deployments

A registry id is a slot: the version in production is its active item, and the deployment row names
the current version and the spare. Every transaction of the registry is a few steps of that system
(`RegistryStep.slots`), so what holds of slots holds of deployments.

The failing case is one of order. A deployment row goes on naming a version that was retired
directly, and promotion to production asks whether the version that the row names is still in
production. The theorem says exactly for which registries the promotion succeeds, among all that
calls can lead to. -/

namespace AdaptiveLlm

open Slots

/-! ## The registry as slots

A deployment is a slot with a current and a previous version, and a version is an item whose state
says whether it is staged, active or out of use. The library's invariant of slots is then the
registry's. -/

/-- What the state of a model means for its slot. -/
def LifecycleState.phase : LifecycleState → Phase
  | .production => .active
  | .deprecated => .retired
  | .revoked => .withdrawn
  | _ => .staged

theorem LifecycleState.phase_out_of_use {s : LifecycleState} :
    s.phase = .retired ∨ s.phase = .withdrawn ↔ s = .deprecated ∨ s = .revoked := by
  cases s <;> simp [phase]

/-- An allowed edge that does not enter production concerns one item only. -/
theorem moves_of_allowed {s t : LifecycleState} (hedge : (s, t) ∈ allowedEdges)
    (ht : t ≠ .production) : Moves s.phase t.phase := by
  cases s <;> cases t <;>
    first
    | exact absurd hedge (by decide)
    | exact absurd rfl ht
    | exact .stage
    | exact .retire
    | exact .withdraw (by decide)

theorem canary_of_allowed {s : LifecycleState} (hedge : (s, .production) ∈ allowedEdges) :
    s = .canary := by
  cases s <;> first | rfl | exact absurd hedge (by decide)

namespace Registry

variable {checks : RegistryChecks} {identity : Identity} {r r' : Registry}

/-- The registry as items in slots: the versions, and the deployments with their current and previous
version. -/
def fleet (r : Registry) : Fleet String String where
  item v := (r.modelVersions v).map fun m => (m.registryId, m.state.phase)
  slot d := (r.deployments d).map fun row => ⟨row.currentVersion, row.previousVersion⟩

theorem fleet_item {v : String} {m : ModelManifest} (h : r.modelVersions v = some m) :
    r.fleet.item v = some (m.registryId, m.state.phase) := by
  simp [fleet, h]

theorem fleet_slot {d : String} {row : DeploymentRow} (h : r.deployments d = some row) :
    r.fleet.slot d = some ⟨row.currentVersion, row.previousVersion⟩ := by
  simp [fleet, h]

theorem fleet_congr (hmodels : r'.modelVersions = r.modelVersions)
    (hdeployments : r'.deployments = r.deployments) : r'.fleet = r.fleet := by
  unfold fleet
  rw [hmodels, hdeployments]

theorem fleet_setModel (r : Registry) (m : ModelManifest) :
    (r.setModel m).fleet = r.fleet.setItem m.version m.registryId m.state.phase := by
  unfold fleet setModel Fleet.setItem
  congr 1
  funext v
  by_cases h : v = m.version <;> simp [h]

theorem fleet_setDeployment (r : Registry) (d : String) (row : DeploymentRow) :
    (r.setDeployment d row).fleet =
      r.fleet.setSlot d ⟨row.currentVersion, row.previousVersion⟩ := by
  unfold fleet setDeployment Fleet.setSlot
  congr 1
  funext e
  by_cases h : e = d <;> simp [h]

theorem Transitioned.fleet {manifest updated : ModelManifest} {request : PromotionRequest}
    {rollback : Bool} {entry : LifecycleTransition}
    (h : Transitioned checks identity r manifest request rollback entry updated r') :
    r'.fleet = r.fleet.setItem manifest.version manifest.registryId request.targetState.phase := by
  obtain ⟨reports, rfl⟩ := h.manifest
  rw [h.registry, fleet_congr (record_modelVersions ..) rfl, fleet_setModel]

/-- A model keeps its slot and its phase when its reports are updated. -/
theorem recordEvaluation_fleet (h : r.Keyed) {report : EvaluationReport}
    (hcall : r.recordEvaluation checks identity report = .ok r') : r'.fleet = r.fleet := by
  rcases recordEvaluation_eq_ok hcall with rfl | ⟨model, reports, hfound, rfl⟩
  · rfl
  · rw [fleet_setModel]
    have hitem := fleet_item (h.found hfound)
    unfold Fleet.setItem
    rw [← hitem, Function.update_eq_self]

end Registry

/-! ## Transactions as steps of the slots

A promotion to production is the exchange of a slot, or its first activation; a rollback is an
exchange with the spare; a direct retirement moves an item that the slot is not told of. -/

variable {checks : RegistryChecks} {identity : Identity} {r r' : Registry}

theorem Registry.Promoted.slots (h : r.Keyed) (hvalid : Valid r.fleet)
    {request : PromotionRequest} {manifest updated : ModelManifest} {v : String}
    (hfound : r.modelVersions v = some manifest)
    (hpromoted : Promoted checks identity r manifest request updated r') :
    Step r.fleet r'.fleet := by
  have hmanifest := fleet_item (h.found hfound)
  cases hpromoted with
  | moved htarget hmoved =>
    rw [hmoved.fleet]
    exact .move hmanifest (moves_of_allowed hmoved.edge htarget)
  | deployed htarget hmoved hrow =>
    have hcanary := canary_of_allowed (htarget ▸ hmoved.edge)
    rw [fleet_setDeployment, hmoved.fleet, htarget]
    exact .activate (by rw [hmanifest, hcanary]; rfl) (by simp [fleet, hrow])
  | replaced htarget hmoved hrow hincumbent hstate htenants hnote hretired =>
    rename_i r₁ r₂ entry retirement row incumbent retired note
    have hcanary := canary_of_allowed (htarget ▸ hmoved.edge)
    have hstaged : r.fleet.item manifest.version = some (manifest.registryId, .staged) := by
      rw [hmanifest, hcanary]; rfl
    have hslot := fleet_slot hrow
    have hne : row.currentVersion ≠ manifest.version := (hvalid.staged_fresh hstaged hslot).1
    -- the incumbent is stored before the promotion as it is read after it
    have hbefore : r.modelVersions row.currentVersion = some incumbent :=
      (hmoved.other hne).symm.trans hincumbent
    have hversion : incumbent.version = row.currentVersion := (h _ _ hbefore).1
    have hcurrent := fleet_item hbefore
    have hregistry : incumbent.registryId = manifest.registryId := by
      obtain ⟨p, hp, -⟩ := hvalid.current _ _ hslot
      simp only [hcurrent, Option.some.injEq, Prod.mk.injEq] at hp
      exact hp.1
    rw [hregistry, hstate] at hcurrent
    rw [fleet_setDeployment, hretired.fleet, hmoved.fleet, htarget, hnote, hversion, hregistry]
    exact .exchange hslot hcurrent hstaged (.inl rfl)

theorem Registry.RolledBack.slots (h : r.Keyed) (hvalid : Valid r.fleet) {deploymentId : String}
    {current previous : ModelManifest}
    (hrolled : RolledBack checks identity r deploymentId current previous r') :
    Step r.fleet r'.fleet := by
  obtain ⟨row, hrow, hcurrent, version, hversion, hprevious⟩ := hrolled.row
  obtain ⟨retire, restore, _, _, _, _, r₁, r₂, hretire, hretired, hrestore, hrestored, rfl⟩ :=
    hrolled.steps
  have hslot := fleet_slot hrow
  have hcurrentItem := fleet_item hcurrent
  have hpreviousItem := fleet_item hprevious
  have hcurrentId : current.registryId = deploymentId := by
    obtain ⟨p, hp, -⟩ := hvalid.current _ _ hslot
    simp only [hcurrentItem, Option.some.injEq, Prod.mk.injEq] at hp
    exact hp.1
  have hpreviousId : previous.registryId = deploymentId := by
    obtain ⟨-, p, hp, -⟩ := hvalid.spare _ _ _ hslot hversion
    simp only [hpreviousItem, Option.some.injEq, Prod.mk.injEq] at hp
    exact hp.1
  have hne := hrolled.distinct h
  rw [hcurrentId, hrolled.currentState] at hcurrentItem
  rw [hpreviousId, hrolled.previousState] at hpreviousItem
  rw [fleet_setDeployment, hrestored.fleet, hretired.fleet, hrestore, hretire, hcurrentId,
    hpreviousId]
  rw [(h _ _ hcurrent).1, (h _ _ hprevious).1] at hne ⊢
  rw [Fleet.setItem_comm _ _ _ hne.symm]
  exact .exchange hslot hcurrentItem hpreviousItem (.inr ⟨rfl, hversion⟩)

/-- **Refinement.** Every transaction of a keyed registry with valid slots is a run of the slots. -/
theorem RegistryStep.slots (h : r.Keyed) (hvalid : Valid r.fleet) (hstep : RegistryStep r r') :
    Relation.ReflTransGen Step r.fleet r'.fleet := by
  cases hstep with
  | complete hfirst hcall =>
    rename_i checks job manifest entry architecture
    obtain ⟨hnew, -, data, -, rfl⟩ := Registry.complete_effect hcall
    have hfleet : (((((r.setModel manifest).record checks manifest entry).saveJobRow job
        manifest.tenantIds).emit checks manifest.tenantIds data)).fleet =
          r.fleet.setItem manifest.version manifest.registryId .staged := by
      rw [← show manifest.state.phase = .staged by rw [hfirst.state]; rfl,
        ← Registry.fleet_setModel]
      exact Registry.fleet_congr rfl rfl
    rw [hfirst.history, List.foldl_cons, List.foldl_nil, hfleet]
    exact .single (.register (by simp [Registry.fleet, hnew]))
  | promote hcall =>
    obtain ⟨manifest, hfound, ⟨-, rfl⟩ | hpromoted⟩ := Registry.promote_eq_ok hcall
    · exact .refl
    · exact .single (hpromoted.slots h hvalid hfound)
  | rollback hcall =>
    obtain ⟨current, previous, hrolled⟩ := Registry.rollback_eq_ok hcall
    exact .single (hrolled.slots h hvalid)
  | recordEvaluation hcall => rw [Registry.recordEvaluation_fleet h hcall]
  | publish hcall =>
    rename_i checks identity report tenants lockBaseline expectedBaseline
    obtain ⟨-, data, -, hrecord⟩ := Registry.publish_eq_ok hcall
    have hstored : ((r.storeReport report tenants lockBaseline).emit checks tenants data).fleet =
        r.fleet := Registry.fleet_congr rfl rfl
    have hkeyed : ((r.storeReport report tenants lockBaseline).emit checks tenants data).Keyed :=
      h.of_modelVersions rfl
    rw [Registry.recordEvaluation_fleet hkeyed hrecord, hstored]
  | unrelated hother => rw [Registry.fleet_congr hother.modelVersions hother.deployments]

theorem Registry.Reachable.valid (hr : r.Reachable) : r.Keyed ∧ Valid r.fleet := by
  have hsteps : ∀ r r', r.Keyed ∧ Valid r.fleet → RegistryStep r r' → r'.Keyed ∧ Valid r'.fleet :=
    fun r r' h hstep => ⟨hstep.keyed h.1, Runs.reflTransGen_of_invariant
      (fun _ _ hf hs => hf.step hs) h.2 (hstep.slots h.1 h.2)⟩
  exact Runs.reflTransGen_of_invariant hsteps ⟨fun v m hm => absurd hm (by simp), valid_empty⟩ hr

/-! ## The production version -/

theorem Registry.fleet_production {v : String} {m : ModelManifest} (hm : r.modelVersions v = some m)
    (hstate : m.state = .production) : r.fleet.item v = some (m.registryId, .active) := by
  rw [Registry.fleet_item hm, hstate]
  rfl

/-- The version in production is the current one of its deployment. -/
theorem Registry.Reachable.production_current (hr : r.Reachable) {v : String} {m : ModelManifest}
    (hm : r.modelVersions v = some m) (hstate : m.state = .production) :
    ∃ row, r.deployments m.registryId = some row ∧ row.currentVersion = v := by
  obtain ⟨s, hs, hcurrent⟩ := hr.valid.2.active v _ (Registry.fleet_production hm hstate)
  obtain ⟨row, hrow, rfl⟩ : ∃ row, r.deployments m.registryId = some row ∧
      (⟨row.currentVersion, row.previousVersion⟩ : Slot String) = s := by
    simpa [Registry.fleet] using hs
  exact ⟨row, hrow, hcurrent⟩

theorem Registry.Reachable.production_unique (hr : r.Reachable) {v w : String}
    {m m' : ModelManifest} (hm : r.modelVersions v = some m) (hm' : r.modelVersions w = some m')
    (hid : m.registryId = m'.registryId) (hstate : m.state = .production)
    (hstate' : m'.state = .production) : v = w := by
  have hv := Registry.fleet_production hm hstate
  have hw := Registry.fleet_production hm' hstate'
  rw [← hid] at hw
  exact hr.valid.2.active_unique hv hw

theorem Registry.Reachable.previous_retired (hr : r.Reachable) {d p : String} {row : DeploymentRow}
    (hrow : r.deployments d = some row) (hp : row.previousVersion = some p) :
    p ≠ row.currentVersion ∧
      ∃ m, r.modelVersions p = some m ∧ (m.state = .deprecated ∨ m.state = .revoked) := by
  obtain ⟨hne, q, hq, hphase⟩ := hr.valid.2.spare d _ p (Registry.fleet_slot hrow) hp
  refine ⟨hne, ?_⟩
  obtain ⟨m, hm, hitem⟩ : ∃ m, r.modelVersions p = some m ∧ (m.registryId, m.state.phase) = (d, q) := by
    simpa [Registry.fleet] using hq
  obtain ⟨-, rfl⟩ := Prod.mk.inj hitem
  exact ⟨m, hm, LifecycleState.phase_out_of_use.1 hphase⟩

/-- **Single production version.** In every reachable registry at most one version of a registry id
    is in production, its deployment row names that version as the current one, and the previous
    version of a row is another one that is deprecated or revoked. -/
theorem single_production (hr : r.Reachable) :
    (∀ v w m m', r.modelVersions v = some m → r.modelVersions w = some m' →
      m.registryId = m'.registryId → m.state = .production → m'.state = .production → v = w) ∧
    (∀ v m, r.modelVersions v = some m → m.state = .production →
      ∃ row, r.deployments m.registryId = some row ∧ row.currentVersion = v) ∧
    ∀ d row p, r.deployments d = some row → row.previousVersion = some p →
      p ≠ row.currentVersion ∧
        ∃ m, r.modelVersions p = some m ∧ (m.state = .deprecated ∨ m.state = .revoked) :=
  ⟨fun _ _ _ _ => hr.production_unique, fun _ _ => hr.production_current,
    fun _ _ _ => hr.previous_retired⟩

open SupportModels in
theorem released_v1_current :
    ∃ row, released.deployments "support" = some row ∧ row.currentVersion = "v1" := by
  obtain ⟨m, hm, hid, hstate⟩ : ∃ m, released.modelVersions "v1" = some m ∧
      m.registryId = "support" ∧ m.state = .production := by
    have h : (released.modelVersions "v1").any (fun m =>
        m.registryId = "support" && m.state = .production) = true := by decide +kernel
    simpa [Option.any_eq_true] using h
  exact hid ▸ (single_production released_reachable).2.1 "v1" m hm hstate

/-! ## A deployment whose current version was retired

The row still names the retired version, and what the next promotion asks of that version can not be
met any more. -/

namespace Registry

theorem get_congr {v : String} (h : r'.modelVersions v = r.modelVersions v) :
    r'.get checks identity v = r.get checks identity v := by
  unfold get
  rw [h]

/-- Nothing but the operator's note is asked for a version that leaves production. -/
theorem transition_deprecate {incumbent : ModelManifest} {request : PromotionRequest}
    (hactor : identity.subjectIdPseudonymous.getD "" ≠ "")
    (hidentified : checks.identifier (identity.subjectIdPseudonymous.getD "") = true)
    (hdatasets : ∃ d, incumbent.datasets = [d]) (hstate : incumbent.state = .production)
    (htarget : request.targetState = .deprecated) (hevaluation : request.evaluationId = none) :
    ∃ retired r', r.transition checks identity incumbent request false = .ok (retired, r') := by
  have hpassed : r.transitionPassed checks identity incumbent request false = .ok false := by
    obtain ⟨d, hd⟩ := hdatasets
    unfold transitionPassed passed evaluationDataset dataset
    rw [hevaluation, hd]
    cases incumbent.pruning <;> rfl
  have hvalid : validateTransition incumbent.state request.targetState
      identity.subjectIdPseudonymous request.reason false false = .ok () := by
    rw [validateTransition_ok, hstate, htarget]
    exact ⟨by decide, hactor, request.nonblank, by simp⟩
  have hprogression : progression checks identity incumbent request false = .ok () := by
    simp [progression, htarget]
  have hartifact : require (request.targetState = .revoked || request.targetState = .deprecated ||
      checks.verifyArtifact incumbent) .artifactIntegrityFailed = .ok () :=
    require_of (by simp [htarget]) _
  unfold transition
  exact ⟨_, _, Except.bind_eq_ok.2 ⟨_, hpassed, Except.bind_eq_ok.2 ⟨_, hvalid,
    Except.bind_eq_ok.2 ⟨_, hprogression, Except.bind_eq_ok.2 ⟨_, hartifact,
      Except.bind_eq_ok.2 ⟨_, require_of hidentified _, rfl⟩⟩⟩⟩⟩⟩

/-- A `promote` into production up to the retirement of the incumbent, where the request passes its
    own checks. -/
theorem promote_to_production {request : PromotionRequest} {manifest updated : ModelManifest}
    {r₁ : Registry} {row : DeploymentRow}
    (hget : r.get checks identity request.modelVersion = .ok manifest)
    (hactor : request.actor.all fun a => some a = identity.subjectIdPseudonymous)
    (hcanary : manifest.state = .canary) (htarget : request.targetState = .production)
    (hmoved : r.transition checks identity manifest request false = .ok (updated, r₁))
    (hrow : r.deployments manifest.registryId = some row) :
    r.promote checks identity request =
      (r₁.retireIncumbent checks identity manifest request.toOperatorNote
        (some row.currentVersion)).map fun r₂ => (updated,
          r₂.setDeployment manifest.registryId ⟨manifest.version, some row.currentVersion⟩) := by
  obtain ⟨entry, htransitioned⟩ := transition_eq_ok hmoved
  have hauthorized : authorize identity [] = .ok () := by
    unfold get at hget
    obtain ⟨_, hauthorized, -⟩ := Except.bind_eq_ok.1 hget
    exact hauthorized
  have hretry : isRetry identity manifest request = false := by
    simp [isRetry, hcanary, htarget]
  unfold promote
  rw [hauthorized, Except.ok_bind, hget, Except.ok_bind, require_of hactor, Except.ok_bind,
    if_neg (by simp [hretry]), hmoved, Except.ok_bind]
  dsimp only
  rw [if_neg (by rw [htransitioned.state, htarget]; simp), htransitioned.deployments, hrow,
    Option.map_some]
  cases r₁.retireIncumbent checks identity manifest request.toOperatorNote
    (some row.currentVersion) <;> rfl

/-- The retirement of an incumbent that can be read. -/
theorem retireIncumbent_of_get {manifest incumbent : ModelManifest} {note : OperatorNote}
    {previous : String} (hget : r.get checks identity previous = .ok incumbent)
    (htenants : incumbent.tenantIds = manifest.tenantIds) :
    r.retireIncumbent checks identity manifest note (some previous) =
      if incumbent.state = .production then
        (r.transition checks identity incumbent
          { note with modelVersion := previous, targetState := .deprecated } false).map (·.2)
      else .error .deploymentConflict := by
  unfold retireIncumbent
  dsimp only
  rw [hget, Except.ok_bind]
  by_cases hstate : incumbent.state = .production
  · rw [if_pos hstate, require_of (by simp [hstate, htenants]), Except.ok_bind]
    cases r.transition checks identity incumbent
      { note with modelVersion := previous, targetState := .deprecated } false <;> rfl
  · have hconflict : require (incumbent.state = .production &&
        incumbent.tenantIds = manifest.tenantIds) .deploymentConflict =
          .error .deploymentConflict := by
      simp [require, hstate]
    rw [if_neg hstate, hconflict]
    rfl

end Registry

/-- **Replacing a retired version.** For a canary version whose own checks pass, promotion to
    production succeeds, and makes it the current and only production version, exactly when the
    version that the deployment names is still in production. Once that version was deprecated or
    revoked by `promote`, the answer is `deployment_conflict` for every other version. -/
theorem promote_to_production_iff (hr : r.Reachable) {request : PromotionRequest}
    {manifest incumbent updated : ModelManifest} {r₁ : Registry} {row : DeploymentRow}
    (hget : r.get checks identity request.modelVersion = .ok manifest)
    (hactor : request.actor.all fun a => some a = identity.subjectIdPseudonymous)
    (hcanary : manifest.state = .canary) (htarget : request.targetState = .production)
    (hmoved : r.transition checks identity manifest request false = .ok (updated, r₁))
    (hrow : r.deployments manifest.registryId = some row)
    (hincumbent : r.get checks identity row.currentVersion = .ok incumbent)
    (htenants : incumbent.tenantIds = manifest.tenantIds) :
    ((∃ r', r.promote checks identity request = .ok (updated, r') ∧
        (∃ row', r'.deployments manifest.registryId = some row' ∧
          row'.currentVersion = manifest.version) ∧
        ∀ v m, r'.modelVersions v = some m → m.registryId = manifest.registryId →
          (m.state = .production ↔ v = manifest.version)) ↔
      incumbent.state = .production) ∧
    (incumbent.state = .deprecated ∨ incumbent.state = .revoked →
      r.promote checks identity request = .error .deploymentConflict) := by
  obtain ⟨hkeyed, hvalid⟩ := hr.valid
  obtain ⟨entry, htransitioned⟩ := Registry.transition_eq_ok hmoved
  have hmanifest := hkeyed.found (Registry.get_eq_ok hget)
  have hbefore := Registry.get_eq_ok hincumbent
  have hne : row.currentVersion ≠ manifest.version := by
    have hstaged : r.fleet.item manifest.version = some (manifest.registryId, .staged) := by
      rw [Registry.fleet_item hmanifest, hcanary]; rfl
    exact (hvalid.staged_fresh hstaged (Registry.fleet_slot hrow)).1
  have hincumbent₁ : r₁.get checks identity row.currentVersion = .ok incumbent :=
    (Registry.get_congr (htransitioned.other hne)).trans hincumbent
  have hpromote := Registry.promote_to_production hget hactor hcanary htarget hmoved hrow
  rw [Registry.retireIncumbent_of_get hincumbent₁ htenants] at hpromote
  have hconflict : incumbent.state ≠ .production →
      r.promote checks identity request = .error .deploymentConflict := by
    intro hstate
    rw [hpromote, if_neg hstate]
    rfl
  refine ⟨⟨?_, fun hstate => ?_⟩, fun hretired => hconflict fun hstate => ?_⟩
  · rintro ⟨r', hcall, -⟩
    by_contra hstate
    rw [hconflict hstate] at hcall
    cases hcall
  · -- the note of the request is all that the retirement needs
    obtain ⟨passed, -, hnoted⟩ := htransitioned.valid
    obtain ⟨retired, r₂, hretire⟩ : ∃ retired r₂, r₁.transition checks identity incumbent
        { request.toOperatorNote with
          modelVersion := row.currentVersion, targetState := .deprecated } false =
            .ok (retired, r₂) :=
      Registry.transition_deprecate hnoted.actor
        (htransitioned.actor ▸ htransitioned.identified) (hkeyed _ _ hbefore).2 hstate rfl rfl
    rw [if_pos hstate, hretire] at hpromote
    have hreached : Registry.Reachable _ := .tail hr (.promote hpromote)
    have hcurrent : (r₂.setDeployment manifest.registryId
        ⟨manifest.version, some row.currentVersion⟩).deployments manifest.registryId =
          some ⟨manifest.version, some row.currentVersion⟩ := by
      simp [Registry.setDeployment]
    refine ⟨_, hpromote, ⟨_, hcurrent, rfl⟩, fun v m hm hid => ⟨fun hproduction => ?_, ?_⟩⟩
    · obtain ⟨row', hrow', rfl⟩ := hreached.production_current hm hproduction
      rw [hid, hcurrent] at hrow'
      cases hrow'
      rfl
    · rintro rfl
      obtain ⟨retirement, hretirement⟩ := Registry.transition_eq_ok hretire
      have hversion := (hkeyed _ _ hbefore).1
      have hupdated : r₂.modelVersions manifest.version = some updated :=
        (hretirement.other (hversion.symm ▸ hne.symm)).trans htransitioned.found
      obtain rfl : updated = m := by
        simpa [Registry.setDeployment, hupdated] using hm
      rw [htransitioned.state, htarget]
  · rcases hretired with h | h <;> rw [h] at hstate <;> cases hstate

namespace SupportModels

/-- The second version, in canary while the first one was revoked. -/
def waiting : ModelManifest := (revoked.modelVersions "v2").getD (router "v2")

/-- The version after it is revoked. -/
def withdrawn : ModelManifest := (revoked.modelVersions "v1").getD (router "v1")

theorem get_waiting : revoked.get acceptAll operator "v2" = .ok waiting := by decide +kernel

theorem get_withdrawn : revoked.get acceptAll operator "v1" = .ok withdrawn := by decide +kernel

theorem waiting_passes :
    (revoked.transition acceptAll operator waiting (request "v2" .production) false).isOk = true := by
  decide +kernel

theorem revoked_row : revoked.deployments waiting.registryId = some ⟨"v1", none⟩ := by
  decide +kernel

end SupportModels

open SupportModels in
theorem revoked_v1_blocks_v2 :
    revoked.promote acceptAll operator (request "v2" .production) = .error .deploymentConflict := by
  cases hmoved : revoked.transition acceptAll operator waiting (request "v2" .production) false with
  | error e =>
    have hpasses := waiting_passes
    rw [hmoved] at hpasses
    cases hpasses
  | ok moved =>
    exact (promote_to_production_iff revoked_reachable get_waiting rfl (by decide +kernel) rfl hmoved
      revoked_row get_withdrawn (by decide +kernel)).2 (.inr (by decide +kernel))

open SupportModels in
/-- A retired version keeps its deployment from every other version. -/
theorem retired_version_blocks :
    ¬∀ (checks : RegistryChecks) (identity : Identity) (r : Registry) (request : PromotionRequest)
      (manifest incumbent : ModelManifest) (row : DeploymentRow), r.Reachable →
      r.get checks identity request.modelVersion = .ok manifest →
      (request.actor.all fun a => some a = identity.subjectIdPseudonymous) = true →
      manifest.state = .canary → request.targetState = .production →
      (r.transition checks identity manifest request false).isOk = true →
      r.deployments manifest.registryId = some row →
      r.get checks identity row.currentVersion = .ok incumbent →
      incumbent.tenantIds = manifest.tenantIds →
      incumbent.state = .deprecated ∨ incumbent.state = .revoked →
      (r.promote checks identity request).isOk = true := by
  intro hclaim
  have hdeployed := hclaim acceptAll operator revoked (request "v2" .production) waiting withdrawn
    ⟨"v1", none⟩ revoked_reachable get_waiting rfl (by decide +kernel) rfl waiting_passes revoked_row
    get_withdrawn (by decide +kernel) (.inr (by decide +kernel))
  have hblocked : (revoked.promote acceptAll operator (request "v2" .production)).isOk = false := by
    decide +kernel
  rw [hblocked] at hdeployed
  cases hdeployed

end AdaptiveLlm
