import AdaptiveLlm.Registry.History
import AdaptiveLlm.Training.TerminalJobs

set_option autoImplicit false

/-! # Outcomes of training jobs

A job's outcome is announced by `training.completed` events, one for each tenant of its dataset. The
same save may come twice, late, or between two calls of the API; it is announced exactly where it
changes the stored state into an outcome.

The worker saves the whole job, so a late save may carry an outcome again, or one that a
cancellation has overtaken. The events are enqueued by the transaction that sees the stored state
change, so they are a function of the sequence of stored states. `OutcomeInv` relates the two
sequences, and the run lemma of the terminal jobs says how stored states change. -/

namespace AdaptiveLlm

/-- The state is one that a job ends in. -/
def JobState.isOutcome : JobState → Bool
  | .succeeded | .failed | .cancelled => true
  | .queued | .running => false

/-- The tenant and the status of an event that announces an outcome of the job. -/
def outcomeOf (jobId : String) (e : Event ℕ ControlData) : Option (String × JobState) :=
  match e.data with
  | .trainingCompleted id _ _ _ status _ _ => if id = jobId then some (e.tenantId, status) else none
  | _ => none

/-- One announcement, to all tenants. -/
def announcement (tenants : List String) (state : JobState) : List (String × JobState) :=
  (tenants.insertionSort (· ≤ ·)).map fun tenant => (tenant, state)

/-- The outcome that a change of the stored state enters, if any. -/
def outcomeEntered (old new : Option JobState) : List JobState :=
  (new.filter fun s => s.isOutcome && old ≠ some s).toList

namespace Registry

variable {checks : RegistryChecks} {r r' : Registry} {jobId : String} {tenants : List String}

/-- The state of a job, if there is one. -/
def jobState (r : Registry) (jobId : String) : Option JobState :=
  (r.trainingJobs jobId).map (·.job.state)

/-- What the outbox has of the job's outcomes. -/
def outcomes (r : Registry) (jobId : String) : List (String × JobState) :=
  (r.outbox.map (·.event)).filterMap (outcomeOf jobId)

end Registry

/-! ## Calls and runs -/

/-- A call for the job commits. The worker's copies are of any age, and none has succeeded but that of
    `complete`; it has the version of the job, as has the model, and the tenants of its dataset. -/
inductive OutcomeCall (jobId : String) (tenants : List String) : Registry → Registry → Prop
  | enqueue {r r' : Registry} {identity : Identity} {specification : TrainingJobSpecification}
      {architecture version : String} {job : TrainingJob} :
      specification.jobId = jobId →
      r.enqueueJob identity (.new specification architecture version) tenants = .ok (job, r') →
      OutcomeCall jobId tenants r r'
  | cancel {checks : RegistryChecks} {r r' : Registry} {identity : Identity} {now : ℤ}
      {job : TrainingJob} :
      r.cancelJob checks identity jobId now = .ok (job, r') → OutcomeCall jobId tenants r r'
  | save {checks : RegistryChecks} {r : Registry} {job : TrainingJob} {given : List String} :
      job.jobId = jobId → job.state ≠ .succeeded →
      (r.trainingJobs jobId = none → given = tenants) →
      OutcomeCall jobId tenants r (r.saveJob checks job given)
  | complete {checks : RegistryChecks} {r r' : Registry} {job : TrainingJob}
      {manifest : ModelManifest} {architecture : String} :
      job.jobId = jobId → job.state = .succeeded → manifest.version = job.modelVersion →
      (∀ row, r.trainingJobs jobId = some row → job.modelVersion = row.job.modelVersion) →
      manifest.tenantIds = tenants.insertionSort (· ≤ ·) →
      r.complete checks job manifest architecture = .ok r' → OutcomeCall jobId tenants r r'

/-- A run from a registry without the job: the outcomes that its stored state entered, and what was
    enqueued of them. Other transactions leave the job and keep every model. -/
inductive OutcomeRun (jobId : String) (tenants : List String) :
    Registry → List JobState → List (String × JobState) → Prop
  | start {r : Registry} : r.trainingJobs jobId = none → r.FreshIds → OutcomeRun jobId tenants r [] []
  | call {r r' : Registry} {changes : List JobState} {told : List (String × JobState)} :
      OutcomeRun jobId tenants r changes told → OutcomeCall jobId tenants r r' →
      OutcomeRun jobId tenants r' (changes ++ outcomeEntered (r.jobState jobId) (r'.jobState jobId))
        (told ++ (r'.outcomes jobId).drop (r.outcomes jobId).length)
  | other {r r' : Registry} {changes : List JobState} {told : List (String × JobState)} :
      OutcomeRun jobId tenants r changes told → r'.trainingJobs jobId = r.trainingJobs jobId →
      (∀ v, (r.modelVersions v).isSome → (r'.modelVersions v).isSome) → r'.FreshIds →
      OutcomeRun jobId tenants r' changes told

/-! ## One call

What a call enqueues is compared with what it changes. A save that stores what is stored already
enqueues nothing, even if the job in its hand is an outcome. -/

/-- What holds of the job along a run. -/
structure OutcomeInv (jobId : String) (tenants : List String) (r : Registry) : Prop where
  fresh : r.FreshIds
  rowId : ∀ row, r.trainingJobs jobId = some row → row.job.jobId = jobId
  tenants : ∀ row, r.trainingJobs jobId = some row →
    row.tenantIds.insertionSort (· ≤ ·) = tenants.insertionSort (· ≤ ·)
  registered : ∀ row, r.trainingJobs jobId = some row → row.job.state = .succeeded →
    (r.modelVersions row.job.modelVersion).isSome

/-- What a call does: it announces the outcome that it enters. -/
structure Announces (jobId : String) (tenants : List String) (r r' : Registry) : Prop where
  fresh : r'.FreshIds
  outcomes : r'.outcomes jobId = r.outcomes jobId ++
    (outcomeEntered (r.jobState jobId) (r'.jobState jobId)).flatMap (announcement tenants)

section Announces

variable {r r' : Registry} {jobId : String} {tenants : List String}

theorem entered_self (state : Option JobState) : outcomeEntered state state = [] := by
  cases state <;> simp [outcomeEntered]

theorem Announces.refl (h : r.FreshIds) : Announces jobId tenants r r :=
  ⟨h, by simp [entered_self]⟩

/-- A call that enters no outcome and enqueues nothing of the job. -/
theorem Announces.silent (h : r'.FreshIds) (houtcomes : r'.outcomes jobId = r.outcomes jobId)
    (hstate : outcomeEntered (r.jobState jobId) (r'.jobState jobId) = []) :
    Announces jobId tenants r r' :=
  ⟨h, by simp [houtcomes, hstate]⟩

end Announces

namespace Registry

variable {checks : RegistryChecks} {r r' : Registry} {jobId : String} {tenants : List String}

theorem insertionSort_idem (l : List String) :
    (l.insertionSort (· ≤ ·)).insertionSort (· ≤ ·) = l.insertionSort (· ≤ ·) :=
  (List.pairwise_insertionSort (· ≤ ·) l).insertionSort_eq

/-- Mandatory events are all stored, behind what the outbox has. -/
theorem emit_outcomes (h : r.FreshIds) {given : List String} {data : ControlData}
    (hdata : data.eventType.isOptional = false) :
    (r.emit checks given data).FreshIds ∧ (r.emit checks given data).outcomes jobId =
      r.outcomes jobId ++ (r.events given data).filterMap (outcomeOf jobId) := by
  have houtbox : (r.emit checks given data).outbox.map (·.event) =
      r.outbox.map (·.event) ++ r.events given data := emit_outbox h hdata
  refine ⟨h.of_append houtbox ?_ fun e he => (r.of_mem_events he).2.2.2, ?_⟩
  · show r.nextUid ≤ r.nextUid + 1 + given.length
    omega
  · unfold outcomes
    rw [houtbox, List.filterMap_append]

theorem events_completed (r : Registry) (given : List String) (jobType : JobType) (refs : List String)
    (version : Option String) (status : JobState) (digest code : Option String) :
    (r.events given (.trainingCompleted jobId jobType refs version status digest code)).filterMap
      (outcomeOf jobId) = announcement given status := by
  rw [announcement, ← r.events_tenants given (.trainingCompleted jobId jobType refs version status digest
    code), List.map_map, ← List.filterMap_eq_map]
  refine List.filterMap_congr fun e he => ?_
  simp [outcomeOf, (r.of_mem_events he).2.1]

theorem events_changed (r : Registry) (m : ModelManifest) (entry : LifecycleTransition) :
    (r.events m.tenantIds (m.changed entry)).filterMap (outcomeOf jobId) = [] := by
  refine List.filterMap_eq_nil_iff.2 fun e he => ?_
  simp [outcomeOf, (r.of_mem_events he).2.1, ModelManifest.changed]

variable (checks jobId) in
/-- The announcement of a training's end. -/
theorem emit_completed (h : r.FreshIds) (given : List String) (jobType : JobType) (refs : List String)
    (version : Option String) (status : JobState) (digest code : Option String) :
    (r.emit checks given (.trainingCompleted jobId jobType refs version status digest code)).FreshIds ∧
      (r.emit checks given
        (.trainingCompleted jobId jobType refs version status digest code)).outcomes jobId =
          r.outcomes jobId ++ announcement given status := by
  rw [← events_completed r given jobType refs version status digest code]
  exact emit_outcomes h rfl

theorem saveJobRow_jobState {job : TrainingJob} (hid : job.jobId = jobId) (given : List String) :
    (r.saveJobRow job given).jobState jobId = some job.state := by
  subst hid
  simp [jobState, saveJobRow]

/-- The row and its announcement. -/
theorem announceJob_announces (h : r.FreshIds) {job : TrainingJob} {given : List String}
    (hid : job.jobId = jobId) (hstate : job.state ≠ .succeeded)
    (hgiven : given.insertionSort (· ≤ ·) = tenants.insertionSort (· ≤ ·))
    (hchange : job.state.isOutcome → r.jobState jobId ≠ some job.state) :
    Announces jobId tenants r (r.announceJob checks job given) := by
  have hsaved : (r.saveJobRow job given).FreshIds := h
  have hafter := r.saveJobRow_jobState hid given
  subst hid
  unfold announceJob
  dsimp only
  split
  · rename_i houtcome
    have hisOutcome : job.state.isOutcome = true := by
      rcases houtcome with hs | hs <;> rw [hs] <;> rfl
    obtain ⟨hfresh, houtcomes⟩ := emit_completed checks job.jobId hsaved given
      job.specification.jobType [job.specification.datasetId ++ "/" ++ job.specification.datasetVersion]
      none job.state none job.failureCode
    have hstate' : outcomeEntered (r.jobState job.jobId) (some job.state) = [job.state] := by
      simp [outcomeEntered, hisOutcome, hchange hisOutcome]
    refine ⟨hfresh, ?_⟩
    rw [houtcomes]
    show r.outcomes job.jobId ++ announcement given job.state = r.outcomes job.jobId ++
      (outcomeEntered (r.jobState job.jobId) ((r.saveJobRow job given).jobState job.jobId)).flatMap
        (announcement tenants)
    rw [hafter, hstate', List.flatMap_singleton, announcement, announcement, hgiven]
  · rename_i hquiet
    refine .silent hsaved rfl ?_
    have hnot : job.state.isOutcome = false := by
      cases hs : job.state <;> simp_all [JobState.isOutcome]
    rw [hafter]
    simp [outcomeEntered, hnot]

theorem announces_save (h : OutcomeInv jobId tenants r) {job : TrainingJob}
    {given : List String} (hid : job.jobId = jobId) (hstate : job.state ≠ .succeeded)
    (hgiven : r.trainingJobs jobId = none → given = tenants) :
    Announces jobId tenants r (r.saveJobOutcome checks job given) := by
  unfold saveJobOutcome
  rw [hid]
  cases hrow : r.trainingJobs jobId with
  | none =>
    exact announceJob_announces h.fresh hid hstate (by rw [hgiven hrow]) (by simp [jobState, hrow])
  | some previous =>
    dsimp only
    split
    · exact .refl h.fresh
    split
    · exact .refl h.fresh
    rename_i hcancelled hsame
    refine announceJob_announces h.fresh hid hstate (h.tenants previous hrow) fun houtcome hold => ?_
    -- a repeated outcome is one of the two that are held back
    have hold : previous.job.state = job.state := by simpa [jobState, hrow] using hold
    refine hsame ⟨hold, ?_⟩
    cases hs : job.state <;> simp_all [JobState.isOutcome]

/-- A row as the invariant has it. -/
theorem inv_of_row (hfresh : r'.FreshIds) {row : JobRow} (hrow : r'.trainingJobs jobId = some row)
    (hid : row.job.jobId = jobId)
    (htenants : row.tenantIds.insertionSort (· ≤ ·) = tenants.insertionSort (· ≤ ·))
    (hregistered : row.job.state = .succeeded → (r'.modelVersions row.job.modelVersion).isSome) :
    OutcomeInv jobId tenants r' := by
  have hunique : ∀ x, r'.trainingJobs jobId = some x → x = row := fun x hx => by
    simpa [hrow] using hx.symm
  exact ⟨hfresh, fun x hx => hunique x hx ▸ hid, fun x hx => hunique x hx ▸ htenants,
    fun x hx => hunique x hx ▸ hregistered⟩

theorem merge_state_ne {old job : TrainingJob} (hstate : job.state ≠ .succeeded) :
    (old.merge job).state ≠ .succeeded := by
  unfold TrainingJob.merge
  split
  · rename_i hold
    rcases hold with hs | ⟨hs, -⟩ <;> simp [hs]
  · exact hstate

theorem inv_save (h : OutcomeInv jobId tenants r) {job : TrainingJob} {given : List String}
    (hid : job.jobId = jobId) (hstate : job.state ≠ .succeeded)
    (hgiven : r.trainingJobs jobId = none → given = tenants) :
    OutcomeInv jobId tenants (r.saveJobOutcome checks job given) := by
  have hfresh := (@announces_save checks _ _ _ h _ _ hid hstate hgiven).fresh
  subst hid
  cases hrow : r.trainingJobs job.jobId with
  | none =>
    have hsaved : (r.saveJobOutcome checks job given).trainingJobs job.jobId =
        some ⟨given.insertionSort (· ≤ ·), job⟩ := by
      unfold saveJobOutcome
      rw [hrow]
      dsimp only
      rw [announceJob_trainingJobs, saveJobRow_of_none r hrow]
    refine inv_of_row hfresh hsaved rfl ?_ fun hs => absurd hs hstate
    rw [hgiven hrow, insertionSort_idem]
  | some row =>
    refine inv_of_row hfresh (saveJobOutcome_trainingJobs hrow given) ?_ (h.tenants row hrow)
      fun hs => absurd hs (merge_state_ne hstate)
    unfold TrainingJob.merge
    split
    · exact h.rowId row hrow
    · rfl

/-- A submission enqueues no event. -/
theorem enqueueJob_outbox {identity : Identity} {job job' : TrainingJob} {given : List String}
    (h : r.enqueueJob identity job given = .ok (job', r')) :
    r'.outbox = r.outbox ∧ r'.nextUid = r.nextUid := by
  unfold enqueueJob at h
  obtain ⟨found, -, h⟩ := Except.bind_eq_ok.1 h
  cases found with
  | none =>
    cases h
    exact ⟨rfl, rfl⟩
  | some old =>
    obtain ⟨_, -, h⟩ := Except.bind_eq_ok.1 h
    obtain ⟨_, -, h⟩ := Except.bind_eq_ok.1 h
    split at h
    · cases h
      exact ⟨rfl, rfl⟩
    · split at h <;> cases h <;> exact ⟨rfl, rfl⟩

/-- What a submission does: the job is queued, or its row stays. -/
theorem announces_enqueue (h : OutcomeInv jobId tenants r) {identity : Identity}
    {specification : TrainingJobSpecification} {architecture version : String} {job : TrainingJob}
    (hid : specification.jobId = jobId)
    (hcall : r.enqueueJob identity (.new specification architecture version) tenants = .ok (job, r')) :
    Announces jobId tenants r r' ∧ OutcomeInv jobId tenants r' := by
  subst hid
  obtain ⟨houtbox, hnextUid⟩ := enqueueJob_outbox hcall
  have hfresh : r'.FreshIds := by
    unfold FreshIds
    rw [houtbox, hnextUid]
    exact h.fresh
  have houtcomes : r'.outcomes specification.jobId = r.outcomes specification.jobId := by
    unfold outcomes
    rw [houtbox]
  obtain ⟨hversions, hcases⟩ := enqueueJob_cases hcall
  have hqueued : ∀ {row : JobRow}, r'.trainingJobs specification.jobId = some row →
      row.job.state = .queued → Announces specification.jobId tenants r r' := fun {row} hrow hs =>
    .silent hfresh houtcomes (by simp [jobState, hrow, hs, outcomeEntered, JobState.isOutcome])
  rcases hcases with ⟨-, hrow'⟩ | ⟨row, hrow, -, hrow'⟩ | ⟨hsame, -⟩
  · exact ⟨hqueued hrow' rfl, inv_of_row hfresh hrow' rfl (insertionSort_idem _) fun hs => by cases hs⟩
  · exact ⟨hqueued hrow' rfl, inv_of_row hfresh hrow' (h.rowId row hrow) (h.tenants row hrow)
      fun hs => by cases hs⟩
  · refine ⟨.silent hfresh houtcomes (by rw [jobState, jobState, hsame, entered_self]), hfresh, ?_, ?_, ?_⟩
    · exact fun row hrow => h.rowId row (hsame ▸ hrow)
    · exact fun row hrow => h.tenants row (hsame ▸ hrow)
    · exact fun row hrow hs => hversions ▸ h.registered row (hsame ▸ hrow) hs

/-- A cancellation saves the job with the request, or leaves it. -/
theorem announces_cancel (h : OutcomeInv jobId tenants r) {identity : Identity} {now : ℤ}
    {job : TrainingJob} (hcall : r.cancelJob checks identity jobId now = .ok (job, r')) :
    Announces jobId tenants r r' ∧ OutcomeInv jobId tenants r' := by
  unfold cancelJob at hcall
  obtain ⟨found, hfound, hcall⟩ := Except.bind_eq_ok.1 hcall
  have hfound := job_eq_ok hfound
  cases found with
  | none => cases hcall
  | some old =>
    obtain ⟨row, hrow, rfl⟩ : ∃ row, r.trainingJobs jobId = some row ∧ row.job = old := by
      simpa [eq_comm] using hfound
    dsimp only at hcall
    split at hcall
    · cases hcall
      exact ⟨.refl h.fresh, h⟩
    · rename_i hlive
      cases hcall
      have hid : (requestCancel row.job now).jobId = jobId := by
        rw [requestCancel_jobId, h.rowId row hrow]
      have hstate : (requestCancel row.job now).state ≠ .succeeded := by
        rw [requestCancel_state]
        split
        · simp
        · exact fun hs => hlive (.inl hs)
      have hgiven : r.trainingJobs jobId = none →
          ((r.trainingJobs jobId).map (·.tenantIds)).getD [] = tenants := by simp [hrow]
      exact ⟨announces_save h hid hstate hgiven, inv_save h hid hstate hgiven⟩

variable (checks jobId) in
/-- A transition of a model is no outcome of a job. -/
theorem record_outcomes (h : r.FreshIds) (m : ModelManifest) (entry : LifecycleTransition) :
    (r.record checks m entry).FreshIds ∧
      (r.record checks m entry).outcomes jobId = r.outcomes jobId := by
  let r₁ : Registry := { r with
    lifecycleTransitions := r.lifecycleTransitions ++ [⟨r.nextUid, m.version, entry⟩]
    nextUid := r.nextUid + 1 }
  have h₁ : r₁.FreshIds := fun row hrow => Nat.lt_succ_of_lt (h row hrow)
  have hemit : (r₁.emit checks m.tenantIds (m.changed entry)).FreshIds ∧
      (r₁.emit checks m.tenantIds (m.changed entry)).outcomes jobId =
        r₁.outcomes jobId ++ (r₁.events m.tenantIds (m.changed entry)).filterMap (outcomeOf jobId) :=
    emit_outcomes h₁ rfl
  rw [events_changed, List.append_nil] at hemit
  exact hemit

variable (checks jobId) in
theorem foldl_record_outcomes (m : ModelManifest) (history : List LifecycleTransition)
    (h : r.FreshIds) :
    (history.foldl (fun r t => r.record checks m t) r).FreshIds ∧
      (history.foldl (fun r t => r.record checks m t) r).outcomes jobId = r.outcomes jobId := by
  induction history generalizing r with
  | nil => exact ⟨h, rfl⟩
  | cons t history ih =>
    obtain ⟨hfresh, houtcomes⟩ := record_outcomes checks jobId h m t
    obtain ⟨hfresh', houtcomes'⟩ := ih hfresh
    exact ⟨hfresh', houtcomes'.trans houtcomes⟩

/-- A completion announces a success, which the job had not before. -/
theorem announces_complete (h : OutcomeInv jobId tenants r) {job : TrainingJob}
    {manifest : ModelManifest} {architecture : String} (hid : job.jobId = jobId)
    (hstate : job.state = .succeeded) (hversion : manifest.version = job.modelVersion)
    (hcopy : ∀ row, r.trainingJobs jobId = some row → job.modelVersion = row.job.modelVersion)
    (htenants : manifest.tenantIds = tenants.insertionSort (· ≤ ·))
    (hcall : r.complete checks job manifest architecture = .ok r') :
    Announces jobId tenants r r' ∧ OutcomeInv jobId tenants r' := by
  subst hid
  unfold complete at hcall
  obtain ⟨_, -, hcall⟩ := Except.bind_eq_ok.1 hcall
  obtain ⟨_, -, hcall⟩ := Except.bind_eq_ok.1 hcall
  obtain ⟨_, -, hcall⟩ := Except.bind_eq_ok.1 hcall
  obtain ⟨_, hnew, hcall⟩ := Except.bind_eq_ok.1 hcall
  have hnew : r.modelVersions manifest.version = none := by simpa using require_eq_ok.1 hnew
  cases hcall
  have hset : (r.setModel manifest).FreshIds := h.fresh
  obtain ⟨hfresh, houtcomes⟩ := foldl_record_outcomes checks job.jobId manifest
    manifest.lifecycleHistory hset
  obtain ⟨hjobs, hversions⟩ := foldl_record checks manifest manifest.lifecycleHistory
    (r.setModel manifest)
  generalize manifest.lifecycleHistory.foldl (fun r t => r.record checks manifest t)
    (r.setModel manifest) = r₁ at hfresh houtcomes hjobs hversions ⊢
  have hsaved : (r₁.saveJobRow job manifest.tenantIds).FreshIds := hfresh
  obtain ⟨hfresh', houtcomes'⟩ := emit_completed checks job.jobId hsaved manifest.tenantIds
    job.specification.jobType (manifest.datasets.map fun d => d.datasetId ++ "/" ++ d.version)
    (some manifest.version) .succeeded (some manifest.artifactDigest) none
  have hbefore : r.jobState job.jobId ≠ some .succeeded := by
    intro hold
    obtain ⟨row, hrow, hs⟩ := Option.map_eq_some_iff.1 hold
    have hregistered := h.registered row hrow hs
    rw [← hcopy row hrow, ← hversion, hnew] at hregistered
    cases hregistered
  refine ⟨⟨hfresh', ?_⟩, ?_⟩
  · have hentered : outcomeEntered (r.jobState job.jobId)
        ((r₁.saveJobRow job manifest.tenantIds).jobState job.jobId) = [.succeeded] := by
      rw [saveJobRow_jobState rfl, hstate]
      simp [outcomeEntered, JobState.isOutcome, hbefore]
    refine houtcomes'.trans ?_
    show r₁.outcomes job.jobId ++ _ = r.outcomes job.jobId ++
      (outcomeEntered (r.jobState job.jobId)
        ((r₁.saveJobRow job manifest.tenantIds).jobState job.jobId)).flatMap (announcement tenants)
    rw [hentered, List.flatMap_singleton, houtcomes, announcement, announcement, htenants,
      insertionSort_idem]
    rfl
  · have hregistered : (r₁.modelVersions job.modelVersion).isSome := by
      rw [hversions, ← hversion]
      simp [setModel]
    cases hrow : r.trainingJobs job.jobId with
    | none =>
      have hrow₁ : r₁.trainingJobs job.jobId = none := by rw [hjobs]; exact hrow
      refine inv_of_row hfresh' (saveJobRow_of_none r₁ hrow₁ _) rfl ?_ fun _ => hregistered
      rw [htenants, insertionSort_idem, insertionSort_idem]
    | some row =>
      have hrow₁ : r₁.trainingJobs job.jobId = some row := by rw [hjobs]; exact hrow
      exact inv_of_row hfresh' (saveJobRow_of_some r₁ rfl hrow₁ _) rfl (h.tenants row hrow)
        fun _ => hregistered

end Registry

/-- **Step lemma.** -/
theorem OutcomeInv.call {jobId : String} {tenants : List String} {r r' : Registry}
    (h : OutcomeInv jobId tenants r) (hcall : OutcomeCall jobId tenants r r') :
    Announces jobId tenants r r' ∧ OutcomeInv jobId tenants r' := by
  cases hcall with
  | enqueue hid hcall => exact Registry.announces_enqueue h hid hcall
  | cancel hcall => exact Registry.announces_cancel h hcall
  | save hid hstate hgiven =>
    exact ⟨Registry.announces_save h hid hstate hgiven, Registry.inv_save h hid hstate hgiven⟩
  | complete hid hstate hversion hcopy htenants hcall =>
    exact Registry.announces_complete h hid hstate hversion hcopy htenants hcall

/-- **Run lemma.** -/
theorem OutcomeRun.inv {jobId : String} {tenants : List String} {r : Registry}
    {changes : List JobState} {told : List (String × JobState)}
    (h : OutcomeRun jobId tenants r changes told) :
    OutcomeInv jobId tenants r ∧ told = changes.flatMap (announcement tenants) := by
  induction h with
  | start hnone hfresh => exact ⟨⟨hfresh, by simp [hnone], by simp [hnone], by simp [hnone]⟩, rfl⟩
  | call _ hcall ih =>
    obtain ⟨hinv, htold⟩ := ih
    obtain ⟨hannounces, hinv'⟩ := hinv.call hcall
    refine ⟨hinv', ?_⟩
    rw [hannounces.outcomes, List.drop_left, htold, List.flatMap_append]
  | other _ hrow hversions hfresh ih =>
    obtain ⟨hinv, htold⟩ := ih
    exact ⟨⟨hfresh, fun row h => hinv.rowId row (hrow ▸ h), fun row h => hinv.tenants row (hrow ▸ h),
      fun row h hs => hversions _ (hinv.registered row (hrow ▸ h) hs)⟩, htold⟩

/-- **One announcement for each outcome.** In every run of a job's calls, what was enqueued of its
    outcomes is one announcement to the tenants of its dataset for each change of the stored state into
    an outcome, in this order, and a further call that makes no such change enqueues none. -/
theorem one_announcement {jobId : String} {tenants : List String} {r : Registry}
    {changes : List JobState} {told : List (String × JobState)}
    (h : OutcomeRun jobId tenants r changes told) :
    told = changes.flatMap (announcement tenants) ∧
      ∀ r', OutcomeCall jobId tenants r r' →
        outcomeEntered (r.jobState jobId) (r'.jobState jobId) = [] →
        r'.outcomes jobId = r.outcomes jobId := by
  obtain ⟨hinv, htold⟩ := h.inv
  refine ⟨htold, fun r' hcall hnone => ?_⟩
  rw [(hinv.call hcall).1.outcomes, hnone, List.flatMap_nil, List.append_nil]

/-! The job that is cancelled while it is queued. -/

namespace CancelledJob

theorem cancelled_changes :
    outcomeEntered (({} : Registry).jobState "job") (submitted.jobState "job") ++
      outcomeEntered (submitted.jobState "job") (cancelled.jobState "job") = [.cancelled] := by
  decide +kernel

theorem submitted_outcomes : submitted.outcomes "job" = [] := by decide +kernel

end CancelledJob

open CancelledJob in
theorem cancelledJob_announced :
    cancelled.outcomes "job" = [JobState.cancelled].flatMap (announcement ["acme"]) := by
  have henqueue : ({} : Registry).enqueueJob operator
      (.new specification "deterministic-fake-adapter-v1" "v1") ["acme"] =
        .ok (queued, submitted) := by rfl
  have hcancel : submitted.cancelJob checks operator "job" 7 =
      .ok (Registry.requestCancel queued 7, cancelled) := by rfl
  have hstart : OutcomeRun "job" ["acme"] {} [] [] := .start rfl fun row hrow => by cases hrow
  have hrun := (one_announcement ((hstart.call (.enqueue rfl henqueue)).call (.cancel hcancel))).1
  simp only [List.nil_append, cancelled_changes, submitted_outcomes, List.drop_nil, List.length_nil,
    List.drop_zero] at hrun
  exact hrun

end AdaptiveLlm
