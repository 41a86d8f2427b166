import AdaptiveLlm.Lib.Runs
import AdaptiveLlm.Training.Worker

set_option autoImplicit false

/-! # Terminal training jobs

A run writes its copy of the job back whole, while cancellations and retries come in between. What
keeps this apart is said by `TrainingInv`: a copy in a run is of the stored version of a job that has
not succeeded, and it knows of no cancellation that the row does not know of; a job that has
succeeded is one whose version is registered, and was never asked to cancel.

A stored row changes in few ways, and `RowNext` lists them: it is queued, runs, or reaches an
outcome, and an outcome is left only by a retry of a failed job. The worker's copy may be older than
the row; the invariant bounds how far, which is what makes its whole-row writes harmless.
`trainingJobs_terminal` puts together what the run lemma says of the first and the last state of a
run. -/

namespace AdaptiveLlm

/-! ## The transactions on the row -/

/-- What `_save_job_outcome` leaves of the stored job `old` and the saved one. -/
def TrainingJob.merge (old job : TrainingJob) : TrainingJob :=
  if old.state = .cancelled ∨ old.state = .failed ∧ job.state = .failed then old
  else { job with cancelRequested := old.cancelRequested || job.cancelRequested }

theorem TrainingJob.merge_of_pending {old job : TrainingJob} (h : old.pending) :
    old.merge job = { job with cancelRequested := old.cancelRequested || job.cancelRequested } := by
  unfold TrainingJob.merge
  rw [if_neg]
  rcases h with h | h <;> simp [h]

namespace Registry

variable {checks : RegistryChecks} {r r' : Registry} {jobId : String}

theorem saveJobOutcome_modelVersions (job : TrainingJob) (tenants : List String) :
    (r.saveJobOutcome checks job tenants).modelVersions = r.modelVersions := by
  unfold saveJobOutcome
  dsimp only
  split
  · simp
  · split_ifs <;> simp

theorem saveJobOutcome_trainingJobs {row : JobRow} {job : TrainingJob}
    (hrow : r.trainingJobs job.jobId = some row) (tenants : List String) :
    (r.saveJobOutcome checks job tenants).trainingJobs job.jobId =
      some ⟨row.tenantIds, row.job.merge job⟩ := by
  unfold saveJobOutcome TrainingJob.merge
  simp only [hrow]
  by_cases hcancelled : row.job.state = .cancelled
  · rw [if_pos hcancelled, if_pos (.inl hcancelled), hrow]
  by_cases hfailed : row.job.state = .failed ∧ job.state = .failed
  · rw [if_neg hcancelled, if_pos (by simp [hfailed]), if_pos (.inr hfailed), hrow]
  rw [if_neg hcancelled, if_neg (by rintro ⟨h, h' | h'⟩ <;> simp_all), announceJob_trainingJobs,
    if_neg (by simp [hcancelled, hfailed])]
  refine saveJobRow_of_some r ?_ hrow _
  rfl

variable (checks) in
/-- A worker's save on the row. -/
theorem saveJob_row {row : JobRow} {job : TrainingJob} (hjob : job.jobId = jobId)
    (hrow : r.trainingJobs jobId = some row) (tenants : List String) :
    (r.saveJob checks job tenants).trainingJobs jobId =
      some ⟨row.tenantIds, row.job.merge job⟩ := by
  subst hjob
  exact saveJobOutcome_trainingJobs hrow tenants

variable (checks r) in
theorem saveJob_modelVersions (job : TrainingJob) (tenants : List String) :
    (r.saveJob checks job tenants).modelVersions = r.modelVersions :=
  saveJobOutcome_modelVersions job tenants

/-- What `job` reads. -/
theorem job_eq_ok {identity : Identity} {found : Option TrainingJob}
    (h : r.job identity jobId = .ok found) : found = (r.trainingJobs jobId).map (·.job) := by
  unfold job at h
  obtain ⟨_, -, h⟩ := Except.bind_eq_ok.1 h
  split at h
  · rename_i hrow
    cases h
    rw [hrow]; rfl
  · rename_i row hrow
    obtain ⟨_, -, h⟩ := Except.bind_eq_ok.1 h
    cases h
    rw [hrow]; rfl

/-- What `enqueue` does to the row: it makes it, queues a failed job again, or leaves it. -/
theorem enqueueJob_cases {identity : Identity} {job job' : TrainingJob} {tenants : List String}
    (h : r.enqueueJob identity job tenants = .ok (job', r')) :
    r'.modelVersions = r.modelVersions ∧
      ((r.trainingJobs job.jobId = none ∧
          r'.trainingJobs job.jobId = some ⟨tenants.insertionSort (· ≤ ·), job⟩) ∨
        (∃ row, r.trainingJobs job.jobId = some row ∧ row.job.state = .failed ∧
          r'.trainingJobs job.jobId = some ⟨row.tenantIds, { row.job with
            state := .queued, failureCode := none, completedAt := none }⟩) ∨
        (r'.trainingJobs = r.trainingJobs ∧
          ∃ row, r.trainingJobs job.jobId = some row ∧ row.job.state ≠ .failed)) := by
  unfold enqueueJob at h
  obtain ⟨found, hfound, h⟩ := Except.bind_eq_ok.1 h
  have hfound := job_eq_ok hfound
  cases found with
  | none =>
    cases h
    have hnone : r.trainingJobs job.jobId = none := by simpa using hfound.symm
    refine ⟨rfl, .inl ⟨hnone, ?_⟩⟩
    rw [setSubmitter_trainingJobs, saveJobRow_of_none r hnone]
  | some old =>
    obtain ⟨row, hrow, rfl⟩ : ∃ row, r.trainingJobs job.jobId = some row ∧ row.job = old := by
      simpa [eq_comm] using hfound
    obtain ⟨_, -, h⟩ := Except.bind_eq_ok.1 h
    obtain ⟨_, hspecification, h⟩ := Except.bind_eq_ok.1 h
    have hspecification : row.job.specification = job.specification := by
      simpa using require_eq_ok.1 hspecification
    split at h
    · rename_i hfailed
      cases h
      refine ⟨rfl, .inr (.inl ⟨row, hrow, hfailed, ?_⟩)⟩
      rw [setSubmitter_trainingJobs]
      exact saveJobRow_of_some r (congrArg (·.jobId) hspecification) hrow _
    · rename_i hlive
      split at h <;> cases h <;> exact ⟨rfl, .inr (.inr ⟨rfl, row, hrow, hlive⟩)⟩

/-- What `cancel_job` does to the row: nothing when the job is terminal, else it records the
    request. -/
theorem cancelJob_cases {identity : Identity} {now : ℤ} {job : TrainingJob}
    (hid : ∀ row, r.trainingJobs jobId = some row → row.job.jobId = jobId)
    (h : r.cancelJob checks identity jobId now = .ok (job, r')) :
    r'.modelVersions = r.modelVersions ∧ ∃ row, r.trainingJobs jobId = some row ∧
      ((¬row.job.pending ∧ r' = r) ∨
        (row.job.pending ∧
          r'.trainingJobs jobId = some ⟨row.tenantIds, row.job.merge (requestCancel row.job now)⟩)) := by
  unfold cancelJob at h
  obtain ⟨found, hfound, h⟩ := Except.bind_eq_ok.1 h
  have hfound := job_eq_ok hfound
  cases found with
  | none => cases h
  | some old =>
    obtain ⟨row, hrow, rfl⟩ : ∃ row, r.trainingJobs jobId = some row ∧ row.job = old := by
      simpa [eq_comm] using hfound
    dsimp only at h
    split at h
    · rename_i hterminal
      cases h
      refine ⟨rfl, row, hrow, .inl ⟨?_, rfl⟩⟩
      rintro (hp | hp) <;> rw [hp] at hterminal <;> simp at hterminal
    · rename_i hpending
      cases h
      refine ⟨saveJobOutcome_modelVersions .., row, hrow, .inr ⟨?_, ?_⟩⟩
      · unfold TrainingJob.pending
        cases hstate : row.job.state <;> simp [hstate] at hpending ⊢
      · have hsame : (requestCancel row.job now).jobId = jobId := by
          rw [requestCancel_jobId, hid row hrow]
        subst hsame
        exact saveJobOutcome_trainingJobs hrow _

variable (checks) in
theorem foldl_record (manifest : ModelManifest) (history : List LifecycleTransition)
    (r : Registry) :
    (history.foldl (fun r t => r.record checks manifest t) r).trainingJobs = r.trainingJobs ∧
      (history.foldl (fun r t => r.record checks manifest t) r).modelVersions = r.modelVersions := by
  induction history generalizing r with
  | nil => exact ⟨rfl, rfl⟩
  | cons t history ih => exact ih (r.record checks manifest t)

/-- What `complete` does: it stores the job as it is given and registers its model. -/
theorem complete_eq_ok {job : TrainingJob} {manifest : ModelManifest} {architecture : String}
    {row : JobRow} (hid : job.jobId = jobId) (hrow : r.trainingJobs jobId = some row)
    (h : r.complete checks job manifest architecture = .ok r') :
    row.job.cancelRequested = false ∧ r'.trainingJobs jobId = some ⟨row.tenantIds, job⟩ ∧
      (r'.modelVersions manifest.version).isSome := by
  unfold complete at h
  obtain ⟨_, -, h⟩ := Except.bind_eq_ok.1 h
  obtain ⟨_, -, h⟩ := Except.bind_eq_ok.1 h
  obtain ⟨_, hcancel, h⟩ := Except.bind_eq_ok.1 h
  obtain ⟨_, -, h⟩ := Except.bind_eq_ok.1 h
  cases h
  obtain ⟨hjobs, hversions⟩ := foldl_record checks manifest manifest.lifecycleHistory
    (r.setModel manifest)
  refine ⟨?_, ?_, ?_⟩
  · simpa [hid, hrow] using require_eq_ok.1 hcancel
  · rw [emit_trainingJobs]
    exact saveJobRow_of_some _ hid (hjobs.symm ▸ hrow) _
  · rw [emit_modelVersions, saveJobRow_modelVersions, hversions]
    simp [setModel]

end Registry

/-! ## The invariant

The copy of a run and the stored row are compared field by field, as far as a whole-row write could
take something back: the version, the state and the request to cancel. -/

/-- What a row keeps for good: a cancellation request, and all of it once the job has succeeded or
    was cancelled. -/
structure RowNext (row row' : JobRow) : Prop where
  requested : row.job.cancelRequested → row'.job.cancelRequested
  terminal : row.job.state = .succeeded ∨ row.job.state = .cancelled → row' = row

theorem RowNext.refl (row : JobRow) : RowNext row row := ⟨id, fun _ => rfl⟩

theorem RowNext.trans (row row' row'' : JobRow) (h : RowNext row row') (h' : RowNext row' row'') :
    RowNext row row'' := by
  refine ⟨fun hr => h'.requested (h.requested hr), fun hs => ?_⟩
  have hsame : row' = row := h.terminal hs
  exact (h'.terminal (hsame.symm ▸ hs)).trans hsame

/-- A change of the row that is not a completion. -/
structure RowStep (row row' : JobRow) : Prop extends RowNext row row' where
  jobId : row'.job.jobId = row.job.jobId
  version : row'.job.modelVersion = row.job.modelVersion
  succeeded : row'.job.state = .succeeded ↔ row.job.state = .succeeded

theorem RowStep.refl (row : JobRow) : RowStep row row := ⟨.refl row, rfl, rfl, Iff.rfl⟩

/-- A copy of the job that the worker may still write back. -/
structure HeldCopy (jobId : String) (row : JobRow) (j : TrainingJob) : Prop where
  jobId : j.jobId = jobId
  version : j.modelVersion = row.job.modelVersion
  unfinished : row.job.state ≠ .succeeded
  copyUnfinished : j.state ≠ .succeeded
  requested : j.cancelRequested → row.job.cancelRequested
  cancelled : row.job.state = .cancelled → row.job.cancelRequested

/-- The copy the worker holds in a phase. -/
def WorkerPhase.held : WorkerPhase → Option TrainingJob
  | .loaded job | .training job | .failing job _ | .reporting job => some job
  | _ => none

/-- What holds of the row of a job after every call of the registry. -/
structure RegistryInv (jobId : String) (r : Registry) : Prop where
  rowId : ∀ row, r.trainingJobs jobId = some row → row.job.jobId = jobId
  registered : ∀ row, r.trainingJobs jobId = some row →
    (row.job.state = .succeeded ↔ (r.modelVersions row.job.modelVersion).isSome)
  unrequested : ∀ row, r.trainingJobs jobId = some row → row.job.state = .succeeded →
    row.job.cancelRequested = false

/-- What holds of registry and worker after every step. -/
structure TrainingInv (jobId : String) (s : TrainingSystem) : Prop where
  registry : RegistryInv jobId s.registry
  present : s.worker = .claimed → ∃ row, s.row jobId = some row
  notCreating : ∀ job, s.worker ≠ .creating job
  held : ∀ job, s.worker.held = some job → ∃ row, s.row jobId = some row ∧ HeldCopy jobId row job
  running : ∀ job, s.worker = .training job → job.state = .running

section Step

variable {jobId : String} {r r' : Registry} {row row' : JobRow} {w : WorkerPhase}

theorem RegistryInv.rowStep (h : RegistryInv jobId r) (hrow : r.trainingJobs jobId = some row)
    (hrow' : r'.trainingJobs jobId = some row') (hstep : RowStep row row')
    (hversions : (r'.modelVersions row.job.modelVersion).isSome =
      (r.modelVersions row.job.modelVersion).isSome) : RegistryInv jobId r' := by
  have hunique : ∀ x, r'.trainingJobs jobId = some x → x = row' := fun x hx => by
    simpa [hrow'] using hx.symm
  refine ⟨fun x hx => ?_, fun x hx => ?_, fun x hx hs => ?_⟩
  · rw [hunique x hx, hstep.jobId]
    exact h.rowId row hrow
  · rw [hunique x hx, hstep.succeeded, hstep.version, hversions]
    exact h.registered row hrow
  · rw [hunique x hx] at hs ⊢
    have hsucceeded := hstep.succeeded.1 hs
    rw [hstep.terminal (.inl hsucceeded)]
    exact h.unrequested row hrow hsucceeded

theorem RegistryInv.none (hrow : r.trainingJobs jobId = .none) : RegistryInv jobId r := by
  constructor <;> simp [hrow]

/-- A new job is queued, and its version is not registered. -/
theorem RegistryInv.new {specification : TrainingJobSpecification} {architecture version : String}
    {tenants : List String}
    (hrow : r.trainingJobs specification.jobId =
      some ⟨tenants, .new specification architecture version⟩)
    (hfresh : r.modelVersions version = .none) : RegistryInv specification.jobId r := by
  constructor <;> simp [hrow, TrainingJob.new, TrainingJob.jobId, hfresh]

/-- A job that is stored as succeeded without a request, together with its version. -/
theorem RegistryInv.completed {tenants : List String} {job : TrainingJob}
    (hrow : r.trainingJobs jobId = some ⟨tenants, job⟩) (hid : job.jobId = jobId)
    (hstate : job.state = .succeeded) (hrequested : job.cancelRequested = false)
    (hversion : (r.modelVersions job.modelVersion).isSome) : RegistryInv jobId r := by
  constructor <;> simp [hrow, hid, hstate, hrequested, hversion]

/-- A copy survives a change of the row that cancels it on request only. -/
theorem HeldCopy.rowStep {j : TrainingJob} (h : HeldCopy jobId row j) (hstep : RowStep row row')
    (hcancel : row'.job.state = .cancelled → row'.job.cancelRequested ∨ row.job.state = .cancelled) :
    HeldCopy jobId row' j where
  jobId := h.jobId
  version := h.version.trans hstep.version.symm
  unfinished := fun hs => h.unfinished (hstep.succeeded.1 hs)
  copyUnfinished := h.copyUnfinished
  requested := fun hr => hstep.requested (h.requested hr)
  cancelled := fun hs => (hcancel hs).elim id fun hs => hstep.requested (h.cancelled hs)

theorem rowStep_merge {j : TrainingJob} (h : HeldCopy jobId row j) (hid : row.job.jobId = jobId) :
    RowStep row ⟨row.tenantIds, row.job.merge j⟩ := by
  unfold TrainingJob.merge
  split
  · exact .refl row
  · rename_i hlive
    rw [not_or] at hlive
    refine ⟨⟨fun hr => by simp [hr], ?_⟩, h.jobId.trans hid.symm, h.version, ?_⟩
    · rintro (hs | hs)
      · exact absurd hs h.unfinished
      · exact absurd hs hlive.1
    · exact ⟨fun hs => absurd hs h.copyUnfinished, fun hs => absurd hs h.unfinished⟩

theorem rowStep_cancel (hpending : row.job.pending) (now : ℤ) :
    RowStep row ⟨row.tenantIds, row.job.merge (Registry.requestCancel row.job now)⟩ := by
  rw [TrainingJob.merge_of_pending hpending]
  have hstate := Registry.requestCancel_state row.job now
  refine ⟨⟨fun hr => by simp [hr], ?_⟩, Registry.requestCancel_jobId ..,
    Registry.requestCancel_modelVersion .., ?_⟩
  · rcases hpending with h | h <;> simp [h]
  · rcases hpending with h | h <;> simp [hstate, h]

/-- A transaction of the API changes a stored row by a `RowStep`, cancels it on request only, and
    registers no version. -/
theorem api_rowStep {s t : TrainingSystem} (hs : RegistryInv jobId s.registry)
    (hrow : s.row jobId = some row)
    (hstep : (∃ identity specification architecture version tenants job,
        specification.jobId = jobId ∧
        s.registry.enqueueJob identity (.new specification architecture version) tenants =
          .ok (job, t.registry)) ∨
      ∃ checks identity now job,
        s.registry.cancelJob checks identity jobId now = .ok (job, t.registry)) :
    (t.registry.modelVersions row.job.modelVersion).isSome =
        (s.registry.modelVersions row.job.modelVersion).isSome ∧
      ∃ row', t.row jobId = some row' ∧ RowStep row row' ∧
        (row'.job.state = .cancelled → row'.job.cancelRequested ∨ row.job.state = .cancelled) := by
  unfold TrainingSystem.row at *
  rcases hstep with ⟨identity, specification, architecture, version, tenants, job, rfl, h⟩ |
    ⟨checks, identity, now, job, h⟩
  · obtain ⟨hversions, hcases⟩ := Registry.enqueueJob_cases h
    refine ⟨by rw [hversions], ?_⟩
    rcases hcases with ⟨hnone, -⟩ | ⟨row₁, hrow₁, hfailed, hrow'⟩ | ⟨hsame, -⟩
    · exact absurd (hnone.symm.trans hrow) (by simp)
    · obtain rfl : row₁ = row := by simpa using hrow₁.symm.trans hrow
      refine ⟨_, hrow', ⟨⟨id, by simp [hfailed]⟩, rfl, rfl, by simp [hfailed]⟩, by simp⟩
    · exact ⟨row, by rw [hsame]; exact hrow, .refl row, .inr⟩
  · obtain ⟨hversions, row₁, hrow₁, hcases⟩ := Registry.cancelJob_cases hs.rowId h
    refine ⟨by rw [hversions], ?_⟩
    obtain rfl : row₁ = row := by simpa using hrow₁.symm.trans hrow
    rcases hcases with ⟨-, hsame⟩ | ⟨hpending, hrow'⟩
    · exact ⟨row₁, by rw [hsame]; exact hrow, .refl row₁, .inr⟩
    · refine ⟨_, hrow', rowStep_cancel hpending now, fun _ => .inl ?_⟩
      rw [TrainingJob.merge_of_pending hpending]
      simp

theorem HeldCopy.copy {j j' : TrainingJob} (h : HeldCopy jobId row j) (hid : j'.jobId = j.jobId)
    (hversion : j'.modelVersion = j.modelVersion)
    (hrequested : j'.cancelRequested = j.cancelRequested) (hstate : j'.state ≠ .succeeded) :
    HeldCopy jobId row j' :=
  ⟨hid.trans h.jobId, hversion.trans h.version, h.unfinished, hstate,
    fun hr => h.requested (hrequested ▸ hr), h.cancelled⟩

/-- A save of the worker's copy is a `RowStep`, after which the worker may hold on to the copy. -/
theorem RegistryInv.save (h : RegistryInv jobId r) (hrow : r.trainingJobs jobId = some row)
    {j : TrainingJob} (hj : HeldCopy jobId row j) (checks : RegistryChecks) (tenants : List String) :
    RegistryInv jobId (r.saveJob checks j tenants) ∧
      ∃ row', (r.saveJob checks j tenants).trainingJobs jobId = some row' ∧ RowStep row row' ∧
        (j.state ≠ .cancelled → HeldCopy jobId row' j) := by
  have hsave := Registry.saveJob_row checks hj.jobId hrow tenants
  have hstep := rowStep_merge hj (h.rowId row hrow)
  have hversions := Registry.saveJob_modelVersions checks r j tenants
  refine ⟨h.rowStep hrow hsave hstep (by rw [hversions]), _, hsave, hstep, fun hstate => ?_⟩
  refine hj.rowStep hstep fun hs => .inr ?_
  unfold TrainingJob.merge at hs
  split at hs
  · exact hs
  · exact absurd hs hstate

end Step

/-! ## The steps -/

section Invariant

variable {jobId : String} {s t : TrainingSystem}

/-- A move of the worker that leaves the registry alone. -/
theorem TrainingInv.move (h : TrainingInv jobId s) {w : WorkerPhase}
    (hpresent : w = .claimed → ∃ row, s.row jobId = some row)
    (hnotCreating : ∀ job, w ≠ .creating job) (hnotTraining : ∀ job, w ≠ .training job)
    (hheld : ∀ job, w.held = some job → ∃ row, s.row jobId = some row ∧ HeldCopy jobId row job) :
    TrainingInv jobId { s with worker := w } ∧
      ∀ row, s.row jobId = some row → ∃ row', s.row jobId = some row' ∧ RowNext row row' :=
  ⟨⟨h.registry, hpresent, hnotCreating, hheld, fun job hw => absurd hw (hnotTraining job)⟩,
    fun row hrow => ⟨row, hrow, .refl row⟩⟩

/-- A transaction of the API. -/
theorem TrainingInv.api (h : TrainingInv jobId s) (hworker : t.worker = s.worker)
    (hstep : ∀ row, s.row jobId = some row →
      (t.registry.modelVersions row.job.modelVersion).isSome =
          (s.registry.modelVersions row.job.modelVersion).isSome ∧
        ∃ row', t.row jobId = some row' ∧ RowStep row row' ∧
          (row'.job.state = .cancelled → row'.job.cancelRequested ∨ row.job.state = .cancelled))
    (hnew : s.row jobId = none → RegistryInv jobId t.registry) :
    TrainingInv jobId t ∧
      ∀ row, s.row jobId = some row → ∃ row', t.row jobId = some row' ∧ RowNext row row' := by
  constructor
  · refine ⟨?_, fun hw => ?_, fun job => hworker ▸ h.notCreating job, fun job hjob => ?_,
      fun job hw => h.running job (hworker ▸ hw)⟩
    · cases hrow : s.row jobId with
      | none => exact hnew hrow
      | some row =>
        obtain ⟨hversions, row', hrow', hrowStep, -⟩ := hstep row hrow
        exact h.registry.rowStep hrow hrow' hrowStep hversions
    · obtain ⟨row, hrow⟩ := h.present (hworker ▸ hw)
      obtain ⟨-, row', hrow', -⟩ := hstep row hrow
      exact ⟨row', hrow'⟩
    · obtain ⟨row, hrow, hcopy⟩ := h.held job (hworker ▸ hjob)
      obtain ⟨-, row', hrow', hrowStep, hcancel⟩ := hstep row hrow
      exact ⟨row', hrow', hcopy.rowStep hrowStep hcancel⟩
  · intro row hrow
    obtain ⟨-, row', hrow', hrowStep, -⟩ := hstep row hrow
    exact ⟨row', hrow', hrowStep.toRowNext⟩

/-- A save of the worker; it goes on holding the copy or nothing. -/
theorem TrainingInv.save (h : TrainingInv jobId s) {j : TrainingJob} {checks : RegistryChecks}
    {tenants : List String} (hregistry : t.registry = s.registry.saveJob checks j tenants)
    (hj : ∃ row, s.row jobId = some row ∧ HeldCopy jobId row j)
    (hclaimed : t.worker ≠ .claimed) (hnotCreating : ∀ job, t.worker ≠ .creating job)
    (hheld : t.worker.held = none ∨ t.worker = .training j ∧ j.state = .running) :
    TrainingInv jobId t ∧
      ∀ row, s.row jobId = some row → ∃ row', t.row jobId = some row' ∧ RowNext row row' := by
  obtain ⟨row, hrow, hcopy⟩ := hj
  obtain ⟨hinv, row', hrow', hstep, hkeeps⟩ := h.registry.save hrow hcopy checks tenants
  rw [← hregistry] at hinv hrow'
  refine ⟨⟨hinv, fun hw => absurd hw hclaimed, hnotCreating, fun job hjob => ?_, fun job hw => ?_⟩,
    fun x hx => ?_⟩
  · rcases hheld with hnone | ⟨hsome, hstate⟩
    · rw [hnone] at hjob
      cases hjob
    · obtain rfl : j = job := by simpa [hsome, WorkerPhase.held] using hjob
      exact ⟨row', hrow', hkeeps (by simp [hstate])⟩
  · rcases hheld with hnone | ⟨hsome, hstate⟩
    · rw [hw] at hnone
      cases hnone
    · obtain rfl : j = job := by simpa [hsome] using hw
      exact hstate
  · obtain rfl : row = x := by simpa using hrow.symm.trans hx
    exact ⟨row', hrow', hstep.toRowNext⟩

/-- **Step lemma.** Every step keeps the invariant and changes a stored row by `RowNext`. -/
theorem TrainingInv.step (h : TrainingInv jobId s) (hstep : TrainingStep jobId s t) :
    TrainingInv jobId t ∧
      ∀ row, s.row jobId = some row → ∃ row', t.row jobId = some row' ∧ RowNext row row' := by
  cases hstep with
  | enqueue hid hfresh hcall =>
    refine h.api rfl (fun row hrow => api_rowStep h.registry hrow
      (.inl ⟨_, _, _, _, _, _, hid, hcall⟩)) fun hnone => ?_
    obtain ⟨hversions, hcases⟩ := Registry.enqueueJob_cases hcall
    subst hid
    rcases hcases with ⟨-, hrow'⟩ | ⟨row, hrow, -⟩ | ⟨hsame, -⟩
    · exact .new hrow' (by rw [hversions]; exact hfresh)
    · exact absurd (hnone.symm.trans hrow) (by simp)
    · exact .none (by rw [hsame]; exact hnone)
  | cancel hcall =>
    refine h.api rfl (fun row hrow => api_rowStep h.registry hrow (.inr ⟨_, _, _, _, hcall⟩))
      fun hnone => ?_
    obtain ⟨-, row, hrow, -⟩ := Registry.cancelJob_cases h.registry.rowId hcall
    exact absurd (hnone.symm.trans hrow) (by simp)
  | other hrow hversions =>
    exact h.api rfl (fun row hr => ⟨hversions row hr, row, hrow.trans hr, .refl row, .inr⟩)
      fun hnone => .none (hrow.trans hnone)
  | claim hrow hpending =>
    exact h.move (fun _ => ⟨_, hrow⟩) (by simp) (by simp) (by simp [WorkerPhase.held])
  | refuse => exact h.move (by simp) (by simp) (by simp) (by simp [WorkerPhase.held])
  | load hrow hsucceeded hcancelled =>
    refine h.move (by simp) (by simp) (by simp) fun job hjob => ⟨_, hrow, ?_⟩
    obtain rfl : _ = job := by simpa [WorkerPhase.held] using hjob
    exact ⟨h.registry.rowId _ hrow, rfl, hsucceeded, hsucceeded, id, fun hs => absurd hs hcancelled⟩
  | loadNew hnone hid =>
    obtain ⟨row, hrow⟩ := h.present rfl
    exact absurd (hnone.symm.trans hrow) (by simp)
  | create => exact absurd rfl (h.notCreating _)
  | start =>
    obtain ⟨row, hrow, hcopy⟩ := h.held _ rfl
    exact h.save rfl ⟨row, hrow, hcopy.copy rfl rfl rfl (by simp [TrainingJob.start])⟩ (by simp)
      (by simp) (.inr ⟨rfl, rfl⟩)
  | checkpoint =>
    obtain ⟨row, hrow, hcopy⟩ := h.held _ rfl
    have hrunning := h.running _ rfl
    exact h.save rfl ⟨row, hrow, hcopy.copy rfl rfl rfl (by simp [TrainingJob.checkpoint, hrunning])⟩
      (by simp) (by simp) (.inr ⟨rfl, hrunning⟩)
  | complete hversion hcall =>
    obtain ⟨row, hrow, hcopy⟩ := h.held _ rfl
    obtain ⟨hrequested, hrow', hregistered⟩ :=
      Registry.complete_eq_ok (show (TrainingJob.succeed ..).jobId = jobId from hcopy.jobId) hrow hcall
    refine ⟨⟨.completed hrow' hcopy.jobId rfl ?_ (hversion ▸ hregistered), by simp, by simp,
      by simp [WorkerPhase.held], by simp⟩, fun x hx => ⟨_, hrow', ?_⟩⟩
    · -- a copy that knew of a request would have met it in the row
      exact Bool.eq_false_iff.2 fun hr => by simp [hcopy.requested hr] at hrequested
    · obtain rfl : row = x := by simpa using hrow.symm.trans hx
      refine ⟨fun hr => by simp [hr] at hrequested, ?_⟩
      rintro (hs | hs)
      · exact absurd hs hcopy.unfinished
      · rw [hcopy.cancelled hs] at hrequested
        exact absurd hrequested (by simp)
  | fail =>
    obtain ⟨row, hrow, hcopy⟩ := h.held _ rfl
    refine h.move (by simp) (by simp) (by simp) fun job hjob => ⟨row, hrow, ?_⟩
    obtain rfl : _ = job := by simpa [WorkerPhase.held] using hjob
    exact hcopy.copy rfl rfl rfl (TrainingJob.fail_state _ _ _)
  | failComplete =>
    obtain ⟨row, hrow, hcopy⟩ := h.held _ rfl
    refine h.move (by simp) (by simp) (by simp) fun job hjob => ⟨row, hrow, ?_⟩
    obtain rfl : _ = job := by simpa [WorkerPhase.held] using hjob
    exact hcopy.copy rfl rfl rfl (TrainingJob.fail_state _ _ _)
  | saveFailure =>
    obtain ⟨row, hrow, hcopy⟩ := h.held _ rfl
    exact h.save rfl ⟨row, hrow, hcopy⟩ (by simp) (by simp) (.inl rfl)
  | reread hshutdown hrunning hrow hpending =>
    refine h.move (by simp) (by simp) (by simp) fun job hjob => ⟨_, hrow, ?_⟩
    obtain rfl : _ = job := by simpa [WorkerPhase.held] using hjob
    refine ⟨h.registry.rowId _ hrow, rfl, ?_, ?_, id, fun hs => ?_⟩
    · rcases hpending with hs | hs <;> simp [hs]
    · rcases hpending with hs | hs <;> simp [hs]
    · rcases hpending with hp | hp <;> simp [hp] at hs
  | report =>
    obtain ⟨row, hrow, hcopy⟩ := h.held _ rfl
    exact h.save rfl ⟨row, hrow, hcopy.copy rfl rfl rfl (by simp [TrainingJob.failEligibility])⟩
      (by simp) (by simp) (.inl rfl)
  | leave => exact h.move (by simp) (by simp) (by simp) (by simp [WorkerPhase.held])

theorem TrainingInv.initial (hnew : s.row jobId = none) (hidle : s.worker = .idle) :
    TrainingInv jobId s := by
  refine ⟨.none hnew, ?_, ?_, ?_, ?_⟩ <;> simp [hidle, WorkerPhase.held]

/-- **Run lemma.** Along every run the invariant is kept, and a stored row changes by `RowNext`. -/
theorem TrainingInv.run (h : TrainingInv jobId s) {row : JobRow} (hrow : s.row jobId = some row)
    (hrun : Relation.ReflTransGen (TrainingStep jobId) s t) :
    TrainingInv jobId t ∧ ∃ row', t.row jobId = some row' ∧ RowNext row row' :=
  Runs.reflTransGen_view (·.row jobId) RowNext.refl RowNext.trans
    (fun _ _ hs hstep => hs.step hstep) h hrow hrun

/-- A job whose cancellation is requested never succeeds. -/
theorem TrainingInv.never_succeeds (h : TrainingInv jobId s) {row : JobRow}
    (hrow : s.row jobId = some row) (hrequested : row.job.cancelRequested)
    (hrun : Relation.ReflTransGen (TrainingStep jobId) s t) :
    ∃ row', t.row jobId = some row' ∧ row'.job.state ≠ .succeeded := by
  obtain ⟨hinv, row', hrow', hnext⟩ := h.run hrow hrun
  refine ⟨row', hrow', fun hsucceeded => ?_⟩
  have hunrequested := hinv.registry.unrequested row' hrow' hsucceeded
  rw [hnext.requested hrequested] at hunrequested
  cases hunrequested

/-- A `cancel_job` on a job that is not terminal records the request. -/
theorem TrainingInv.cancel_requests (h : TrainingInv jobId s) {row : JobRow}
    (hrow : s.row jobId = some row) (hpending : row.job.pending) {checks : RegistryChecks}
    {identity : Identity} {now : ℤ} {job : TrainingJob} {r' : Registry}
    (hcall : s.registry.cancelJob checks identity jobId now = .ok (job, r')) :
    ∃ row', r'.trainingJobs jobId = some row' ∧ row'.job.cancelRequested := by
  obtain ⟨-, row₁, hrow₁, hcases⟩ := Registry.cancelJob_cases h.registry.rowId hcall
  obtain rfl : row₁ = row := by simpa using hrow₁.symm.trans hrow
  rcases hcases with ⟨hterminal, -⟩ | ⟨-, hrow'⟩
  · exact absurd hpending hterminal
  · refine ⟨_, hrow', ?_⟩
    rw [TrainingJob.merge_of_pending hpending]
    simp

/-- **Terminal training jobs.** In every state that a job's submissions, cancellations and runs lead
    to, the job has succeeded exactly when its model version is registered. From there on, a job that
    has succeeded or was cancelled stays as it is, and a job whose cancellation is requested, as
    `cancel_job` does for every job that is not terminal, never succeeds. -/
theorem trainingJobs_terminal {s₀ : TrainingSystem} (hnew : s₀.row jobId = none)
    (hidle : s₀.worker = .idle) (hs : Relation.ReflTransGen (TrainingStep jobId) s₀ s)
    {row : JobRow} (hrow : s.row jobId = some row) :
    (row.job.state = .succeeded ↔ s.Registered row) ∧
      (∀ t, Relation.ReflTransGen (TrainingStep jobId) s t →
        ∃ row', t.row jobId = some row' ∧
          (row.job.state = .cancelled → row' = row) ∧
          (row.job.state = .succeeded → row' = row) ∧
          (row.job.cancelRequested → row'.job.state ≠ .succeeded)) ∧
      ∀ checks identity now job r', row.job.pending →
        s.registry.cancelJob checks identity jobId now = .ok (job, r') →
          ∀ t, Relation.ReflTransGen (TrainingStep jobId) ⟨r', s.worker⟩ t →
            ∃ row', t.row jobId = some row' ∧ row'.job.state ≠ .succeeded := by
  have hinv : TrainingInv jobId s := Runs.reflTransGen_of_invariant
    (fun _ _ h hstep => (h.step hstep).1) (.initial hnew hidle) hs
  refine ⟨hinv.registry.registered row hrow, fun t hrun => ?_,
    fun checks identity now job r' hpending hcall t hrun => ?_⟩
  · obtain ⟨-, row', hrow', hnext⟩ := hinv.run hrow hrun
    refine ⟨row', hrow', fun h => hnext.terminal (.inr h), fun h => hnext.terminal (.inl h),
      fun hrequested => ?_⟩
    obtain ⟨row'', hrow'', hstate⟩ := hinv.never_succeeds hrow hrequested hrun
    obtain rfl : row'' = row' := by simpa using hrow''.symm.trans hrow'
    exact hstate
  · obtain ⟨row', hrow', hrequested⟩ := hinv.cancel_requests hrow hpending hcall
    have hcancelled := (hinv.step (.cancel (w := s.worker) hcall)).1
    exact hcancelled.never_succeeds hrow' hrequested hrun

end Invariant

/-! A job that is cancelled while it is queued. -/

namespace CancelledJob

/-- An operator of the tenant. -/
def operator : Identity :=
  { subjectIdPseudonymous := some "operator", keyClass := .operator, datasetTenants := ["acme"] }

/-- The job that is submitted. -/
def specification : TrainingJobSpecification :=
  { jobId := "job", datasetId := "tickets", datasetVersion := "1" }

/-- Checks that accept everything. -/
def checks : RegistryChecks :=
  { identifier := fun _ => true
    verifyMetadata := fun _ => true
    verifyArtifact := fun _ => true
    verifyReport := fun _ => true
    gatesPass := fun _ => true
    progressionGate := none
    benchmarkGate := none }

/-- The job as it is queued. -/
def queued : TrainingJob := .new specification "deterministic-fake-adapter-v1" "v1"

/-- The registry after the submission. -/
def submitted : Registry :=
  (({} : Registry).saveJobRow queued ["acme"]).setSubmitter operator "job"

/-- The registry after the cancellation. -/
def cancelled : Registry :=
  submitted.saveJobOutcome checks (Registry.requestCancel queued 7) ["acme"]

end CancelledJob

open CancelledJob in
theorem cancelledJob_unregistered :
    ¬TrainingSystem.Registered ⟨cancelled, .idle⟩ ⟨["acme"], Registry.requestCancel queued 7⟩ := by
  have henqueue : ({} : Registry).enqueueJob operator
      (.new specification "deterministic-fake-adapter-v1" "v1") ["acme"] =
        .ok (queued, submitted) := by rfl
  have hcancel : submitted.cancelJob checks operator "job" 7 =
      .ok (Registry.requestCancel queued 7, cancelled) := by rfl
  have hreached : Relation.ReflTransGen (TrainingStep "job") ⟨{}, .idle⟩ ⟨cancelled, .idle⟩ :=
    .tail (.single (.enqueue rfl rfl henqueue)) (.cancel hcancel)
  have hstored : TrainingSystem.row ⟨cancelled, .idle⟩ "job" =
      some ⟨["acme"], Registry.requestCancel queued 7⟩ := by rfl
  rw [← (trainingJobs_terminal rfl rfl hreached hstored).1]
  decide

end AdaptiveLlm
