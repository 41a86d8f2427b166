import AdaptiveLlm.Training.TerminalJobs

set_option autoImplicit false

/-! # Retries of failed jobs

A retry takes the failed row over as it is, its `cancel_requested` too. The worker cancels a job only
where `check` or `complete` has met that flag, and nothing but `cancel_job` sets it: so a retry of a
job that was never asked to cancel goes on until somebody asks, and a retry of one that was can be
cancelled at once, for a request to the attempt before.

The flag is part of the row, and a retry keeps the row but for its state. So the question whether an
old request can cancel the retry is answered by the stored flag at the moment of the retry, in both
directions: with the flag down no step but `cancel_job` raises it, and with the flag up the next
check of the run meets it. -/

namespace AdaptiveLlm

/-! ## The steps -/

/-- A step in which `training_cancelled`, when it ends a run, was raised where it is raised: by `check`
    or by `complete`, on a job whose row has the request. -/
structure CheckedStep (jobId : String) (s t : TrainingSystem) : Prop where
  step : TrainingStep jobId s t
  checked : ∀ job job', s.worker = .training job → t.worker = .failing job' "training_cancelled" →
    ∃ row, s.row jobId = some row ∧ row.job.cancelRequested = true

/-- A call of `cancel_job` for the job commits. -/
def CancelCall (jobId : String) (s t : TrainingSystem) : Prop :=
  t.worker = s.worker ∧ ∃ checks identity now job,
    s.registry.cancelJob checks identity jobId now = .ok (job, t.registry)

/-- A step that is no such call. -/
structure QuietStep (jobId : String) (s t : TrainingSystem) : Prop
    extends CheckedStep jobId s t where
  quiet : ¬CancelCall jobId s t

/-! ## Cancelled on request

The flag in the row is raised by `cancel_job` alone. A copy in the worker's hands may know of it or
not, but it never has a flag that the row has not. -/

/-- The row is cancelled, or the worker about to cancel it, on request only. -/
structure RequestInv (jobId : String) (s : TrainingSystem) : Prop extends TrainingInv jobId s where
  rowRequested : ∀ row, s.row jobId = some row → row.job.state = .cancelled →
    row.job.cancelRequested = true
  copyRequested : ∀ job code, s.worker = .failing job code → job.state = .cancelled →
    ∃ row, s.row jobId = some row ∧ row.job.cancelRequested = true

section Fail

variable {j : TrainingJob} {code : String} {now : ℤ}

/-- A run is cancelled by one error alone. -/
theorem TrainingJob.fail_cancelled (h : (j.fail code now).state = .cancelled) :
    code = "training_cancelled" := by
  unfold TrainingJob.fail at h
  by_contra hne
  simp only [if_neg hne] at h
  split at h <;> cases h

@[simp] theorem TrainingJob.fail_cancelRequested :
    (j.fail code now).cancelRequested = j.cancelRequested := rfl

end Fail

section Steps

variable {jobId : String} {s t : TrainingSystem} {row row' : JobRow}

/-- What a save of the worker's copy does to the request: nothing, the row knows all the copy does. -/
theorem HeldCopy.merge_requested {j : TrainingJob} (h : HeldCopy jobId row j) :
    (row.job.merge j).cancelRequested = row.job.cancelRequested := by
  unfold TrainingJob.merge
  split
  · rfl
  · cases hj : j.cancelRequested with
    | false => simp
    | true => simp [h.requested hj]

/-- What a save of the worker's copy does to the state. -/
theorem TrainingJob.merge_cancelled {old j : TrainingJob} (h : (old.merge j).state = .cancelled) :
    old.state = .cancelled ∨ j.state = .cancelled := by
  unfold TrainingJob.merge at h
  split at h
  · exact .inl h
  · exact .inr h

/-- A step on the row as far as cancellation goes: who sets the request, and what cancels. -/
structure CancellationStep (jobId : String) (s t : TrainingSystem) (row row' : JobRow) : Prop where
  requested : row'.job.cancelRequested = true →
    row.job.cancelRequested = true ∨ CancelCall jobId s t
  cancelled : row'.job.state = .cancelled →
    row.job.state = .cancelled ∨ row'.job.cancelRequested = true ∨
      ∃ job code, s.worker = .failing job code ∧ job.state = .cancelled

theorem CancellationStep.refl (row : JobRow) : CancellationStep jobId s t row row := ⟨.inl, .inl⟩

/-- A save of a copy that the worker holds. -/
theorem cancellationStep_save {j : TrainingJob} {checks : RegistryChecks} {tenants : List String}
    (hregistry : t.registry = s.registry.saveJob checks j tenants) (hrow : s.row jobId = some row)
    (h : HeldCopy jobId row j) (hstate : j.state = .cancelled →
      ∃ job code, s.worker = .failing job code ∧ job.state = .cancelled) :
    ∃ row', t.row jobId = some row' ∧ CancellationStep jobId s t row row' := by
  refine ⟨⟨row.tenantIds, row.job.merge j⟩, ?_, fun hr => .inl (h.merge_requested ▸ hr), fun hs => ?_⟩
  · rw [TrainingSystem.row, hregistry]
    exact Registry.saveJob_row checks h.jobId hrow tenants
  · exact (TrainingJob.merge_cancelled hs).imp_right fun hj => .inr (hstate hj)

/-- Every step on a stored row is one. -/
theorem RequestInv.cancellationStep (h : RequestInv jobId s) (hstep : TrainingStep jobId s t)
    (hrow : s.row jobId = some row) :
    ∃ row', t.row jobId = some row' ∧ CancellationStep jobId s t row row' := by
  have hkeep : t.row jobId = s.row jobId → ∃ row', t.row jobId = some row' ∧
      CancellationStep jobId s t row row' := fun hsame => ⟨row, hsame.trans hrow, .refl row⟩
  have hheld : ∀ job, s.worker.held = some job → HeldCopy jobId row job := by
    intro job hjob
    obtain ⟨row₁, hrow₁, hcopy⟩ := h.held job hjob
    obtain rfl : row₁ = row := by simpa using hrow₁.symm.trans hrow
    exact hcopy
  cases hstep with
  | enqueue hid hfresh hcall =>
    obtain ⟨-, hcases⟩ := Registry.enqueueJob_cases hcall
    subst hid
    rcases hcases with ⟨hnone, -⟩ | ⟨row₁, hrow₁, -, hrow'⟩ | ⟨hsame, -⟩
    · exact absurd (hnone.symm.trans hrow) (by simp)
    · obtain rfl : row₁ = row := by simpa using hrow₁.symm.trans hrow
      exact ⟨_, hrow', ⟨.inl, fun hs => by cases hs⟩⟩
    · exact hkeep (congrFun hsame _)
  | @cancel checks r r' w identity now job hcall =>
    obtain ⟨-, row₁, hrow₁, hcases⟩ := Registry.cancelJob_cases h.registry.rowId hcall
    obtain rfl : row₁ = row := by simpa using hrow₁.symm.trans hrow
    have hcancel : CancelCall jobId ⟨r, w⟩ ⟨r', w⟩ := ⟨rfl, checks, identity, now, job, hcall⟩
    rcases hcases with ⟨-, hsame⟩ | ⟨hpending, hrow'⟩
    · exact ⟨row₁, (congrArg (fun r : Registry => r.trainingJobs jobId) hsame).trans hrow, .refl row₁⟩
    · refine ⟨_, hrow', fun _ => .inr hcancel, fun _ => .inr (.inl ?_)⟩
      rw [TrainingJob.merge_of_pending hpending]
      simp
  | other hrow' hversions => exact hkeep hrow'
  | claim | refuse | load | loadNew | fail | failComplete | reread | leave => exact hkeep rfl
  | create => exact absurd rfl (h.notCreating _)
  | start =>
    exact cancellationStep_save rfl hrow ((hheld _ rfl).copy rfl rfl rfl
      (by simp [TrainingJob.start])) fun hs => by
        simp [TrainingJob.start] at hs
  | checkpoint =>
    have hrunning := h.running _ rfl
    exact cancellationStep_save rfl hrow ((hheld _ rfl).copy rfl rfl rfl
      (by simp [TrainingJob.checkpoint, hrunning])) fun hs => by
        simp [TrainingJob.checkpoint, hrunning] at hs
  | complete hversion hcall =>
    have hcopy := hheld _ rfl
    obtain ⟨hrequested, hrow', -⟩ :=
      Registry.complete_eq_ok (show (TrainingJob.succeed ..).jobId = jobId from hcopy.jobId) hrow hcall
    exact ⟨_, hrow', fun hr => .inl (hcopy.requested hr), fun hs => by simp [TrainingJob.succeed] at hs⟩
  | @saveFailure checks r job code tenants =>
    exact cancellationStep_save rfl hrow (hheld _ rfl) fun hs => ⟨job, code, rfl, hs⟩
  | report =>
    exact cancellationStep_save rfl hrow ((hheld _ rfl).copy rfl rfl rfl
      (by simp [TrainingJob.failEligibility])) fun hs => by
        simp [TrainingJob.failEligibility] at hs

/-- A job that is not stored is stored queued. -/
theorem RequestInv.new_row (h : RequestInv jobId s) (hstep : TrainingStep jobId s t)
    (hnone : s.row jobId = none) (hrow' : t.row jobId = some row') : row'.job.state ≠ .cancelled := by
  have hkeep : t.row jobId ≠ s.row jobId := fun hsame => by
    rw [hsame, hnone] at hrow'
    cases hrow'
  have hheld : s.worker.held = none := by
    refine Option.eq_none_iff_forall_ne_some.2 fun job hjob => ?_
    obtain ⟨row, hrow, -⟩ := h.held job hjob
    exact absurd (hnone.symm.trans hrow) (by simp)
  cases hstep with
  | enqueue hid hfresh hcall =>
    obtain ⟨-, hcases⟩ := Registry.enqueueJob_cases hcall
    subst hid
    rcases hcases with ⟨-, hnew⟩ | ⟨row, hrow, -⟩ | ⟨hsame, -⟩
    · obtain rfl := Option.some.inj (hnew.symm.trans hrow')
      simp [TrainingJob.new]
    · exact absurd (hnone.symm.trans hrow) (by simp)
    · exact absurd (congrFun hsame _) hkeep
  | cancel hcall =>
    obtain ⟨-, row, hrow, -⟩ := Registry.cancelJob_cases h.registry.rowId hcall
    exact absurd (hnone.symm.trans hrow) (by simp)
  | other hsame hversions => exact absurd hsame hkeep
  | claim | refuse | load | loadNew | fail | failComplete | reread | leave => exact absurd rfl hkeep
  | create => exact absurd rfl (h.notCreating _)
  | start | checkpoint | complete | saveFailure | report => cases hheld

/-- **Step lemma.** -/
theorem RequestInv.step (h : RequestInv jobId s) (hstep : CheckedStep jobId s t) :
    RequestInv jobId t := by
  obtain ⟨hinv, hnext⟩ := h.toTrainingInv.step hstep.step
  have hmono : (∃ row, s.row jobId = some row ∧ row.job.cancelRequested = true) →
      ∃ row', t.row jobId = some row' ∧ row'.job.cancelRequested = true := by
    rintro ⟨row, hrow, hrequested⟩
    obtain ⟨row', hrow', hnext⟩ := hnext row hrow
    exact ⟨row', hrow', hnext.requested hrequested⟩
  refine ⟨hinv, fun row' hrow' hcancelled => ?_, fun job code hworker hcancelled => ?_⟩
  · have hunique : (∃ x, t.row jobId = some x ∧ x.job.cancelRequested = true) →
        row'.job.cancelRequested = true := by
      rintro ⟨x, hx, hrequested⟩
      obtain rfl := Option.some.inj (hx.symm.trans hrow')
      exact hrequested
    cases hrow : s.row jobId with
    | none => exact absurd hcancelled (h.new_row hstep.step hrow hrow')
    | some row =>
      obtain ⟨x, hx, hc⟩ := h.cancellationStep hstep.step hrow
      obtain rfl := Option.some.inj (hx.symm.trans hrow')
      rcases hc.cancelled hcancelled with hold | hrequested | ⟨job, code, hworker, hjob⟩
      · exact hunique (hmono ⟨row, hrow, h.rowRequested row hrow hold⟩)
      · exact hrequested
      · exact hunique (hmono (h.copyRequested job code hworker hjob))
  · obtain ⟨hstep, hchecked⟩ := hstep
    cases hstep with
    | enqueue | cancel | other => exact hmono (h.copyRequested job code hworker hcancelled)
    | claim | refuse | load | loadNew | create | start | checkpoint | complete | saveFailure
    | reread | report | leave => cases hworker
    | @fail r j error now =>
      cases hworker
      have hcode := TrainingJob.fail_cancelled hcancelled
      exact hchecked j _ rfl (by rw [hcode])
    | @failComplete r j usage artifactRef artifactDigest error now =>
      cases hworker
      have hcode := TrainingJob.fail_cancelled hcancelled
      exact hchecked j _ rfl (by rw [hcode])

theorem RequestInv.initial (hnew : s.row jobId = none) (hidle : s.worker = .idle) :
    RequestInv jobId s := by
  refine ⟨.initial hnew hidle, ?_, ?_⟩ <;> simp [hnew, hidle]

/-- **Run lemma.** While nobody asks to cancel it, a job that has no request has none, and is not
    cancelled. -/
theorem RequestInv.unrequested (h : RequestInv jobId s) {row : JobRow} (hrow : s.row jobId = some row)
    (hrequested : row.job.cancelRequested = false)
    (hrun : Relation.ReflTransGen (QuietStep jobId) s t) :
    ∃ row', t.row jobId = some row' ∧ row'.job.cancelRequested = false ∧
      row'.job.state ≠ .cancelled := by
  have hkeep : ∀ s t : TrainingSystem,
      (RequestInv jobId s ∧ ∃ row, s.row jobId = some row ∧ row.job.cancelRequested = false) →
      QuietStep jobId s t →
      RequestInv jobId t ∧ ∃ row, t.row jobId = some row ∧ row.job.cancelRequested = false := by
    rintro s t ⟨h, row, hrow, hrequested⟩ hstep
    obtain ⟨row', hrow', hc⟩ := h.cancellationStep hstep.step hrow
    refine ⟨h.step hstep.toCheckedStep, row', hrow', Bool.eq_false_iff.2 fun hr => ?_⟩
    rcases hc.requested hr with hold | hcancel
    · rw [hrequested] at hold
      cases hold
    · exact hstep.quiet hcancel
  obtain ⟨hinv, row', hrow', hrequested'⟩ :=
    Runs.reflTransGen_of_invariant hkeep ⟨h, row, hrow, hrequested⟩ hrun
  refine ⟨row', hrow', hrequested', fun hcancelled => ?_⟩
  rw [hinv.rowRequested row' hrow' hcancelled] at hrequested'
  cases hrequested'

/-- A move of the worker is no call of `cancel_job`. -/
theorem quietStep_of_ne (hstep : TrainingStep jobId s t) (hworker : t.worker ≠ s.worker)
    (hchecked : ∀ job job', s.worker = .training job →
      t.worker = .failing job' "training_cancelled" →
        ∃ row, s.row jobId = some row ∧ row.job.cancelRequested = true) : QuietStep jobId s t :=
  ⟨⟨hstep, hchecked⟩, fun hcancel => hworker hcancel.1⟩

/-- A queued job with a request is cancelled by the next run of the worker, though nobody asks again:
    `check` finds the request. -/
theorem RequestInv.requested (checks : RegistryChecks) (h : RequestInv jobId s)
    (hrow : s.row jobId = some row)
    (hqueued : row.job.state = .queued) (hrequested : row.job.cancelRequested = true) :
    ∃ t, Relation.ReflTransGen (QuietStep jobId) s t ∧
      ∃ row', t.row jobId = some row' ∧ row'.job.state = .cancelled := by
  obtain ⟨r, w⟩ := s
  have hid : row.job.jobId = jobId := h.registry.rowId row hrow
  have hleave : Relation.ReflTransGen (QuietStep jobId) ⟨r, w⟩ ⟨r, .idle⟩ := by
    by_cases hidle : w = .idle
    · rw [hidle]
    · exact .single (quietStep_of_ne .leave (Ne.symm hidle) (by simp))
  let started := row.job.start 0
  let running := r.saveJob checks started []
  let failed := started.fail (failureCode (some "training_cancelled")) 0
  let saved := running.saveJob checks failed []
  have hrunning : running.trainingJobs jobId = some ⟨row.tenantIds, row.job.merge started⟩ :=
    Registry.saveJob_row checks (show started.jobId = jobId from hid) hrow []
  have hmerged : (row.job.merge started).cancelRequested = true ∧
      (row.job.merge started).state = .running := by
    rw [TrainingJob.merge_of_pending (.inl hqueued)]
    simp [hrequested, started, TrainingJob.start]
  have hsaved : saved.trainingJobs jobId =
      some ⟨row.tenantIds, (row.job.merge started).merge failed⟩ :=
    Registry.saveJob_row checks (show failed.jobId = jobId from hid) hrunning []
  have hclaim : QuietStep jobId ⟨r, .idle⟩ ⟨r, .claimed⟩ :=
    quietStep_of_ne (.claim hrow (.inl hqueued)) (by simp) (by simp)
  have hload : QuietStep jobId ⟨r, .claimed⟩ ⟨r, .loaded row.job⟩ :=
    quietStep_of_ne (.load hrow (by simp [hqueued]) (by simp [hqueued])) (by simp) (by simp)
  have hstart : QuietStep jobId ⟨r, .loaded row.job⟩ ⟨running, .training started⟩ :=
    quietStep_of_ne .start (by simp) (by simp)
  have hfail : QuietStep jobId ⟨running, .training started⟩
      ⟨running, .failing failed (failureCode (some "training_cancelled"))⟩ :=
    quietStep_of_ne .fail (by simp) fun _ _ _ _ => ⟨_, hrunning, hmerged.1⟩
  have hsave : QuietStep jobId ⟨running, .failing failed (failureCode (some "training_cancelled"))⟩
      ⟨saved, .raised (failureCode (some "training_cancelled"))⟩ :=
    quietStep_of_ne .saveFailure (by simp) (by simp)
  refine ⟨_, ((((hleave.tail hclaim).tail hload).tail hstart).tail hfail).tail hsave, _, hsaved, ?_⟩
  rw [TrainingJob.merge_of_pending (.inr hmerged.2)]
  rfl

/-! ## The retry -/

/-- **A retry is safe from an old request exactly when there is none.** For a failed job, reached by
    any run from the first submission on, that `enqueue` queues again: whatever follows without a call
    of `cancel_job`, the job is never cancelled, if and only if its row had no request when it was
    queued again. -/
theorem retry_uncancelled_iff {s₀ : TrainingSystem} (hnew : s₀.row jobId = none)
    (hidle : s₀.worker = .idle) (hs : Relation.ReflTransGen (CheckedStep jobId) s₀ s)
    (hrow : s.row jobId = some row) (hfailed : row.job.state = .failed) {identity : Identity}
    {specification : TrainingJobSpecification} {architecture version : String}
    {tenants : List String} {job : TrainingJob} {r' : Registry}
    (hid : specification.jobId = jobId) (hfresh : s.registry.modelVersions version = none)
    (hcall : s.registry.enqueueJob identity (.new specification architecture version) tenants =
      .ok (job, r')) :
    (∀ t, Relation.ReflTransGen (QuietStep jobId) ⟨r', s.worker⟩ t →
      ∀ row', t.row jobId = some row' → row'.job.state ≠ .cancelled) ↔
        row.job.cancelRequested = false := by
  have hinv : RequestInv jobId s :=
    Runs.reflTransGen_of_invariant (fun _ _ h hstep => h.step hstep) (.initial hnew hidle) hs
  have henqueue : TrainingStep jobId s ⟨r', s.worker⟩ := .enqueue hid hfresh hcall
  have hinv' : RequestInv jobId ⟨r', s.worker⟩ :=
    hinv.step ⟨henqueue, fun _ _ htraining hfailing => by
      rw [show s.worker = _ from htraining] at hfailing
      cases hfailing⟩
  have hrow' : TrainingSystem.row ⟨r', s.worker⟩ jobId = some ⟨row.tenantIds, { row.job with
      state := .queued, failureCode := none, completedAt := none }⟩ := by
    obtain ⟨-, hcases⟩ := Registry.enqueueJob_cases hcall
    subst hid
    rcases hcases with ⟨hnone, -⟩ | ⟨row₁, hrow₁, -, hrow'⟩ | ⟨-, row₁, hrow₁, hlive⟩
    · exact absurd (hnone.symm.trans hrow) (by simp)
    · obtain rfl := Option.some.inj (hrow₁.symm.trans hrow)
      exact hrow'
    · obtain rfl := Option.some.inj (hrow₁.symm.trans hrow)
      exact absurd hfailed hlive
  constructor
  · intro hnever
    by_contra hrequested
    obtain ⟨t, hrun, row', hrow', hcancelled⟩ :=
      hinv'.requested CancelledJob.checks hrow' rfl (Bool.not_eq_false _ ▸ hrequested)
    exact hnever t hrun row' hrow' hcancelled
  · intro hrequested t hrun x hx
    obtain ⟨row', ht, -, hstate⟩ := hinv'.unrequested hrow' hrequested hrun
    obtain rfl := Option.some.inj (ht.symm.trans hx)
    exact hstate

end Steps

namespace FailedJob

open CancelledJob

/-- The error that the trainer raises. -/
def code : String := "training_memory_limit"

/-- The copy of the job in its first run. -/
def running : TrainingJob := queued.start 1

/-- The job that failed with it. -/
def failed : TrainingJob := running.fail code 3

/-- The registry during the run, with a request to cancel it or not. -/
def atWork (asked : Bool) : Registry :=
  let r := submitted.saveJob checks running ["acme"]
  if asked then r.saveJobOutcome checks (Registry.requestCancel running 2) ["acme"] else r

/-- The registry after the run has failed. -/
def afterFailure (asked : Bool) : Registry :=
  (atWork asked).saveJob checks failed ["acme"]

/-- Its row, with the request to cancel or without. -/
def failedRow (asked : Bool) : JobRow :=
  ⟨["acme"], { failed with cancelRequested := asked }⟩

/-- The registry after the retry. -/
def retried (asked : Bool) : Registry :=
  ((afterFailure asked).saveJobRow
    { (failedRow asked).job with state := .queued, failureCode := none, completedAt := none }
    ["acme"]).setSubmitter operator "job"

theorem failedRow_stored (asked : Bool) :
    TrainingSystem.row ⟨afterFailure asked, .idle⟩ "job" = some (failedRow asked) := by
  cases asked <;> rfl

theorem enqueue_retries (asked : Bool) : ∃ job, (afterFailure asked).enqueueJob operator
    (.new specification "deterministic-fake-adapter-v1" "v2") ["acme"] = .ok (job, retried asked) := by
  cases asked <;> exact ⟨_, rfl⟩

/-- The first run, up to the request. -/
theorem reached_training : Relation.ReflTransGen (CheckedStep "job") ⟨{}, .idle⟩
    ⟨atWork false, .training running⟩ := by
  have hcall : ({} : Registry).enqueueJob operator
      (.new specification "deterministic-fake-adapter-v1" "v1") ["acme"] = .ok (queued, submitted) := rfl
  have hstored : submitted.trainingJobs "job" = some ⟨["acme"], queued⟩ := rfl
  have henqueue : CheckedStep "job" ⟨{}, .idle⟩ ⟨submitted, .idle⟩ :=
    ⟨.enqueue rfl rfl hcall, by simp⟩
  have hclaim : CheckedStep "job" ⟨submitted, .idle⟩ ⟨submitted, .claimed⟩ :=
    ⟨.claim hstored (.inl rfl), by simp⟩
  have hload : CheckedStep "job" ⟨submitted, .claimed⟩ ⟨submitted, .loaded queued⟩ :=
    ⟨.load hstored (by decide) (by decide), by simp⟩
  have hstart : CheckedStep "job" ⟨submitted, .loaded queued⟩ ⟨atWork false, .training running⟩ :=
    ⟨@TrainingStep.start _ checks submitted queued ["acme"] 1, by simp⟩
  exact (((Relation.ReflTransGen.single henqueue).tail hclaim).tail hload).tail hstart

/-- A request to cancel, or none. -/
theorem reached_asked (asked : Bool) : Relation.ReflTransGen (CheckedStep "job") ⟨{}, .idle⟩
    ⟨atWork asked, .training running⟩ := by
  cases asked with
  | false => exact reached_training
  | true =>
    have hcall : (atWork false).cancelJob checks operator "job" 2 =
        .ok (Registry.requestCancel running 2, atWork true) := rfl
    exact reached_training.tail ⟨.cancel hcall, by simp⟩

/-- The run fails for want of memory. -/
theorem reached (asked : Bool) : Relation.ReflTransGen (CheckedStep "job") ⟨{}, .idle⟩
    ⟨afterFailure asked, .idle⟩ := by
  have hfail : CheckedStep "job" ⟨atWork asked, .training running⟩
      ⟨atWork asked, .failing failed code⟩ :=
    ⟨@TrainingStep.fail _ _ _ (some code) 3, by simp [code]⟩
  have hsave : CheckedStep "job" ⟨atWork asked, .failing failed code⟩
      ⟨afterFailure asked, .raised code⟩ :=
    ⟨@TrainingStep.saveFailure _ checks (atWork asked) failed code ["acme"], by simp⟩
  have hleave : CheckedStep "job" ⟨afterFailure asked, .raised code⟩ ⟨afterFailure asked, .idle⟩ :=
    ⟨.leave, by simp⟩
  exact (((reached_asked asked).tail hfail).tail hsave).tail hleave

end FailedJob

open FailedJob CancelledJob in
/-- A run that was asked to cancel fails for want of memory; the operator retries it, asks for nothing
    more, and the job is cancelled. -/
theorem stale_cancellation : Relation.ReflTransGen (CheckedStep "job") ⟨{}, .idle⟩
      ⟨afterFailure true, .idle⟩ ∧
    TrainingSystem.row ⟨afterFailure true, .idle⟩ "job" = some (failedRow true) ∧
    (failedRow true).job.state = .failed ∧
    (∃ job, (afterFailure true).enqueueJob operator
      (.new specification "deterministic-fake-adapter-v1" "v2") ["acme"] = .ok (job, retried true)) ∧
    ∃ t, Relation.ReflTransGen (QuietStep "job") ⟨retried true, .idle⟩ t ∧
      ∃ row, t.row "job" = some row ∧ row.job.state = .cancelled := by
  obtain ⟨job, hcall⟩ := enqueue_retries true
  have hinv : RequestInv "job" ⟨afterFailure true, .idle⟩ := Runs.reflTransGen_of_invariant
    (fun _ _ h hstep => h.step hstep) (.initial rfl rfl) (reached true)
  have hinv' := hinv.step ⟨.enqueue rfl rfl hcall, by simp⟩
  exact ⟨reached true, failedRow_stored true, rfl, ⟨job, hcall⟩, hinv'.requested checks rfl rfl rfl⟩

open FailedJob in
theorem unasked_retry_uncancelled :
    (∀ t, Relation.ReflTransGen (QuietStep "job") ⟨retried false, .idle⟩ t →
      ∀ row, t.row "job" = some row → row.job.state ≠ .cancelled) ↔
        (failedRow false).job.cancelRequested = false := by
  obtain ⟨job, hcall⟩ := enqueue_retries false
  exact retry_uncancelled_iff rfl rfl (reached false) (failedRow_stored false) rfl rfl rfl hcall

end AdaptiveLlm
