import AdaptiveLlm.Training.Retries

set_option autoImplicit false

/-! # Who fails a retried job

The worker reports a failed run in two transactions: `_run` saves the failure, then `work_once` reads
the job again and fails it when it finds it pending, as a failure from before the trainer's own handler
would leave it. Between the two an operator may retry the job, which is pending then: the report of the
run before is taken for a failure of the retry.

`FailureInv` says where the worker is when a stored job has failed, and what it will do next. A run
that has raised is followed by one re-read, whose answer decides what is reported. The retry of an
idle worker is failed by later runs only, since nothing is left to be reported; a retry that comes
between the save and the re-read is met by the re-read. -/

namespace AdaptiveLlm

/-- A call of `enqueue` queues the failed job again. -/
def RetryCall (jobId : String) (s t : TrainingSystem) : Prop :=
  t.worker = s.worker ∧ ∃ identity specification architecture version tenants job row,
    specification.jobId = jobId ∧ s.registry.modelVersions version = none ∧
    s.row jobId = some row ∧ row.job.state = .failed ∧
    s.registry.enqueueJob identity (.new specification architecture version) tenants =
      .ok (job, t.registry)

/-- The step moves the job to failed. -/
def Fails (jobId : String) (s t : TrainingSystem) : Prop :=
  (∃ row, t.row jobId = some row ∧ row.job.state = .failed) ∧
    ∀ row, s.row jobId = some row → row.job.state ≠ .failed

/-- A step while the worker stays in the `work_once` it is in: it starts no other run. -/
structure InsideStep (jobId : String) (s t : TrainingSystem) : Prop where
  step : TrainingStep jobId s t
  before : s.worker ≠ .idle
  after : t.worker ≠ .idle

/-- From here on the job is failed by runs only that start from here on: no step fails it that the
    worker takes before it leaves the `work_once` it may be in. -/
def FailedByLaterRuns (jobId : String) (s : TrainingSystem) : Prop :=
  ∀ t u, Relation.ReflTransGen (InsideStep jobId) s t → TrainingStep jobId t u → ¬Fails jobId t u

/-! ## The steps that fail a job -/

section Steps

variable {jobId : String} {s t : TrainingSystem} {row' : JobRow}

theorem RetryCall.step (h : RetryCall jobId s t) : TrainingStep jobId s t := by
  obtain ⟨r, w⟩ := s
  obtain ⟨r', w'⟩ := t
  obtain ⟨rfl, identity, specification, architecture, version, tenants, job, row, hid, hfresh, -, -,
    hcall⟩ := h
  exact .enqueue hid hfresh hcall

/-- A retry leaves the job queued. -/
theorem RetryCall.queued (h : RetryCall jobId s t) :
    ∃ row, t.row jobId = some row ∧ row.job.state = .queued := by
  obtain ⟨-, identity, specification, architecture, version, tenants, job, row, rfl, -, hrow, hfailed,
    hcall⟩ := h
  obtain ⟨-, ⟨hnone, -⟩ | ⟨_, -, -, hrow'⟩ | ⟨-, row₁, hrow₁, hlive⟩⟩ := Registry.enqueueJob_cases hcall
  · exact absurd (hnone.symm.trans hrow) (by simp)
  · exact ⟨_, hrow', rfl⟩
  · obtain rfl := Option.some.inj (hrow₁.symm.trans hrow)
    exact absurd hfailed hlive

/-- A save that leaves a job failed found it failed, or saves a failure. -/
theorem TrainingJob.merge_failed {old j : TrainingJob} (h : (old.merge j).state = .failed) :
    old.state = .failed ∨ j.state = .failed := by
  unfold TrainingJob.merge at h
  split at h
  · exact .inl h
  · exact .inr h

/-- How a job comes to be failed after a step: it was before, or the worker saves a failure, its run's
    or its report of one. -/
inductive FailedBy (jobId : String) (s t : TrainingSystem) : Prop
  | before (row : JobRow) (stored : s.row jobId = some row) (failed : row.job.state = .failed)
  | run (job : TrainingJob) (code : String) (worker : s.worker = .failing job code)
      (failed : job.state = .failed) (after : t.worker = .raised code)
  | report (job : TrainingJob) (worker : s.worker = .reporting job) (after : t.worker = .idle)

theorem failedBy_save {j : TrainingJob} {checks : RegistryChecks} {tenants : List String}
    (hregistry : t.registry = s.registry.saveJob checks j tenants) (hid : j.jobId = jobId)
    {row : JobRow} (hrow : s.row jobId = some row) (hrow' : t.row jobId = some row')
    (hfailed : row'.job.state = .failed) : row.job.state = .failed ∨ j.state = .failed := by
  rw [TrainingSystem.row, hregistry, Registry.saveJob_row checks hid hrow tenants] at hrow'
  cases hrow'
  exact TrainingJob.merge_failed hfailed

theorem TrainingInv.failedBy (h : TrainingInv jobId s) (hstep : TrainingStep jobId s t)
    (hrow' : t.row jobId = some row') (hfailed : row'.job.state = .failed) : FailedBy jobId s t := by
  cases hstep with
  | enqueue hid hfresh hcall =>
    subst hid
    obtain ⟨-, ⟨hnone, hnew⟩ | ⟨row, hrow, hold, -⟩ | ⟨hsame, -⟩⟩ := Registry.enqueueJob_cases hcall
    · obtain rfl := Option.some.inj (hnew.symm.trans hrow')
      exact absurd hfailed (by simp [TrainingJob.new])
    · exact .before row hrow hold
    · exact .before row' ((congrFun hsame _).symm.trans hrow') hfailed
  | cancel hcall =>
    obtain ⟨-, row, hrow, ⟨-, hsame⟩ | ⟨hpending, hnew⟩⟩ := Registry.cancelJob_cases h.registry.rowId hcall
    · subst hsame
      exact .before row' hrow' hfailed
    · obtain rfl := Option.some.inj (hnew.symm.trans hrow')
      rw [TrainingJob.merge_of_pending hpending] at hfailed
      simp only [Registry.requestCancel_state] at hfailed
      split at hfailed
      · cases hfailed
      · exact .before row hrow hfailed
  | other hsame => exact .before row' (hsame.symm.trans hrow') hfailed
  | claim | refuse | load | loadNew | fail | failComplete | reread | leave =>
    exact .before row' hrow' hfailed
  | create => exact absurd rfl (h.notCreating _)
  | start =>
    obtain ⟨row, hrow, hcopy⟩ := h.held _ rfl
    rcases @failedBy_save jobId _ _ _ (TrainingJob.start _ _) _ _ rfl hcopy.jobId row hrow hrow' hfailed
      with hold | hj
    · exact .before row hrow hold
    · exact absurd hj (by simp [TrainingJob.start])
  | checkpoint =>
    obtain ⟨row, hrow, hcopy⟩ := h.held _ rfl
    rcases @failedBy_save jobId _ _ _ (TrainingJob.checkpoint _ _) _ _ rfl hcopy.jobId row hrow hrow'
      hfailed with hold | hj
    · exact .before row hrow hold
    · exact absurd hj (by simp [TrainingJob.checkpoint, h.running _ rfl])
  | complete hversion hcall =>
    obtain ⟨row, hrow, hcopy⟩ := h.held _ rfl
    obtain ⟨-, hnew, -⟩ :=
      Registry.complete_eq_ok (show (TrainingJob.succeed ..).jobId = jobId from hcopy.jobId) hrow hcall
    obtain rfl := Option.some.inj (hnew.symm.trans hrow')
    exact absurd hfailed (by simp [TrainingJob.succeed])
  | @saveFailure checks r job code tenants =>
    obtain ⟨row, hrow, hcopy⟩ := h.held _ rfl
    rcases failedBy_save rfl hcopy.jobId hrow hrow' hfailed with hold | hj
    · exact .before row hrow hold
    · exact .run job code rfl hj rfl
  | report => exact .report _ rfl rfl

/-! ## Where the worker stands

Between the saved failure and the re-read the worker has a code in its hand and no copy of the job.
This is the only place from which it fails a job that it has not run. -/

/-- A code with which `work_once` goes on to read the job again. -/
def Rereads (code : String) : Prop := code ≠ "training_shutdown" ∧ code ≠ "training_job_running"

/-- While the job is failed no run of it is on: the worker is idle, or about to report the failure it
    has saved. -/
structure FailureInv (jobId : String) (s : TrainingSystem) : Prop extends TrainingInv jobId s where
  ended : ∀ row, s.row jobId = some row → row.job.state = .failed →
    s.worker = .idle ∨ ∃ code, s.worker = .raised code ∧ Rereads code
  rereads : ∀ job code, s.worker = .failing job code → job.state = .failed → Rereads code

/-- The code of a run that fails, other than by a shutdown or a request. -/
theorem rereads_of_fail {j : TrainingJob} {error : Option String} {now : ℤ}
    (h : (j.fail (failureCode error) now).state = .failed) : Rereads (failureCode error) := by
  constructor
  · intro hcode
    rw [hcode] at h
    simp [TrainingJob.fail] at h
  · unfold failureCode
    cases error with
    | none => decide
    | some code =>
      dsimp only
      split
      · next hmem =>
        rintro rfl
        exact absurd hmem (by decide)
      · decide

/-- **Step lemma.** -/
theorem FailureInv.step (h : FailureInv jobId s) (hstep : TrainingStep jobId s t) :
    FailureInv jobId t := by
  refine ⟨(h.toTrainingInv.step hstep).1, fun row' hrow' hfailed => ?_, fun job code hworker hjob => ?_⟩
  · cases h.failedBy hstep hrow' hfailed with
    | before row hrow hold =>
      obtain ⟨r, w⟩ := s
      have hlive : ∀ x, r.trainingJobs jobId = some x → ¬x.job.pending := by
        intro x hx hpending
        obtain rfl := Option.some.inj (hx.symm.trans hrow)
        rcases hpending with hp | hp <;> rw [hp] at hold <;> cases hold
      -- a worker that is over with its run stays so: the job is not pending
      rcases h.ended row hrow hold with rfl | ⟨code, rfl, hcode⟩
      · cases hstep with
        | enqueue | cancel | other | leave => exact .inl rfl
        | claim hrow hpending => exact absurd hpending (hlive _ hrow)
        | refuse hpasses => exact hpasses.elim
      · cases hstep with
        | enqueue | cancel | other => exact .inr ⟨code, rfl, hcode⟩
        | leave => exact .inl rfl
        | reread _ _ hrow hpending => exact absurd hpending (hlive _ hrow)
        | refuse hpasses => exact hpasses.elim
    | run job code hworker hjob hafter => exact .inr ⟨code, hafter, h.rereads job code hworker hjob⟩
    | report job hworker hafter => exact .inl hafter
  · cases hstep with
    | enqueue | cancel | other => exact h.rereads job code hworker hjob
    | claim | refuse | load | loadNew | create | start | checkpoint | complete | saveFailure
    | reread | report | leave => cases hworker
    | fail | failComplete =>
      cases hworker
      exact rereads_of_fail hjob

theorem FailureInv.initial (hnew : s.row jobId = none) (hidle : s.worker = .idle) :
    FailureInv jobId s := by
  refine ⟨.initial hnew hidle, ?_, ?_⟩ <;> simp [hnew, hidle]

/-! ## The retry -/

/-- A report that is about to be made fails the job. -/
theorem FailureInv.reported (h : FailureInv jobId s) (checks : RegistryChecks) {code : String}
    (hworker : s.worker = .raised code) (hcode : Rereads code) {row : JobRow}
    (hrow : s.row jobId = some row) (hqueued : row.job.state = .queued) :
    ∃ t u, Relation.ReflTransGen (InsideStep jobId) s t ∧ TrainingStep jobId t u ∧ Fails jobId t u := by
  obtain ⟨r, w⟩ := s
  obtain rfl : w = .raised code := hworker
  have hreread : InsideStep jobId ⟨r, .raised code⟩ ⟨r, .reporting row.job⟩ :=
    ⟨.reread hcode.1 hcode.2 hrow (.inl hqueued), by simp, by simp⟩
  have hsaved := Registry.saveJob_row checks
    (show (row.job.failEligibility 0).jobId = jobId from h.registry.rowId row hrow) hrow []
  refine ⟨_, _, .single hreread, @TrainingStep.report jobId checks r row.job [] 0,
    ⟨_, hsaved, ?_⟩, fun x hx => ?_⟩
  · rw [TrainingJob.merge_of_pending (.inl hqueued)]
    rfl
  · obtain rfl := Option.some.inj (hx.symm.trans hrow)
    simp [hqueued]

/-- No run of the worker is on: no step fails the job. -/
theorem FailureInv.later_of_idle (h : FailureInv jobId s) (hidle : s.worker = .idle) :
    FailedByLaterRuns jobId s := by
  intro t u hrun hstep hfails
  have hsame : t = s := by
    rcases hrun.cases_head with rfl | ⟨_, hfirst, _⟩
    · rfl
    · exact absurd hidle hfirst.before
  subst hsame
  obtain ⟨⟨row', hrow', hfailed⟩, hbefore⟩ := hfails
  cases h.failedBy hstep hrow' hfailed with
  | before row hrow hold => exact hbefore row hrow hold
  | run job code hworker => cases hidle.symm.trans hworker
  | report job hworker => cases hidle.symm.trans hworker

/-- **A retried job is failed by its own run, if the worker has no failure to report.** Wherever
    submissions, retries, cancellations and runs lead, a job that `enqueue` queues again after a
    failure is failed only by a run that starts afterwards if and only if the worker was idle when it
    was queued again. Else the worker is between the save of the failure and the re-read of the job
    in `work_once`: the re-read then sees the job queued, and the report of the run before fails the
    retry. -/
theorem failedByLaterRuns_iff {s₀ : TrainingSystem} (hnew : s₀.row jobId = none)
    (hidle : s₀.worker = .idle) (hs : Relation.ReflTransGen (TrainingStep jobId) s₀ s)
    (hretry : RetryCall jobId s t) : FailedByLaterRuns jobId t ↔ s.worker = .idle := by
  have hinv : FailureInv jobId s :=
    Runs.reflTransGen_of_invariant (fun _ _ h hstep => h.step hstep) (.initial hnew hidle) hs
  have hinv' := hinv.step hretry.step
  constructor
  · intro hlater
    by_contra hbusy
    obtain ⟨row', hrow', hqueued⟩ := hretry.queued
    obtain ⟨hworker, _, _, _, _, _, _, row, -, -, hrow, hfailed, -⟩ := hretry
    rcases hinv.ended row hrow hfailed with h | ⟨code, hraised, hcode⟩
    · exact hbusy h
    · obtain ⟨t', u, hrun, hstep, hfails⟩ :=
        hinv'.reported CancelledJob.checks (hworker.trans hraised) hcode hrow' hqueued
      exact hlater t' u hrun hstep hfails
  · exact fun h => hinv'.later_of_idle (hretry.1.trans h)

end Steps

open FailedJob CancelledJob in
theorem retryCall_failedJob (w : WorkerPhase) :
    RetryCall "job" ⟨afterFailure false, w⟩ ⟨retried false, w⟩ := by
  obtain ⟨job, hcall⟩ := enqueue_retries false
  exact ⟨rfl, operator, specification, _, "v2", ["acme"], job, _, rfl, rfl, failedRow_stored false, rfl,
    hcall⟩

open FailedJob in
/-- The job is retried when its failure is saved and not yet reported. -/
theorem reported_retry : ¬∀ (jobId : String) (s₀ s t : TrainingSystem), s₀.row jobId = none →
    s₀.worker = .idle → Relation.ReflTransGen (TrainingStep jobId) s₀ s → RetryCall jobId s t →
      FailedByLaterRuns jobId t := by
  intro hclaim
  have hfail : TrainingStep "job" ⟨atWork false, .training running⟩ ⟨atWork false, .failing failed code⟩ :=
    @TrainingStep.fail _ _ _ (some code) 3
  have hsave : TrainingStep "job" ⟨atWork false, .failing failed code⟩
      ⟨afterFailure false, .raised code⟩ :=
    @TrainingStep.saveFailure _ CancelledJob.checks (atWork false) failed code ["acme"]
  have htraining : Relation.ReflTransGen (TrainingStep "job") ⟨{}, .idle⟩
      ⟨atWork false, .training running⟩ :=
        Relation.ReflTransGen.mono (fun _ _ h => h.step) _ _ reached_training
  have hreached := (htraining.tail hfail).tail hsave
  have hinv : FailureInv "job" ⟨afterFailure false, .raised code⟩ :=
    Runs.reflTransGen_of_invariant (fun _ _ h hstep => h.step hstep) (.initial rfl rfl) hreached
  have hretry := retryCall_failedJob (.raised code)
  obtain ⟨row', hrow', hqueued⟩ := hretry.queued
  obtain ⟨t, u, hrun, hstep, hfails⟩ := (hinv.step hretry.step).reported CancelledJob.checks rfl
    ⟨by decide, by decide⟩ hrow' hqueued
  exact hclaim "job" _ _ _ rfl rfl hreached hretry t u hrun hstep hfails

open FailedJob in
theorem idle_retry : FailedByLaterRuns "job" ⟨retried false, .idle⟩ :=
  (failedByLaterRuns_iff rfl rfl (Relation.ReflTransGen.mono (fun _ _ h => h.step) _ _ (reached false))
    (retryCall_failedJob .idle)).2 rfl

end AdaptiveLlm
