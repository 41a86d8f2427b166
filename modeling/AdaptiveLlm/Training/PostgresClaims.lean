import AdaptiveLlm.Lib.Locks
import AdaptiveLlm.Training.RetryFailures

set_option autoImplicit false

/-! # The claim of a PostgreSQL worker

`PostgresModelRegistry.worker_claim` locks the row of the job's submitter on a connection of its own
until `work_once` leaves the block, while the registry calls of the worker and of the API threads take
turns on one connection, under `database.lock`. A transaction takes the advisory lock after
`database.lock`, so within a process nobody waits for it. `enqueue` writes the submitter's row when it
makes a job or queues a failed one again, and the second write waits for the row's lock, with
`database.lock` held.

The system is the one of the worker beside the API, seen from one job, with the locks around each
call: what a call does happens when its transaction commits.

A deadlock here needs two resources and two waiters: the row lock of the claim, which the worker
holds, and `database.lock`, which a thread of the API holds while its update waits for the row. The
worker waits for `database.lock` only with the row's lock in its hands. Whether the thread ever
waits depends on what `enqueue` finds, so the condition is about the moments at which a retry comes
to its update. -/

namespace AdaptiveLlm

/-! ## The worker's calls -/

/-- The worker moves on without a registry call. -/
inductive WorkerMove : TrainingSystem → TrainingSystem → Prop
  | refuse {r : Registry} {w : WorkerPhase} {code : String} :
      w.passesErrors → WorkerMove ⟨r, w⟩ ⟨r, .raised code⟩
  | fail {r : Registry} {job : TrainingJob} {error : Option String} {now : ℤ} :
      WorkerMove ⟨r, .training job⟩
        ⟨r, .failing (job.fail (failureCode error) now) (failureCode error)⟩
  | failComplete {r : Registry} {job : TrainingJob} {usage : ResourceUsage}
      {artifactRef artifactDigest : String} {error : Option String} {now : ℤ} :
      WorkerMove ⟨r, .training job⟩
        ⟨r, .failing ((job.succeed usage artifactRef artifactDigest now).fail (failureCode error) now)
          (failureCode error)⟩
  | leave {r : Registry} {w : WorkerPhase} : WorkerMove ⟨r, w⟩ ⟨r, .idle⟩

/-- A registry call of a run ends. -/
inductive WorkerCall (jobId : String) : TrainingSystem → TrainingSystem → Prop
  -- it fails, or what it returns ends the run
  | move {s t : TrainingSystem} : s.worker ≠ .idle → WorkerMove s t → WorkerCall jobId s t
  -- the other reads, of `check` and `_eligible`
  | read {s : TrainingSystem} : s.worker ≠ .idle → WorkerCall jobId s s
  | load {r : Registry} {row : JobRow} :
      r.trainingJobs jobId = some row → row.job.state ≠ .succeeded → row.job.state ≠ .cancelled →
      WorkerCall jobId ⟨r, .claimed⟩ ⟨r, .loaded row.job⟩
  | loadNew {r : Registry} {specification : TrainingJobSpecification}
      {architecture version : String} :
      r.trainingJobs jobId = none → specification.jobId = jobId →
      WorkerCall jobId ⟨r, .claimed⟩ ⟨r, .creating (.new specification architecture version)⟩
  | create {checks : RegistryChecks} {r : Registry} {job : TrainingJob} {tenants : List String} :
      WorkerCall jobId ⟨r, .creating job⟩ ⟨r.saveJob checks job tenants, .loaded job⟩
  | start {checks : RegistryChecks} {r : Registry} {job : TrainingJob} {tenants : List String}
      {now : ℤ} :
      WorkerCall jobId ⟨r, .loaded job⟩
        ⟨r.saveJob checks (job.start now) tenants, .training (job.start now)⟩
  | checkpoint {checks : RegistryChecks} {r : Registry} {job : TrainingJob} {tenants : List String}
      {reference : String} :
      WorkerCall jobId ⟨r, .training job⟩
        ⟨r.saveJob checks (job.checkpoint reference) tenants, .training (job.checkpoint reference)⟩
  | complete {checks : RegistryChecks} {r r' : Registry} {job : TrainingJob}
      {usage : ResourceUsage} {artifactRef artifactDigest : String} {now : ℤ}
      {manifest : ModelManifest} {architecture : String} :
      manifest.version = job.modelVersion →
      r.complete checks (job.succeed usage artifactRef artifactDigest now) manifest architecture =
        .ok r' →
      WorkerCall jobId ⟨r, .training job⟩ ⟨r', .idle⟩
  | saveFailure {checks : RegistryChecks} {r : Registry} {job : TrainingJob} {code : String}
      {tenants : List String} :
      WorkerCall jobId ⟨r, .failing job code⟩ ⟨r.saveJob checks job tenants, .raised code⟩
  | reread {r : Registry} {row : JobRow} {code : String} :
      code ≠ "training_shutdown" → code ≠ "training_job_running" →
      r.trainingJobs jobId = some row → row.job.pending →
      WorkerCall jobId ⟨r, .raised code⟩ ⟨r, .reporting row.job⟩
  | report {checks : RegistryChecks} {r : Registry} {job : TrainingJob} {tenants : List String}
      {now : ℤ} :
      WorkerCall jobId ⟨r, .reporting job⟩
        ⟨r.saveJob checks (job.failEligibility now) tenants, .idle⟩

/-! ## The system with its locks -/

/-- The arguments of `enqueue` for the job; `uid()` has given it the version. -/
structure EnqueueCall where
  identity : Identity
  specification : TrainingJobSpecification
  architecture : String
  version : String
  tenants : List String

/-- A call that takes `database.lock`. -/
inductive LockedCall where
  | enqueue (call : EnqueueCall)
  | cancel (checks : RegistryChecks) (identity : Identity) (now : ℤ)
  | job
  /-- of the worker's run of the job -/
  | run
  /-- any call that is about other rows -/
  | other

/-- Where a thread stands with a registry call. -/
inductive CallPlace where
  | outside
  /-- at `with self.lock` -/
  | waiting (call : LockedCall)
  | inside (call : LockedCall)
  /-- at the `INSERT` of `enqueue` that updates the submitter's row -/
  | upserting (call : EnqueueCall)

/-- The places that need `database.lock`. -/
def CallPlace.locked : CallPlace → Bool
  | .inside _ | .upserting _ => true
  | _ => false

/-- The call a thread is in. -/
def CallPlace.call : CallPlace → Option LockedCall
  | .outside => none
  | .waiting call | .inside call => some call
  | .upserting c => some (.enqueue c)

/-- The worker is the thread `none`. -/
structure PostgresSystem (τ : Type) where
  training : TrainingSystem := {}
  place : Option τ → CallPlace := fun _ => .outside
  /-- of `database.lock` -/
  holder : Option (Option τ) := none
  /-- the worker is in the block of its claim of the job, and has the lock of the submitter's row -/
  claims : Bool := false

namespace PostgresSystem

variable {τ : Type} [DecidableEq τ]

/-- The thread moves. -/
def move (s : PostgresSystem τ) (t : Option τ) (place : CallPlace) : PostgresSystem τ :=
  { s with place := Function.update s.place t place }

/-- The thread leaves its call, and the system is as the call leaves it. -/
def leave (s : PostgresSystem τ) (t : Option τ) (training : TrainingSystem) : PostgresSystem τ :=
  { s with training, place := Function.update s.place t .outside, holder := none }

end PostgresSystem

open PostgresSystem in
/-- One step of a thread or of the worker on PostgreSQL. -/
inductive PostgresStep {τ : Type} [DecidableEq τ] (jobId : String) :
    PostgresSystem τ → PostgresSystem τ → Prop
  -- a thread calls; the worker for the run of the job it claimed, or outside the block
  | call {s : PostgresSystem τ} {t : τ} {call : LockedCall} :
      s.place (some t) = .outside → PostgresStep jobId s (s.move (some t) (.waiting call))
  | callRun {s : PostgresSystem τ} :
      s.place none = .outside → s.training.worker ≠ .idle →
      PostgresStep jobId s (s.move none (.waiting .run))
  | callOther {s : PostgresSystem τ} :
      s.place none = .outside → s.claims = false →
      PostgresStep jobId s (s.move none (.waiting .other))
  | acquire {s : PostgresSystem τ} {t : Option τ} {call : LockedCall} :
      s.place t = .waiting call → s.holder = none →
      PostgresStep jobId s { s.move t (.inside call) with holder := some t }
  -- it reads only, or it fails and is rolled back
  | return {s : PostgresSystem τ} {t : Option τ} {call : LockedCall} :
      s.place t = .inside call → PostgresStep jobId s (s.leave t s.training)
  | other {s : PostgresSystem τ} {t : Option τ} {r' : Registry} :
      s.place t = .inside .other →
      r'.trainingJobs jobId = s.training.registry.trainingJobs jobId →
      (∀ row, s.training.registry.trainingJobs jobId = some row →
        (r'.modelVersions row.job.modelVersion).isSome =
          (s.training.registry.modelVersions row.job.modelVersion).isSome) →
      PostgresStep jobId s (s.leave t { s.training with registry := r' })
  | cancel {s : PostgresSystem τ} {t : τ} {checks : RegistryChecks} {identity : Identity} {now : ℤ}
      {job : TrainingJob} {r' : Registry} :
      s.place (some t) = .inside (.cancel checks identity now) →
      s.training.registry.cancelJob checks identity jobId now = .ok (job, r') →
      PostgresStep jobId s (s.leave (some t) { s.training with registry := r' })
  -- `enqueue` of a job that is not failed: it inserts the submitter's row or leaves it
  | enqueue {s : PostgresSystem τ} {t : τ} {c : EnqueueCall} {job : TrainingJob} {r' : Registry} :
      s.place (some t) = .inside (.enqueue c) → c.specification.jobId = jobId →
      s.training.registry.modelVersions c.version = none →
      s.training.registry.enqueueJob c.identity (.new c.specification c.architecture c.version)
        c.tenants = .ok (job, r') →
      (∀ row, s.training.row jobId = some row → row.job.state ≠ .failed) →
      PostgresStep jobId s (s.leave (some t) { s.training with registry := r' })
  -- of a failed job: it comes to the update, and when it has the row's lock it commits
  | upsert {s : PostgresSystem τ} {t : τ} {c : EnqueueCall} {row : JobRow} :
      s.place (some t) = .inside (.enqueue c) → c.specification.jobId = jobId →
      s.training.row jobId = some row → row.job.state = .failed →
      PostgresStep jobId s (s.move (some t) (.upserting c))
  | retry {s : PostgresSystem τ} {t : τ} {c : EnqueueCall} {job : TrainingJob} {r' : Registry} :
      s.place (some t) = .upserting c → s.claims = false → c.specification.jobId = jobId →
      s.training.registry.modelVersions c.version = none →
      s.training.registry.enqueueJob c.identity (.new c.specification c.architecture c.version)
        c.tenants = .ok (job, r') →
      PostgresStep jobId s (s.leave (some t) { s.training with registry := r' })
  -- the worker: the claim reads what is committed and takes the row's lock when it is free
  | claim {s : PostgresSystem τ} {row : JobRow} :
      s.place none = .outside → s.claims = false → s.training.worker = .idle →
      s.training.row jobId = some row → row.job.pending →
      PostgresStep jobId s { s with training := { s.training with worker := .claimed }, claims := true }
  | run {s : PostgresSystem τ} {training : TrainingSystem} :
      s.place none = .inside .run → WorkerCall jobId s.training training →
      PostgresStep jobId s (s.leave none training)
  | work {s : PostgresSystem τ} {training : TrainingSystem} :
      s.place none = .outside → WorkerMove s.training training →
      PostgresStep jobId s { s with training }
  | release {s : PostgresSystem τ} :
      s.place none = .outside → s.training.worker = .idle →
      PostgresStep jobId s { s with claims := false }

/-! ## The locks

Who waits for whom is read off the places of the two parties. They wait for each other in one
constellation only, and `ClaimInv` says how it is come to. -/

/-- The worker waits for `database.lock`, its holder for the row that the worker has locked. -/
def PostgresSystem.Deadlocked {τ : Type} (s : PostgresSystem τ) : Prop :=
  s.place none = .waiting .run ∧ s.claims = true ∧
    ∃ t c, s.holder = some (some t) ∧ s.place (some t) = .upserting c

/-- A retry of the job comes to its update while the worker is about to read the job again, with the
    failure of its run saved. -/
def RetryInReport {τ : Type} (s s' : PostgresSystem τ) : Prop :=
  ∃ t c code, s.place (some t) = .inside (.enqueue c) ∧ s'.place (some t) = .upserting c ∧
    s.training.worker = .raised code

theorem WorkerMove.step {jobId : String} {s t : TrainingSystem} (h : WorkerMove s t) :
    TrainingStep jobId s t := by
  cases h with
  | refuse hpasses => exact .refuse hpasses
  | fail => exact .fail
  | failComplete => exact .failComplete
  | leave => exact .leave

/-- What a call of a run does is what the worker beside the API does, or nothing. -/
theorem WorkerCall.step {jobId : String} {s t : TrainingSystem} (h : WorkerCall jobId s t) :
    TrainingStep jobId s t ∨ t = s := by
  cases h with
  | move _ hmove => exact .inl hmove.step
  | read => exact .inr rfl
  | load hrow hsucceeded hcancelled => exact .inl (.load hrow hsucceeded hcancelled)
  | loadNew hnone hid => exact .inl (.loadNew hnone hid)
  | create => exact .inl .create
  | start => exact .inl .start
  | checkpoint => exact .inl .checkpoint
  | complete hversion hcall => exact .inl (.complete hversion hcall)
  | saveFailure => exact .inl .saveFailure
  | reread hshutdown hrunning hrow hpending => exact .inl (.reread hshutdown hrunning hrow hpending)
  | report => exact .inl .report

theorem WorkerCall.working {jobId : String} {s t : TrainingSystem} (h : WorkerCall jobId s t) :
    s.worker ≠ .idle := by
  cases h with
  | move hworker => exact hworker
  | read hworker => exact hworker
  | _ => simp

/-- A move leaves the registry, and an idle worker idle. -/
theorem WorkerMove.frame {s t : TrainingSystem} (h : WorkerMove s t) :
    t.registry = s.registry ∧ (s.worker = .idle → t.worker = .idle) := by
  cases h with
  | refuse hpasses =>
    refine ⟨rfl, fun hidle => ?_⟩
    obtain rfl : _ = WorkerPhase.idle := hidle
    exact hpasses.elim
  | fail | failComplete => exact ⟨rfl, fun hidle => by cases hidle⟩
  | leave => exact ⟨rfl, fun _ => rfl⟩

section Steps

variable {τ : Type} [DecidableEq τ] {jobId : String} {s s' : PostgresSystem τ}

/-- **Refinement.** Without its locks a step is one of the worker beside the API, or none. -/
theorem PostgresStep.training (h : PostgresStep jobId s s') :
    TrainingStep jobId s.training s'.training ∨ s'.training = s.training := by
  cases h with
  | call | callRun | callOther | acquire | «return» | upsert | release => exact .inr rfl
  | other _ hrow hversions => exact .inl (.other hrow hversions)
  | cancel _ hcall => exact .inl (.cancel hcall)
  | enqueue _ hid hfresh hcall => exact .inl (.enqueue hid hfresh hcall)
  | retry _ _ hid hfresh hcall => exact .inl (.enqueue hid hfresh hcall)
  | @claim row _ _ hidle hrow hpending =>
    obtain ⟨⟨r, w⟩, place, holder, claims⟩ := s
    obtain rfl : w = .idle := hidle
    exact .inl (.claim hrow hpending)
  | run _ hcall => exact hcall.step
  | work _ hmove => exact .inl hmove.step

/-- What holds in every reached state: the threads beyond `database.lock` are its holder alone, the
    job is failed only while its run is over, the worker's run is inside the block of its claim, and its
    calls are those of the run or from outside the block. -/
structure ClaimInv (jobId : String) (s : PostgresSystem τ) : Prop where
  guards : Locks.Guards s.holder CallPlace.locked s.place
  failure : FailureInv jobId s.training
  claims : s.training.worker ≠ .idle → s.claims = true
  calls : ∀ call, (s.place none).call = some call →
    call = .run ∧ s.training.worker ≠ .idle ∨ call = .other ∧ s.claims = false

@[simp] theorem PostgresSystem.move_place (s : PostgresSystem τ) (t : Option τ) (place : CallPlace) :
    (s.move t place).place = Function.update s.place t place := rfl

@[simp] theorem PostgresSystem.leave_place (s : PostgresSystem τ) (t : Option τ)
    (training : TrainingSystem) :
    (s.leave t training).place = Function.update s.place t .outside := rfl

/-- A thread that leaves its call is in none, the others are in theirs. -/
theorem PostgresSystem.leave_call {t : Option τ} {training : TrainingSystem} {call : LockedCall}
    (h : ((s.leave t training).place none).call = some call) : (s.place none).call = some call := by
  rw [leave_place] at h
  by_cases heq : (none : Option τ) = t
  · subst heq
    rw [Function.update_self] at h
    cases h
  · rwa [Function.update_of_ne heq] at h

/-- Who is at an update after a thread has moved elsewhere was there before. -/
theorem upserting_of_update {t : τ} {c : EnqueueCall} {t' : Option τ} {place : CallPlace}
    (h : Function.update s.place t' place (some t) = .upserting c)
    (hplace : place ≠ .upserting c) : s.place (some t) = .upserting c := by
  by_cases heq : some t = t'
  · subst heq
    rw [Function.update_self] at h
    exact absurd h hplace
  · rwa [Function.update_of_ne heq] at h

/-- A call that ends and leaves the worker where it is. -/
theorem ClaimInv.leave (h : ClaimInv jobId s) {t : Option τ} (hlocked : (s.place t).locked = true)
    {training : TrainingSystem} (hworker : training.worker = s.training.worker)
    (hfailure : FailureInv jobId training) : ClaimInv jobId (s.leave t training) := by
  refine ⟨h.guards.release hlocked rfl, hfailure, ?_, fun call hcall => ?_⟩
  · intro hrun
    exact h.claims fun hidle => hrun (hworker.trans hidle)
  · rcases h.calls call (PostgresSystem.leave_call hcall) with ⟨hcall, hrun⟩ | hother
    · exact .inl ⟨hcall, fun hidle => hrun (hworker.symm.trans hidle)⟩
    · exact .inr hother

/-- A thread of the API that goes on in its call. -/
theorem ClaimInv.move (h : ClaimInv jobId s) {t : τ} {place : CallPlace}
    (hlocked : place.locked = true → (s.place (some t)).locked = true) :
    ClaimInv jobId (s.move (some t) place) := by
  refine ⟨h.guards.keep hlocked, h.failure, h.claims, fun call hcall => h.calls call ?_⟩
  rwa [PostgresSystem.move_place, Function.update_of_ne (by simp)] at hcall

/-- **Step lemma.** -/
theorem ClaimInv.step (h : ClaimInv jobId s) (hstep : PostgresStep jobId s s') :
    ClaimInv jobId s' := by
  have hfailure : FailureInv jobId s'.training := by
    rcases hstep.training with htraining | hsame
    · exact h.failure.step htraining
    · rw [hsame]
      exact h.failure
  have hnone : s.place none = .outside → ∀ {P : LockedCall → Prop} (call : LockedCall),
      (s.place none).call = some call → P call := by
    intro houtside P call hcall
    rw [houtside] at hcall
    cases hcall
  cases hstep with
  | call houtside => exact h.move fun hlocked => by cases hlocked
  | callRun houtside hrun =>
    refine ⟨h.guards.keep fun hlocked => (by cases hlocked), hfailure, h.claims, fun call hcall => ?_⟩
    rw [PostgresSystem.move_place, Function.update_self] at hcall
    exact .inl ⟨(Option.some.inj hcall).symm, hrun⟩
  | callOther houtside hclaims =>
    refine ⟨h.guards.keep fun hlocked => (by cases hlocked), hfailure, h.claims, fun call hcall => ?_⟩
    rw [PostgresSystem.move_place, Function.update_self] at hcall
    exact .inr ⟨(Option.some.inj hcall).symm, hclaims⟩
  | @acquire t call hwaiting hfree =>
    refine ⟨(hfree ▸ h.guards).acquire, hfailure, h.claims, fun call' hcall => h.calls call' ?_⟩
    simp only [PostgresSystem.move_place] at hcall
    by_cases heq : (none : Option τ) = t
    · subst heq
      rw [Function.update_self] at hcall
      rw [hwaiting]
      exact hcall
    · rwa [Function.update_of_ne heq] at hcall
  | «return» hinside => exact h.leave (by rw [hinside]; rfl) rfl hfailure
  | other hinside => exact h.leave (by rw [hinside]; rfl) rfl hfailure
  | cancel hinside => exact h.leave (by rw [hinside]; rfl) rfl hfailure
  | enqueue hinside => exact h.leave (by rw [hinside]; rfl) rfl hfailure
  | retry hupserting => exact h.leave (by rw [hupserting]; rfl) rfl hfailure
  | upsert hinside => exact h.move fun _ => by rw [hinside]; rfl
  | claim houtside =>
    exact ⟨h.guards, hfailure, fun _ => rfl, hnone houtside⟩
  | @run training hinside hcall =>
    refine ⟨h.guards.release (by rw [hinside]; rfl) rfl, hfailure, fun _ => h.claims hcall.working,
      fun call hcall => ?_⟩
    rw [PostgresSystem.leave_place, Function.update_self] at hcall
    cases hcall
  | @work training houtside hmove =>
    exact ⟨h.guards, hfailure, fun hrun => h.claims fun hidle => hrun (hmove.frame.2 hidle),
      hnone houtside⟩
  | release houtside hidle =>
    exact ⟨h.guards, hfailure, fun hrun => absurd hidle hrun, hnone houtside⟩

/-! ## A retry at its update -/

/-- Nobody has come to the update of a retry but for a job whose run is over. -/
structure QuietInv (jobId : String) (s : PostgresSystem τ) : Prop extends ClaimInv jobId s where
  upserting : ∀ t c, s.place (some t) = .upserting c →
    s.training.worker = .idle ∧ ∃ row, s.training.row jobId = some row ∧ row.job.state = .failed

omit [DecidableEq τ] in
theorem QuietInv.not_deadlocked (h : QuietInv jobId s) : ¬s.Deadlocked := by
  rintro ⟨hwaiting, hclaims, t, c, -, hupserting⟩
  have hidle := (h.upserting t c hupserting).1
  rcases h.calls .run (by rw [hwaiting]; rfl) with ⟨-, hrun⟩ | ⟨hother, -⟩
  · exact hrun hidle
  · cases hother

omit [DecidableEq τ] in
/-- Beside a thread beyond `database.lock` nobody is at an update. -/
theorem ClaimInv.alone (h : ClaimInv jobId s) {t : τ} {c : EnqueueCall} {t' : Option τ}
    (hlocked : (s.place t').locked = true) (hupserting : s.place (some t) = .upserting c) :
    some t = t' :=
  h.guards.unique (by rw [hupserting]; rfl) hlocked

theorem ClaimInv.leave_not_upserting (h : ClaimInv jobId s) {t : τ} {c : EnqueueCall} {t' : Option τ}
    {training : TrainingSystem} (hlocked : (s.place t').locked = true) :
    (s.leave t' training).place (some t) ≠ .upserting c := by
  intro hupserting
  rw [PostgresSystem.leave_place] at hupserting
  obtain rfl := h.alone hlocked (upserting_of_update hupserting (by simp))
  rw [Function.update_self] at hupserting
  cases hupserting

/-- **Step lemma.** -/
theorem QuietInv.step (h : QuietInv jobId s) (hstep : PostgresStep jobId s s')
    (hquiet : ¬RetryInReport s s') : QuietInv jobId s' := by
  refine ⟨h.toClaimInv.step hstep, fun t c hupserting => ?_⟩
  cases hstep with
  | call | callRun | callOther | acquire =>
    simp only [PostgresSystem.move_place] at hupserting
    exact h.upserting t c (upserting_of_update hupserting (by simp))
  -- a call that ends had the lock, so nobody was at an update
  | «return» hinside | other hinside | cancel hinside | enqueue hinside | retry hinside | run hinside =>
    exact absurd hupserting (h.leave_not_upserting (by rw [hinside]; rfl))
  | @upsert t' c' row hinside hid hrow hfailed =>
    have hlocked : (s.place (some t')).locked = true := by rw [hinside]; rfl
    by_cases heq : t = t'
    · subst heq
      refine ⟨?_, row, hrow, hfailed⟩
      rcases h.failure.ended row hrow hfailed with hidle | ⟨code, hraised, _⟩
      · exact hidle
      · refine absurd ⟨t, c', code, hinside, ?_, hraised⟩ hquiet
        rw [PostgresSystem.move_place, Function.update_self]
    · rw [PostgresSystem.move_place, Function.update_of_ne (by simpa using heq)] at hupserting
      exact absurd (Option.some.inj (h.alone hlocked hupserting)) heq
  | claim _ _ _ hrow hpending =>
    obtain ⟨-, row, hrow', hfailed⟩ := h.upserting t c hupserting
    obtain rfl := Option.some.inj (hrow.symm.trans hrow')
    rcases hpending with hp | hp <;> rw [hp] at hfailed <;> cases hfailed
  | work _ hmove =>
    obtain ⟨hidle, row, hrow, hfailed⟩ := h.upserting t c hupserting
    refine ⟨hmove.frame.2 hidle, row, ?_, hfailed⟩
    rw [← hrow, TrainingSystem.row, TrainingSystem.row, ← hmove.frame.1]
  | release => exact h.upserting t c hupserting

/-- A retry at its update while the worker is about to read the job again: the worker calls, and the
    two wait for each other. -/
theorem ClaimInv.deadlocked (h : ClaimInv jobId s) (hstep : PostgresStep jobId s s')
    (hretry : RetryInReport s s') :
    ∃ u, Relation.ReflTransGen (PostgresStep jobId) s' u ∧ u.Deadlocked := by
  obtain ⟨t, c, code, hinside, hupserting, hraised⟩ := hretry
  have hholder : s.holder = some (some t) := h.guards (some t) (by rw [hinside]; rfl)
  have hrun : s.training.worker ≠ .idle := by rw [hraised]; simp
  -- such a step is the thread's own, and leaves all else
  obtain rfl : s' = s.move (some t) (.upserting c) := by
    have hkeep : ∀ t' place, Function.update s.place t' place (some t) = .upserting c →
        t' = some t ∧ place = .upserting c := by
      intro t' place hplace
      by_cases heq : some t = t'
      · subst heq
        exact ⟨rfl, by rwa [Function.update_self] at hplace⟩
      · rw [Function.update_of_ne heq, hinside] at hplace
        cases hplace
    cases hstep with
    | call | callRun | callOther | acquire | «return» | other | cancel | enqueue | retry | run =>
      simp only [PostgresSystem.move_place, PostgresSystem.leave_place] at hupserting
      cases (hkeep _ _ hupserting).2
    | upsert =>
      rw [PostgresSystem.move_place] at hupserting
      obtain ⟨ht, hplace⟩ := hkeep _ _ hupserting
      rw [← ht, hplace]
    | claim | work | release => cases hinside.symm.trans hupserting
  cases hplace : s.place none with
  | outside =>
    have hcall : PostgresStep jobId (s.move (some t) (.upserting c))
        ((s.move (some t) (.upserting c)).move none (.waiting .run)) :=
      .callRun (by simpa using hplace) hrun
    refine ⟨_, .single hcall, by simp, h.claims hrun, t, c, hholder, by simp⟩
  | waiting call =>
    rcases h.calls call (by rw [hplace]; rfl) with ⟨rfl, -⟩ | ⟨-, hfree⟩
    · exact ⟨_, .refl, by simpa using hplace, h.claims hrun, t, c, hholder, by simp⟩
    · rw [h.claims hrun] at hfree
      cases hfree
  | inside call | upserting call =>
    -- the thread has the lock
    have hnone := h.guards none (by rw [hplace]; rfl)
    rw [hholder] at hnone
    cases hnone

/-! ## No lock cycle -/

/-- **No lock cycle, unless a retry meets the report.** As long as no retry comes to its update while
    the worker is about to read the job again with the failure of its run saved, the worker never waits
    for `database.lock` held by a thread that waits for the row the worker has locked. A retry that does
    come to its update there leads to such a state. -/
theorem deadlockFree (jobId : String) {s₀ s : PostgresSystem τ}
    (hplaces : ∀ t, s₀.place t = .outside)
    (hidle : s₀.training.worker = .idle) (hnew : s₀.training.row jobId = none) :
    (Relation.ReflTransGen (fun s s' => PostgresStep jobId s s' ∧ ¬RetryInReport s s') s₀ s →
      ¬s.Deadlocked) ∧
    (Relation.ReflTransGen (PostgresStep jobId) s₀ s → ∀ s', PostgresStep jobId s s' →
      RetryInReport s s' → ∃ u, Relation.ReflTransGen (PostgresStep jobId) s' u ∧ u.Deadlocked) := by
  have hinit : QuietInv jobId s₀ := by
    refine ⟨⟨fun t ht => ?_, .initial hnew hidle, fun hrun => absurd hidle hrun, fun call hcall => ?_⟩,
      fun t c hupserting => ?_⟩
    · rw [hplaces] at ht
      cases ht
    · rw [hplaces] at hcall
      cases hcall
    · rw [hplaces] at hupserting
      cases hupserting
  constructor
  · intro hrun
    have hquiet : QuietInv jobId s :=
      Runs.reflTransGen_of_invariant (fun _ _ h hstep => h.step hstep.1 hstep.2) hinit hrun
    exact hquiet.not_deadlocked
  · intro hrun s' hstep hretry
    have hinv : ClaimInv jobId s :=
      Runs.reflTransGen_of_invariant (fun _ _ h hstep => h.step hstep) hinit.toClaimInv hrun
    exact hinv.deadlocked hstep hretry

end Steps

/-! ### The cycle -/

namespace PostgresSystem

/-- One API thread, and nobody in a call. -/
def resting (training : TrainingSystem) (claims : Bool) : PostgresSystem Unit := { training, claims }

/-- The thread has `database.lock` for its call. -/
def entered (training : TrainingSystem) (claims : Bool) (t : Option Unit) (call : LockedCall) :
    PostgresSystem Unit :=
  { ((resting training claims).move t (.waiting call)).move t (.inside call) with holder := some t }

variable {training training' : TrainingSystem} {claims : Bool} {t : Option Unit} {call : LockedCall}

theorem entered_place : (entered training claims t call).place t = .inside call := by
  simp [entered]

theorem entered_leave :
    (entered training claims t call).leave t training' = resting training' claims := by
  unfold entered leave move resting
  simp

/-- A step behind which no API thread is at an update is none of a retry in the report. -/
theorem not_retryInReport {s s' : PostgresSystem Unit} (h : ∀ c, s'.place (some ()) ≠ .upserting c) :
    ¬RetryInReport s s' := fun ⟨_, c, _, _, hupserting, _⟩ => h c hupserting

/-- A step of a run without a retry in the report. -/
def RetryFreeStep (s s' : PostgresSystem Unit) : Prop := PostgresStep "job" s s' ∧ ¬RetryInReport s s'

theorem retryFreeStep_resting {s : PostgresSystem Unit}
    (h : PostgresStep "job" s (resting training claims)) :
    RetryFreeStep s (resting training claims) := ⟨h, not_retryInReport fun _ => nofun⟩

theorem enter_api (call : LockedCall) (t : Unit) : Relation.ReflTransGen RetryFreeStep
    (resting training claims) (entered training claims (some t) call) := by
  refine .tail (.single ⟨.call rfl, not_retryInReport fun c => ?_⟩)
    ⟨.acquire (by simp) rfl, not_retryInReport fun c => ?_⟩
  · rw [move_place, Function.update_self]
    exact nofun
  · rw [entered_place]
    exact nofun

/-- A call of a run, from rest to rest. -/
theorem resting_run (h : WorkerCall "job" training training') :
    Relation.ReflTransGen RetryFreeStep (resting training claims) (resting training' claims) := by
  have hcall : PostgresStep "job" (resting training claims)
      ((resting training claims).move none (.waiting .run)) := .callRun rfl h.working
  have hacquire : PostgresStep "job" ((resting training claims).move none (.waiting .run))
      (entered training claims none .run) := .acquire (by simp) rfl
  have hrun : PostgresStep "job" (entered training claims none .run) (resting training' claims) := by
    rw [← @entered_leave training training' claims none .run]
    exact .run entered_place h
  exact ((Relation.ReflTransGen.single ⟨hcall, not_retryInReport fun _ => nofun⟩).tail
    ⟨hacquire, not_retryInReport fun _ => nofun⟩).tail (retryFreeStep_resting hrun)

end PostgresSystem

open PostgresSystem FailedJob

/-- The operator's call of `enqueue`, first for a new job and then for the failed one. -/
def operatorCall (version : String) : EnqueueCall :=
  { identity := CancelledJob.operator, specification := CancelledJob.specification
    architecture := "deterministic-fake-adapter-v1", version, tenants := ["acme"] }

/-- The job is submitted and claimed, and its run fails for want of memory. -/
theorem reached_report : Relation.ReflTransGen RetryFreeStep (resting {} false)
    (resting ⟨afterFailure false, .raised code⟩ true) := by
  have henqueue : PostgresStep "job" (entered {} false (some ()) (.enqueue (operatorCall "v1")))
      (resting ⟨CancelledJob.submitted, .idle⟩ false) := by
    rw [← @entered_leave {} ⟨CancelledJob.submitted, .idle⟩ false (some ()) (.enqueue (operatorCall "v1"))]
    exact @PostgresStep.enqueue Unit _ "job" _ () (operatorCall "v1") CancelledJob.queued
      CancelledJob.submitted entered_place rfl rfl rfl fun row hrow => by cases hrow
  have hclaim : PostgresStep "job" (resting ⟨CancelledJob.submitted, .idle⟩ false)
      (resting ⟨CancelledJob.submitted, .claimed⟩ true) :=
    @PostgresStep.claim Unit _ "job" _ ⟨["acme"], CancelledJob.queued⟩ rfl rfl rfl rfl (.inl rfl)
  have hload : WorkerCall "job" ⟨CancelledJob.submitted, .claimed⟩
      ⟨CancelledJob.submitted, .loaded CancelledJob.queued⟩ :=
    @WorkerCall.load "job" _ ⟨["acme"], CancelledJob.queued⟩ rfl (by decide) (by decide)
  have hstart : WorkerCall "job" ⟨CancelledJob.submitted, .loaded CancelledJob.queued⟩
      ⟨atWork false, .training running⟩ :=
    @WorkerCall.start "job" CancelledJob.checks CancelledJob.submitted CancelledJob.queued ["acme"] 1
  have hfail : PostgresStep "job" (resting ⟨atWork false, .training running⟩ true)
      (resting ⟨atWork false, .failing failed code⟩ true) :=
    .work rfl (@WorkerMove.fail (atWork false) running (some code) 3)
  have hsave : WorkerCall "job" ⟨atWork false, .failing failed code⟩
      ⟨afterFailure false, .raised code⟩ :=
    @WorkerCall.saveFailure "job" CancelledJob.checks (atWork false) failed code ["acme"]
  exact ((((((enter_api _ ()).tail (retryFreeStep_resting henqueue)).tail
    (retryFreeStep_resting hclaim)).trans
    (resting_run hload)).trans (resting_run hstart)).tail (retryFreeStep_resting hfail)).trans
      (resting_run hsave)

/-- The operator retries the job, and `enqueue` comes to its update. -/
theorem reached_retry : Relation.ReflTransGen (PostgresStep "job") (resting {} false)
      (entered ⟨afterFailure false, .raised code⟩ true (some ()) (.enqueue (operatorCall "v2"))) ∧
    ∃ s', PostgresStep "job"
        (entered ⟨afterFailure false, .raised code⟩ true (some ()) (.enqueue (operatorCall "v2"))) s' ∧
      RetryInReport
        (entered ⟨afterFailure false, .raised code⟩ true (some ()) (.enqueue (operatorCall "v2"))) s' :=
  ⟨Relation.ReflTransGen.mono (fun _ _ h => h.1) _ _ (reached_report.trans (enter_api _ ())), _,
    .upsert entered_place rfl (failedRow_stored false) rfl,
    (), operatorCall "v2", code, entered_place, by simp, rfl⟩

theorem lock_cycle : ¬∀ (τ : Type) [DecidableEq τ] (jobId : String) (s₀ s : PostgresSystem τ),
    (∀ t, s₀.place t = .outside) → s₀.training.worker = .idle → s₀.training.row jobId = none →
      s₀.claims = false → Relation.ReflTransGen (PostgresStep jobId) s₀ s → ¬s.Deadlocked := by
  intro hclaim
  obtain ⟨hreached, s', hstep, hretry⟩ := reached_retry
  have hinit : ClaimInv "job" (resting {} false) := by
    refine ⟨fun t ht => ?_, .initial rfl rfl, fun hrun => absurd rfl hrun, fun call hcall => ?_⟩
    · cases ht
    · cases hcall
  have hinv : ClaimInv "job" (entered ⟨afterFailure false, .raised code⟩ true (some ())
      (.enqueue (operatorCall "v2"))) :=
    Runs.reflTransGen_of_invariant (fun _ _ h hstep => h.step hstep) hinit hreached
  obtain ⟨u, hrun, hdeadlocked⟩ := hinv.deadlocked hstep hretry
  exact hclaim Unit "job" (resting {} false) u (fun _ => rfl) rfl rfl rfl
    ((hreached.tail hstep).trans hrun) hdeadlocked

/-- A worker that has saved its failure and an operator who has not retried the job yet. -/
theorem report_not_deadlocked : ¬(resting ⟨afterFailure false, .raised code⟩ true).Deadlocked :=
  (deadlockFree "job" (fun _ => rfl) rfl rfl).1 reached_report

end AdaptiveLlm
