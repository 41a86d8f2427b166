import AdaptiveLlm.Training.TerminalJobs

set_option autoImplicit false

/-! # Publication of a trained model

A model is published in two places: `_run` (`training/service.py`) renames the working directory to that of
the version, and then `complete` registers it. An exception in between takes the directory back; a process
that ends there leaves it, and retries fail closed on it. The system is that of the worker beside the API,
next to the two directories of the job's version.

Two facts are proved, of which the first needs nothing: a registered model has its directory, with
the registered digest. The converse needs that no process ends at the wrong moment, and the
exception that takes the directory back needs its rename to succeed; both conditions are named in
the theorem. A directory without a model is not repaired by later attempts, they stop at it. -/

namespace AdaptiveLlm

namespace ModelPublication

/-! ## States and steps -/

/-- How far the attempt is that runs. -/
inductive Stage where
  | outside
  /-- in the `try` of `_run`, before it looks for the directory of the version -/
  | entered
  /-- training, or checking what training has left -/
  | working
  /-- behind the rename -/
  | published
  deriving DecidableEq

/-- The registry and the worker, and the exports in the working directory and in that of the version. -/
structure Publication (A : Type) where
  system : TrainingSystem
  stage : Stage := .outside
  working : Option A := none
  destination : Option A := none

/-- The worker is in the `try` of `_run`. -/
def InTry (w : WorkerPhase) : Prop := ∃ job, w = .training job

/-- The row of the job. -/
def Publication.row {A : Type} (p : Publication A) (jobId : String) : Option JobRow := p.system.row jobId

section Step

variable {A : Type} (digest : A → String) (jobId : String)

/-- The steps. The trainer may leave anything in the working directory. -/
inductive Step : Publication A → Publication A → Prop
  /-- a transaction of the API, or a step of the worker outside the `try` -/
  | outside {p : Publication A} {t : TrainingSystem} (step : TrainingStep jobId p.system t)
      (away : t.worker = p.system.worker ∨ ¬InTry p.system.worker ∧ ¬InTry t.worker) :
      Step p { p with system := t }
  | enter {p : Publication A} {t : TrainingSystem} (step : TrainingStep jobId p.system t)
      (before : ¬InTry p.system.worker) (behind : InTry t.worker) :
      Step p { p with system := t, stage := .entered }
  /-- `destination.exists()` is false, and the working directory is there or is made -/
  | prepare {p : Publication A} (a : A) (entered : p.stage = .entered) (free : p.destination = none)
      (kept : ∀ b ∈ p.working, a = b) : Step p { p with stage := .working, working := some a }
  | train {p : Publication A} (a : A) (running : p.stage = .working) : Step p { p with working := some a }
  | checkpoint {p : Publication A} {t : TrainingSystem} (step : TrainingStep jobId p.system t)
      (running : p.stage = .working) (inside : InTry t.worker) : Step p { p with system := t }
  /-- `working.rename(destination)` -/
  | rename {p : Publication A} {a : A} (running : p.stage = .working) (written : p.working = some a) :
      Step p { p with stage := .published, working := none, destination := some a }
  /-- the digest is that of the files which were checked before the rename -/
  | complete {p : Publication A} {job : TrainingJob} {a : A} {checks : RegistryChecks} {r' : Registry}
      {usage : ResourceUsage} {artifactRef : String} {now : ℤ} {manifest : ModelManifest}
      {architecture : String} (published : p.stage = .published) (worker : p.system.worker = .training job)
      (placed : p.destination = some a) (version : manifest.version = job.modelVersion)
      (registered : p.system.registry.complete checks (job.succeed usage artifactRef
        (digest a) now) manifest architecture = .ok r') :
      Step p { p with system := ⟨r', .idle⟩, stage := .outside }
  /-- an exception before the rename; where the directory of the version exists, there is one -/
  | fail {p : Publication A} {t : TrainingSystem} (step : TrainingStep jobId p.system t)
      (inside : InTry p.system.worker) (failing : ∃ job code, t.worker = .failing job code)
      (unpublished : p.stage ≠ .published) : Step p { p with system := t, stage := .outside }
  /-- an exception behind it: `destination.rename(working)` -/
  | takeBack {p : Publication A} {t : TrainingSystem} (step : TrainingStep jobId p.system t)
      (inside : InTry p.system.worker) (failing : ∃ job code, t.worker = .failing job code)
      (published : p.stage = .published) :
      Step p { p with system := t, stage := .outside, working := p.destination, destination := none }
  /-- the worker returns, or its process ends -/
  | leave {p : Publication A} :
      Step p { p with system := { p.system with worker := .idle }, stage := .outside }

end Step

variable {A : Type} {digest : A → String} {jobId : String} {p q : Publication A}

theorem InTry.ne_idle {w : WorkerPhase} (h : InTry w) : w ≠ .idle := by
  obtain ⟨job, rfl⟩ := h
  nofun

theorem ne_idle_of_failing {w : WorkerPhase} (h : ∃ job code, w = .failing job code) : w ≠ .idle := by
  obtain ⟨job, code, rfl⟩ := h
  nofun

/-- A step away from the `try` does not end an attempt. -/
theorem ne_idle_of_away {w w' : WorkerPhase} (h : w' = w ∨ ¬InTry w ∧ ¬InTry w') (hinside : InTry w) :
    w' ≠ .idle := by
  obtain rfl | ⟨hnot, -⟩ := h
  · exact hinside.ne_idle
  · exact absurd hinside hnot

/-- **A refinement**: the steps are those of the worker and the API, or leave these where they are. -/
theorem Step.refines (h : Step digest jobId p q) :
    q.system = p.system ∨ TrainingStep jobId p.system q.system := by
  cases h with
  | outside step | enter step | checkpoint step | fail step | takeBack step => exact .inr step
  | prepare | train | rename => exact .inl rfl
  | @complete job a checks r' usage artifactRef now manifest architecture _ hworker _ hversion hcall =>
    obtain ⟨⟨registry, worker⟩, stage, working, destination⟩ := p
    obtain rfl : worker = .training job := hworker
    exact .inr (.complete hversion hcall)
  | leave => exact .inr .leave

/-! ## Success -/

/-- What a save of an unfinished copy leaves has succeeded only where it had. -/
theorem merge_succeeded {old job : TrainingJob} (hjob : job.state ≠ .succeeded)
    (h : (old.merge job).state = .succeeded) : old.state = .succeeded := by
  unfold TrainingJob.merge at h
  split at h
  · exact h
  · exact absurd h hjob

/-- Only `complete` makes a job succeed: behind any other step, a row that has succeeded is the old one. -/
theorem TrainingStep.row_of_succeeded {s t : TrainingSystem} (hinv : TrainingInv jobId s)
    (h : TrainingStep jobId s t) (hother : InTry s.worker → t.worker ≠ .idle) {row : JobRow}
    (hrow : t.row jobId = some row) (hsucceeded : row.job.state = .succeeded) : s.row jobId = some row := by
  have hterminal : ∀ old, s.row jobId = some old → old.job.state = .succeeded → s.row jobId = some row := by
    intro old hold hstate
    obtain ⟨row', hrow', hnext⟩ := (hinv.step h).2 old hold
    obtain rfl := Option.some.inj (hrow'.symm.trans hrow)
    rw [hold, hnext.terminal (.inl hstate)]
  have hsave : ∀ checks (job : TrainingJob) tenants, (∃ copy, s.worker.held = some copy ∧
      job.jobId = copy.jobId) → job.state ≠ .succeeded →
      t.registry = s.registry.saveJob checks job tenants → s.row jobId = some row := by
    rintro checks job tenants ⟨copy, hcopy, hid⟩ hjob hregistry
    obtain ⟨old, hold, hheld⟩ := hinv.held copy hcopy
    have hsaved := Registry.saveJob_row checks (hid.trans hheld.jobId) hold tenants
    rw [← hregistry] at hsaved
    obtain rfl := Option.some.inj (hsaved.symm.trans hrow)
    exact hterminal old hold (merge_succeeded hjob hsucceeded)
  have hunfinished : ∀ job, s.worker.held = some job → job.state ≠ .succeeded := by
    intro job hjob
    obtain ⟨_, -, hcopy⟩ := hinv.held job hjob
    exact hcopy.copyUnfinished
  cases h with
  | @enqueue r r' w identity specification architecture version tenants job hid _ hcall =>
    obtain ⟨-, hcases⟩ := Registry.enqueueJob_cases hcall
    subst hid
    obtain ⟨-, hnew⟩ | ⟨old, -, -, hagain⟩ | ⟨hsame, -⟩ := hcases
    · obtain rfl := Option.some.inj (hnew.symm.trans hrow)
      cases hsucceeded
    · obtain rfl := Option.some.inj (hagain.symm.trans hrow)
      cases hsucceeded
    · exact (congrFun hsame _).symm.trans hrow
  | @cancel checks r r' w identity now job hcall =>
    obtain ⟨-, old, hold, -⟩ := Registry.cancelJob_cases hinv.registry.rowId hcall
    obtain ⟨-, row', hrow', hstep, -⟩ := api_rowStep (t := ⟨r', w⟩) hinv.registry hold
      (.inr ⟨checks, identity, now, job, hcall⟩)
    obtain rfl := Option.some.inj (hrow'.symm.trans hrow)
    exact hterminal old hold (hstep.succeeded.1 hsucceeded)
  | other hsame => exact hsame.symm.trans hrow
  | create => exact absurd rfl (hinv.notCreating _)
  | @start checks r job tenants now =>
    exact hsave checks (job.start now) tenants ⟨job, rfl, rfl⟩ (by simp [TrainingJob.start]) rfl
  | @checkpoint checks r job tenants reference =>
    exact hsave checks (job.checkpoint reference) tenants ⟨job, rfl, rfl⟩ (hunfinished job rfl) rfl
  | complete => exact absurd rfl (hother ⟨_, rfl⟩)
  | @saveFailure checks r job code tenants =>
    exact hsave checks job tenants ⟨job, rfl, rfl⟩ (hunfinished job rfl) rfl
  | @report checks r job tenants now =>
    exact hsave checks (job.failEligibility now) tenants ⟨job, rfl, rfl⟩
      (by simp [TrainingJob.failEligibility]) rfl
  | claim | refuse | load | loadNew | fail | failComplete | reread | leave => exact hrow

/-! ## The invariant -/

/-- The directories are in step with the registry. -/
structure Sound (digest : A → String) (jobId : String) (p : Publication A) : Prop where
  training : TrainingInv jobId p.system
  inTry : p.stage ≠ .outside → InTry p.system.worker
  free : p.stage = .working → p.destination = none
  succeeded : ∀ row, p.row jobId = some row → row.job.state = .succeeded →
    ∃ a, p.destination = some a ∧ row.job.artifactDigest = some (digest a)

namespace Sound

theorem start {s : TrainingSystem} (hnew : s.row jobId = none) (hidle : s.worker = .idle) :
    Sound digest jobId ({ system := s } : Publication A) where
  training := .initial hnew hidle
  inTry h := absurd rfl h
  free _ := rfl
  succeeded row hrow := by
    rw [Publication.row, hnew] at hrow
    cases hrow

/-- While an attempt is in the `try`, the job has not succeeded. -/
theorem unfinished (h : Sound digest jobId p) (hinside : InTry p.system.worker) {row : JobRow}
    (hrow : p.row jobId = some row) : row.job.state ≠ .succeeded := by
  obtain ⟨job, hworker⟩ := hinside
  obtain ⟨old, hold, hcopy⟩ := h.training.held job (by rw [hworker]; rfl)
  obtain rfl := Option.some.inj (hold.symm.trans hrow)
  exact hcopy.unfinished

/-- Behind a step that is no completion and leaves the directory of the version. -/
theorem registry (h : Sound digest jobId p) {t : TrainingSystem} (hstep : TrainingStep jobId p.system t)
    (hother : InTry p.system.worker → t.worker ≠ .idle) {row : JobRow}
    (hrow : t.row jobId = some row) (hsucceeded : row.job.state = .succeeded) :
    ∃ a, p.destination = some a ∧ row.job.artifactDigest = some (digest a) :=
  h.succeeded row (TrainingStep.row_of_succeeded h.training hstep hother hrow hsucceeded) hsucceeded

/-- **Step lemma.** -/
theorem step (h : Sound digest jobId p) (hstep : Step digest jobId p q) : Sound digest jobId q := by
  have htraining : TrainingInv jobId q.system := by
    obtain hsame | hnext := hstep.refines
    · rw [hsame]
      exact h.training
    · exact (h.training.step hnext).1
  cases hstep with
  | @outside t step away =>
    refine ⟨htraining, fun hstage => ?_, h.free, fun row => h.registry step (ne_idle_of_away away)⟩
    obtain hsame | ⟨hnot, -⟩ := away
    · show InTry t.worker
      rw [hsame]
      exact h.inTry hstage
    · exact absurd (h.inTry hstage) hnot
  | enter step before behind =>
    exact ⟨htraining, fun _ => behind, nofun, fun row => h.registry step fun hinside =>
      absurd hinside before⟩
  | prepare a entered free kept =>
    exact ⟨htraining, fun _ => h.inTry (by simp [entered]), fun _ => free, h.succeeded⟩
  | train a running => exact ⟨htraining, h.inTry, h.free, h.succeeded⟩
  | checkpoint step running inside =>
    exact ⟨htraining, fun _ => inside, h.free, fun row => h.registry step fun _ => inside.ne_idle⟩
  | rename running written =>
    have hinside := h.inTry (by simp [running])
    exact ⟨htraining, fun _ => hinside, nofun, fun row hrow hs => absurd hs (h.unfinished hinside hrow)⟩
  | @complete job a checks r' usage artifactRef now manifest architecture published worker placed version
      registered =>
    refine ⟨htraining, fun hstage => absurd rfl hstage, nofun, fun row hrow _ => ⟨a, placed, ?_⟩⟩
    obtain ⟨old, hold, hcopy⟩ := h.training.held job (by rw [worker]; rfl)
    have hid : (job.succeed usage artifactRef (digest a) now).jobId = jobId := hcopy.jobId
    obtain ⟨-, hrow', -⟩ := Registry.complete_eq_ok hid hold registered
    obtain rfl := Option.some.inj (hrow'.symm.trans hrow)
    rfl
  | fail step inside failing unpublished =>
    exact ⟨htraining, fun hstage => absurd rfl hstage, nofun, fun row =>
      h.registry step fun _ => ne_idle_of_failing failing⟩
  | takeBack step inside failing published =>
    refine ⟨htraining, fun hstage => absurd rfl hstage, nofun, fun row hrow hs => ?_⟩
    have hold := TrainingStep.row_of_succeeded h.training step (fun _ => ne_idle_of_failing failing) hrow hs
    exact absurd hs (h.unfinished inside hold)
  | leave => exact ⟨htraining, fun hstage => absurd rfl hstage, nofun, h.succeeded⟩

theorem run (h : Sound digest jobId p) (hrun : Relation.ReflTransGen (Step digest jobId) p q) :
    Sound digest jobId q :=
  Runs.reflTransGen_of_invariant (fun _ _ hinv hstep => hinv.step hstep) h hrun

theorem registered_iff (h : Sound digest jobId p) {row : JobRow} (hrow : p.row jobId = some row) :
    p.system.Registered row ↔ row.job.state = .succeeded :=
  (h.training.registry.registered row hrow).symm

end Sound

/-! ## A directory in place

With the directory there, an attempt comes to its check and stops. So neither the directory nor its
digest changes any more. -/

/-- What holds from some state on: the directory of the version has these exports, no attempt has it in its
    hands, and the job has succeeded only if it had. -/
structure Fixed (jobId : String) (p : Publication A) (a : A) (q : Publication A) : Prop where
  placed : q.destination = some a
  unpublished : q.stage ≠ .published
  row : ∀ row, q.row jobId = some row → row.job.state = .succeeded → p.row jobId = some row

/-- **Step lemma**: with the directory in place an attempt gets no further than to its check. -/
theorem Fixed.step {a : A} {r : Publication A} (h : Fixed jobId p a q) (hinv : Sound digest jobId q)
    (hstep : Step digest jobId q r) : Fixed jobId p a r := by
  have hworking : q.stage ≠ .working := by
    intro hstage
    cases (hinv.free hstage).symm.trans h.placed
  have hrow : ∀ t, TrainingStep jobId q.system t → (InTry q.system.worker → t.worker ≠ .idle) →
      ∀ row, t.row jobId = some row → row.job.state = .succeeded → p.row jobId = some row :=
    fun t step hother row hrow hs =>
      h.row row (TrainingStep.row_of_succeeded hinv.training step hother hrow hs) hs
  cases hstep with
  | outside step away => exact ⟨h.placed, h.unpublished, hrow _ step (ne_idle_of_away away)⟩
  | enter step before behind =>
    exact ⟨h.placed, nofun, hrow _ step fun hinside => absurd hinside before⟩
  | prepare b entered free kept => cases free.symm.trans h.placed
  | train b running => exact absurd running hworking
  | checkpoint step running inside => exact absurd running hworking
  | rename running written => exact absurd running hworking
  | complete published => exact absurd published h.unpublished
  | fail step inside failing unpublished =>
    exact ⟨h.placed, nofun, hrow _ step fun _ => ne_idle_of_failing failing⟩
  | takeBack step inside failing published => exact absurd published h.unpublished
  | leave => exact ⟨h.placed, nofun, h.row⟩

/-- **Run lemma.** -/
theorem Fixed.run {a : A} (hinv : Sound digest jobId p) (hplaced : p.destination = some a)
    (hstage : p.stage ≠ .published) (hrun : Relation.ReflTransGen (Step digest jobId) p q) :
    Fixed jobId p a q := by
  induction hrun with
  | refl => exact ⟨hplaced, hstage, fun _ hrow _ => hrow⟩
  | tail hrun hstep ih => exact ih.step (hinv.run hrun) hstep

/-- **A version in place is final.** In every run of submissions, cancellations, attempts and ends of the
    process: where the model of the job is registered, the job has succeeded, and its digest is that of the
    directory of its version. A directory that no attempt has in its hands any more is never changed or
    removed, and its model is never registered from then on if it was not before: retries fail closed. -/
theorem publication_final {s : TrainingSystem} (hnew : s.row jobId = none) (hidle : s.worker = .idle)
    (hp : Relation.ReflTransGen (Step digest jobId) { system := s } p) :
    (∀ row, p.row jobId = some row → p.system.Registered row → row.job.state = .succeeded ∧
      ∃ a, p.destination = some a ∧ row.job.artifactDigest = some (digest a)) ∧
    ∀ a, p.destination = some a → p.stage ≠ .published →
      ∀ q, Relation.ReflTransGen (Step digest jobId) p q → q.destination = some a ∧
        ∀ row, q.row jobId = some row → q.system.Registered row →
          p.row jobId = some row ∧ p.system.Registered row := by
  have hinv := (Sound.start hnew hidle).run hp
  refine ⟨fun row hrow hregistered => ?_, fun a hplaced hstage q hq => ?_⟩
  · have hsucceeded := (hinv.registered_iff hrow).1 hregistered
    exact ⟨hsucceeded, hinv.succeeded row hrow hsucceeded⟩
  · have hfixed := Fixed.run hinv hplaced hstage hq
    refine ⟨hfixed.placed, fun row hrow hregistered => ?_⟩
    have hsucceeded := ((hinv.run hq).registered_iff hrow).1 hregistered
    have hold := hfixed.row row hrow hsucceeded
    exact ⟨hold, (hinv.registered_iff hold).2 hsucceeded⟩

/-! ## Processes that live

Without a death at the wrong moment, the rename is followed by the registration or by the way back.
Both are steps of the same attempt, and no other attempt of the job runs meanwhile. -/

/-- The process ends between the rename and the registration. -/
def Dies (p q : Publication A) : Prop :=
  p.stage = .published ∧ q = { p with system := { p.system with worker := .idle }, stage := .outside }

/-- A step that is not such an end. -/
structure LivingStep (digest : A → String) (jobId : String) (p q : Publication A) : Prop where
  step : Step digest jobId p q
  lives : ¬Dies p q

/-- A directory in place is an attempt's own, or its model is registered. -/
structure Placed (digest : A → String) (jobId : String) (p : Publication A) : Prop
    extends Sound digest jobId p where
  placed : p.destination.isSome → p.stage = .published ∨
    ∃ row, p.row jobId = some row ∧ row.job.state = .succeeded

/-- **Step lemma.** -/
theorem Placed.step (h : Placed digest jobId p) (hstep : LivingStep digest jobId p q) :
    Placed digest jobId q := by
  obtain ⟨hstep, hlives⟩ := hstep
  have hsound := h.toSound.step hstep
  -- A row that has succeeded stays.
  have hkeep : ∀ t, TrainingStep jobId p.system t →
      (∃ row, p.row jobId = some row ∧ row.job.state = .succeeded) →
      ∃ row, t.row jobId = some row ∧ row.job.state = .succeeded := by
    rintro t step ⟨row, hrow, hs⟩
    obtain ⟨row', hrow', hnext⟩ := (h.training.step step).2 row hrow
    exact ⟨row', hrow', hnext.terminal (.inl hs) ▸ hs⟩
  refine ⟨hsound, ?_⟩
  cases hstep with
  | outside step away => exact fun hsome => (h.placed hsome).imp_right (hkeep _ step)
  | enter step before behind =>
    intro hsome
    obtain hpublished | hrow := h.placed hsome
    · exact absurd (h.inTry (by simp [hpublished])) before
    · exact .inr (hkeep _ step hrow)
  | prepare a entered free kept =>
    intro hsome
    rw [free] at hsome
    cases hsome
  | train a running => exact h.placed
  | checkpoint step running inside => exact fun hsome => (h.placed hsome).imp_right (hkeep _ step)
  | rename running written => exact fun _ => .inl rfl
  | @complete job a checks r' usage artifactRef now manifest architecture published worker placed version
      registered =>
    obtain ⟨old, hold, hcopy⟩ := h.training.held job (by rw [worker]; rfl)
    have hid : (job.succeed usage artifactRef (digest a) now).jobId = jobId := hcopy.jobId
    obtain ⟨-, hrow, -⟩ := Registry.complete_eq_ok hid hold registered
    exact fun _ => .inr ⟨_, hrow, rfl⟩
  | fail step inside failing unpublished =>
    exact fun hsome => .inr (hkeep _ step ((h.placed hsome).resolve_left unpublished))
  | takeBack step inside failing published => exact nofun
  | leave =>
    exact fun hsome => .inr ((h.placed hsome).resolve_left fun hpublished => hlives ⟨hpublished, rfl⟩)

/-- **Both places or none.** While no process ends between the rename and the registration, the
    directory of the version is there exactly where its model is registered, but for the attempt that
    is just between: what fails to be registered is taken back. The rename that takes it back succeeds
    here; where it fails, the directory stays as it does where the process ends between the two. -/
theorem placed_iff_registered {s : TrainingSystem} (hnew : s.row jobId = none) (hidle : s.worker = .idle)
    (hp : Relation.ReflTransGen (LivingStep digest jobId) { system := s } p)
    (hstage : p.stage ≠ .published) : p.destination.isSome ↔ ∃ row, p.row jobId = some row ∧
    p.system.Registered row := by
  have hstart : Placed digest jobId ({ system := s } : Publication A) := ⟨.start hnew hidle, nofun⟩
  have hinv : Placed digest jobId p :=
    Runs.reflTransGen_of_invariant (fun _ _ h hstep => h.step hstep) hstart hp
  constructor
  · intro hsome
    obtain ⟨row, hrow, hs⟩ := (hinv.placed hsome).resolve_left hstage
    exact ⟨row, hrow, (hinv.registered_iff hrow).2 hs⟩
  · rintro ⟨row, hrow, hregistered⟩
    obtain ⟨a, hplaced, -⟩ := hinv.succeeded row hrow ((hinv.registered_iff hrow).1 hregistered)
    rw [hplaced]
    rfl

/-! An attempt up to the rename. The process ends there, or the registration fails. -/

namespace Samples

open CancelledJob

/-- The registry once the job runs. -/
def running : Registry := submitted.saveJob checks (queued.start 0) ["acme"]

/-- All directories have one digest. -/
def sameDigest : Unit → String := fun _ => "digest"

/-- An attempt at the given place. -/
def attempt (stage : Stage) (working destination : Option Unit) : Publication Unit :=
  { system := ⟨running, .training (queued.start 0)⟩, stage, working, destination }

/-- The process died between the rename and the registration. -/
def crashed : Publication Unit := { system := ⟨running, .idle⟩, destination := some () }

/-- The registration failed, and the working directory is back. -/
def takenBack : Publication Unit :=
  { system := ⟨running, .failing (((queued.start 0).succeed {} "ref" "digest" 0).fail "training_failed" 0)
      "training_failed"⟩
    working := some () }

/-- The worker is within the `try` of the run. -/
def inTry : WorkerPhase → Bool
  | .training _ => true
  | _ => false

theorem outside_try {w : WorkerPhase} (h : inTry w = false) : ¬InTry w := by
  rintro ⟨job, rfl⟩
  cases h

theorem lives {p q : Publication Unit} (h : p.stage ≠ .published) : ¬Dies p q := fun hdies => h hdies.1

theorem run_renamed : Relation.ReflTransGen (LivingStep sameDigest "job") { system := ⟨{}, .idle⟩ }
    (attempt .published none (some ())) := by
  have henqueue : ({} : Registry).enqueueJob operator
      (.new specification "deterministic-fake-adapter-v1" "v1") ["acme"] = .ok (queued, submitted) := by rfl
  have h₁ : LivingStep sameDigest "job" { system := ⟨{}, .idle⟩ } { system := ⟨submitted, .idle⟩ } :=
    ⟨.outside (.enqueue rfl rfl henqueue) (.inl rfl), lives (by decide)⟩
  have hpending : queued.pending := .inl rfl
  have hstored : submitted.trainingJobs "job" = some ⟨["acme"], queued⟩ := by rfl
  have h₂ : LivingStep sameDigest "job" { system := ⟨submitted, .idle⟩ } { system := ⟨submitted,
      .claimed⟩ } :=
    ⟨.outside (.claim hstored hpending) (.inr ⟨outside_try (by decide), outside_try (by decide)⟩),
      lives (by decide)⟩
  have h₃ : LivingStep sameDigest "job" { system := ⟨submitted, .claimed⟩ }
      { system := ⟨submitted, .loaded queued⟩ } :=
    ⟨.outside (.load hstored (by decide) (by decide)) (.inr ⟨outside_try (by decide),
      outside_try (by decide)⟩), lives (by decide)⟩
  have h₄ : LivingStep sameDigest "job" { system := ⟨submitted, .loaded queued⟩ }
      (attempt .entered none none) :=
    ⟨.enter (@TrainingStep.start "job" checks submitted queued ["acme"] 0) (outside_try (by decide))
      ⟨_, rfl⟩, lives (by decide)⟩
  have h₅ : LivingStep sameDigest "job" (attempt .entered none none) (attempt .working (some ()) none) :=
    ⟨.prepare () rfl rfl nofun, lives (by decide)⟩
  have h₆ : LivingStep sameDigest "job" (attempt .working (some ()) none)
      (attempt .published none (some ())) :=
    ⟨.rename rfl rfl, lives (by decide)⟩
  exact (((((Relation.ReflTransGen.single h₁).tail h₂).tail h₃).tail h₄).tail h₅).tail h₆

theorem run_takenBack : Relation.ReflTransGen (LivingStep sameDigest "job")
    { system := ⟨{}, .idle⟩ } takenBack := by
  have hstep : TrainingStep "job" ⟨running, .training (queued.start 0)⟩ takenBack.system :=
    @TrainingStep.failComplete "job" running (queued.start 0) {} "ref" "digest" none 0
  refine run_renamed.tail ⟨.takeBack hstep ⟨_, rfl⟩ ⟨_, _, rfl⟩ rfl, fun h => ?_⟩
  cases congrArg Publication.destination h.2

end Samples

open Samples CancelledJob in
/-- Behind the end of the process, the model is never registered. -/
theorem crashed_never_registered : ¬∃ q row, Relation.ReflTransGen (Step sameDigest "job") crashed q ∧
    q.row "job" = some row ∧ q.system.Registered row := by
  have hp : Relation.ReflTransGen (Step sameDigest "job") { system := ⟨{}, .idle⟩ } crashed :=
    (Relation.ReflTransGen.mono (fun _ _ h => LivingStep.step h) _ _ run_renamed).tail .leave
  obtain ⟨hregistered, hfinal⟩ := publication_final rfl rfl hp
  rintro ⟨q, row, hq, h, hr⟩
  obtain ⟨hold, hr⟩ := (hfinal () rfl (fun h => by cases h) q hq).2 row h hr
  have hstored : crashed.row "job" = some ⟨["acme"], queued.start 0⟩ := by rfl
  obtain rfl := Option.some.inj (hstored.symm.trans hold)
  cases (hregistered _ hold hr).1

open Samples in
theorem takenBack_unregistered : ¬∃ row, takenBack.row "job" = some row ∧
    takenBack.system.Registered row := by
  rw [← placed_iff_registered rfl rfl run_takenBack nofun]
  decide

end ModelPublication

end AdaptiveLlm
