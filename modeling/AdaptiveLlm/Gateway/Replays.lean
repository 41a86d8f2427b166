import AdaptiveLlm.Lib.Locks
import AdaptiveLlm.Lib.Runs
import Mathlib.Data.List.Basic

set_option autoImplicit false

/-! # Reservations of running requests

`InferenceService.infer` reserves its key in `_replays` before the pipeline and gives it back in its
`finally`. The pipeline ends with a save in a worker thread, which `_execute` awaits behind a shield
and, once it has been cancelled there, directly. A thread cannot be cancelled: an `infer` that is
cancelled in the second await too leaves it running.

A step is what an `infer` does from one await to the next, a move of its worker thread, or a
cancellation that reaches it. Every call is a `τ` of its own.

The invariant is `Covered`: to a running save belongs a key in the table of reservations, and to
each key at most one pipeline. The steps are listed in the order in which one call goes through
them. An `infer` that meets its key reserved is refused and has no part in what follows; only the
step that leaves the second await by a cancellation breaks the cover, and the theorem says exactly
which runs have such a step. -/

namespace AdaptiveLlm

namespace Gateway

/-- What a reservation is made under. -/
structure ReplayKey where
  tenantId : String
  applicationId : String
  requestId : String
  deriving DecidableEq, Repr

/-- Why the reservation is refused. -/
inductive ReplayError where
  | requestIdConflict
  | requestInProgress
  | replayCapacityExceeded
  deriving DecidableEq, Repr

/-- The check under `_replay_lock`; `none` admits the call. -/
def reservationError (replays : List (ReplayKey × String)) (capacity : ℕ) (key : ReplayKey)
    (fingerprint : String) : Option ReplayError :=
  match replays.lookup key with
  | some entry => if entry ≠ fingerprint then some .requestIdConflict else some .requestInProgress
  | none => if replays.length ≥ capacity then some .replayCapacityExceeded else none

/-- Where an `infer` stands. -/
inductive Phase where
  | fresh
  | refused (error : ReplayError)
  /-- awaits `_find_replay` -/
  | finding
  /-- in `_execute`, before its save -/
  | executing
  /-- awaits the shielded save -/
  | saving
  /-- cancelled there, awaits the save itself -/
  | waiting
  /-- after the save, perhaps awaiting `record_live` -/
  | recording
  /-- before the `finally` of `infer` -/
  | ending
  | done
  deriving DecidableEq, Repr

/-- The thread of a save. -/
inductive Worker where
  | absent
  /-- queued in the executor -/
  | pending
  | running
  | finished
  deriving DecidableEq, Repr

/-- The reservations, where each request stands, and the saves that still run. -/
structure System (τ : Type) where
  replays : List (ReplayKey × String) := []
  phase : τ → Phase := fun _ => .fresh
  worker : τ → Worker := fun _ => .absent
  /-- the key a call has reserved -/
  key : τ → Option ReplayKey := fun _ => none

variable {τ : Type} [DecidableEq τ]

/-- A call goes on. -/
def System.goto (s : System τ) (t : τ) (phase : Phase) : System τ :=
  { s with phase := Function.update s.phase t phase }

/-- The thread of a call goes on. -/
def System.work (s : System τ) (t : τ) (worker : Worker) : System τ :=
  { s with worker := Function.update s.worker t worker }

/-- One request or one save goes on. -/
inductive Step (capacity : ℕ) : System τ → System τ → Prop
  | reserve {s : System τ} (t : τ) (key : ReplayKey) (fingerprint : String)
      (fresh : s.phase t = .fresh)
      (admitted : reservationError s.replays capacity key fingerprint = none) :
      Step capacity s { s.goto t .finding with
        replays := s.replays ++ [(key, fingerprint)]
        key := Function.update s.key t (some key) }
  | refuse {s : System τ} (t : τ) (key : ReplayKey) (fingerprint : String) {error : ReplayError}
      (fresh : s.phase t = .fresh)
      (refused : reservationError s.replays capacity key fingerprint = some error) :
      Step capacity s (s.goto t (.refused error))
  /-- `_find_replay` has an answer or raises -/
  | replayed {s : System τ} (t : τ) (finding : s.phase t = .finding) :
      Step capacity s (s.goto t .ending)
  | execute {s : System τ} (t : τ) (finding : s.phase t = .finding) :
      Step capacity s (s.goto t .executing)
  /-- `_execute` raises before its `try`, or while it builds what it saves -/
  | abort {s : System τ} (t : τ) (executing : s.phase t = .executing) :
      Step capacity s (s.goto t .ending)
  | save {s : System τ} (t : τ) (executing : s.phase t = .executing) :
      Step capacity s ((s.goto t .saving).work t .pending)
  | start {s : System τ} (t : τ) (pending : s.worker t = .pending) :
      Step capacity s (s.work t .running)
  /-- `persistence.save` returns or raises -/
  | finish {s : System τ} (t : τ) (running : s.worker t = .running) :
      Step capacity s (s.work t .finished)
  | resume {s : System τ} (t : τ) (saving : s.phase t = .saving ∨ s.phase t = .waiting)
      (finished : s.worker t = .finished) : Step capacity s (s.goto t .recording)
  | leave {s : System τ} (t : τ) (recording : s.phase t = .recording) :
      Step capacity s (s.goto t .ending)
  | release {s : System τ} (t : τ) {key : ReplayKey} (ending : s.phase t = .ending)
      (reserved : s.key t = some key) :
      Step capacity s { s.goto t .done with replays := s.replays.filter (·.1 ≠ key) }
  -- cancellations, by the await they reach
  | cancelFinding {s : System τ} (t : τ) (finding : s.phase t = .finding) :
      Step capacity s (s.goto t .ending)
  /-- the pipeline stops, and its `finally` saves -/
  | cancelExecuting {s : System τ} (t : τ) (executing : s.phase t = .executing) : Step capacity s s
  | cancelSaving {s : System τ} (t : τ) (saving : s.phase t = .saving) :
      Step capacity s (s.goto t .waiting)
  /-- the save's task is cancelled with the call: a thread that has not started is withdrawn, if it
      does not start just then, one that has goes on -/
  | cancelWaiting {s : System τ} (t : τ) (worker : Worker) (waiting : s.phase t = .waiting)
      (left : worker = s.worker t ∧ worker ≠ .pending ∨
        s.worker t = .pending ∧ (worker = .absent ∨ worker = .running)) :
      Step capacity s ((s.goto t .ending).work t worker)
  | cancelRecording {s : System τ} (t : τ) (recording : s.phase t = .recording) :
      Step capacity s (s.goto t .ending)

/-! ## Coverage -/

/-- The call has its key reserved. -/
def Phase.reserved : Phase → Bool
  | .finding | .executing | .saving | .waiting | .recording | .ending => true
  | .fresh | .refused _ | .done => false

/-- The pipeline of a call runs: the call is between its reservation and its end, or its save is
    running still. -/
def System.Busy (s : System τ) (t : τ) : Prop :=
  (s.phase t).reserved = true ∨ s.worker t = .running

/-- Every running save has its key in `_replays`, so that no call with the key is admitted, and no
    two pipelines run for one key. -/
structure Covered (s : System τ) : Prop where
  covered : ∀ t key, s.key t = some key → s.worker t = .running → key ∈ s.replays.map (·.1)
  refused : ∀ t key capacity fingerprint, s.key t = some key → s.worker t = .running →
    reservationError s.replays capacity key fingerprint ≠ none
  exclusive : ∀ t t', s.Busy t → s.Busy t' → s.key t = s.key t' → t = t'

/-- A cancellation takes a call out of its second await with the save running. -/
def Orphans (s s' : System τ) : Prop :=
  ∃ t, s.phase t = .waiting ∧ s'.phase t = .ending ∧ s'.worker t = .running

/-! ## The invariant

A key is in the table exactly while the call that reserved it has not given it back, and then its
owner is in one of the phases in which it runs. The worker thread of a call runs on when the call is
cancelled. -/

/-- A call has its key in `_replays` and to itself from its reservation to its end, and a save that
    has not finished is awaited. -/
structure ReplayInv (s : System τ) : Prop where
  reserved : ∀ t, (s.phase t).reserved = true →
    ∃ key, s.key t = some key ∧ key ∈ s.replays.map (·.1)
  unique : ∀ t t', (s.phase t).reserved = true → (s.phase t').reserved = true →
    s.key t = s.key t' → t = t'
  awaited : ∀ t, s.worker t = .pending ∨ s.worker t = .running →
    s.phase t = .saving ∨ s.phase t = .waiting

theorem reservationError_of_mem {replays : List (ReplayKey × String)} {key : ReplayKey}
    (hmem : key ∈ replays.map (·.1)) (capacity : ℕ) (fingerprint : String) :
    reservationError replays capacity key fingerprint ≠ none := by
  unfold reservationError
  cases hentry : replays.lookup key with
  | none =>
    obtain ⟨entry, hentry', rfl⟩ := List.mem_map.1 hmem
    have hne := List.lookup_eq_none_iff.1 hentry entry hentry'
    simp at hne
  | some entry =>
    show (if entry ≠ fingerprint then _ else _) ≠ none
    split <;> simp

theorem not_mem_of_reservationError {replays : List (ReplayKey × String)} {capacity : ℕ}
    {key : ReplayKey} {fingerprint : String}
    (admitted : reservationError replays capacity key fingerprint = none) :
    key ∉ replays.map (·.1) := fun hmem =>
  reservationError_of_mem hmem capacity fingerprint admitted

section Invariant

variable {s s' : System τ} {capacity : ℕ}

omit [DecidableEq τ] in
theorem ReplayInv.reserved_of_busy (h : ReplayInv s) {t : τ} (hbusy : s.Busy t) :
    (s.phase t).reserved = true := by
  rcases hbusy with hreserved | hrunning
  · exact hreserved
  · rcases h.awaited t (.inr hrunning) with hphase | hphase <;> rw [hphase] <;> rfl

omit [DecidableEq τ] in
theorem ReplayInv.covered (h : ReplayInv s) : Covered s := by
  have hmem : ∀ t key, s.key t = some key → s.worker t = .running → key ∈ s.replays.map (·.1) := by
    intro t key hkey hrunning
    obtain ⟨key', hkey', hmem⟩ := h.reserved t (h.reserved_of_busy (.inr hrunning))
    rwa [Option.some.inj (hkey.symm.trans hkey')]
  refine ⟨hmem, ?_, ?_⟩
  · intro t key capacity fingerprint hkey hrunning
    exact reservationError_of_mem (hmem t key hkey hrunning) capacity fingerprint
  · intro t t' hbusy hbusy' hkey
    exact h.unique t t' (h.reserved_of_busy hbusy) (h.reserved_of_busy hbusy') hkey

/-- A step that leaves the reservations alone: a call and its thread go on, the call as reserved as
    before, and with its save awaited while that is under way. -/
theorem ReplayInv.move (h : ReplayInv s) (t : τ) {phase : Phase} {worker : Worker}
    (hreserved : phase.reserved = true → (s.phase t).reserved = true)
    (hawaited : worker = .pending ∨ worker = .running → phase = .saving ∨ phase = .waiting) :
    ReplayInv ((s.goto t phase).work t worker) := by
  have hback : ∀ t', (Function.update s.phase t phase t').reserved = true →
      (s.phase t').reserved = true := by
    intro t' ht'
    by_cases heq : t' = t
    · subst heq
      rw [Function.update_self] at ht'
      exact hreserved ht'
    · rwa [Function.update_of_ne heq] at ht'
  refine ⟨fun t' ht' => h.reserved t' (hback t' ht'),
    fun t₁ t₂ h₁ h₂ hkey => h.unique t₁ t₂ (hback t₁ h₁) (hback t₂ h₂) hkey, ?_⟩
  intro t' hworker
  show Function.update s.phase t phase t' = .saving ∨ Function.update s.phase t phase t' = .waiting
  change Function.update s.worker t worker t' = .pending ∨
    Function.update s.worker t worker t' = .running at hworker
  by_cases heq : t' = t
  · subst heq
    rw [Function.update_self] at hworker ⊢
    exact hawaited hworker
  · rw [Function.update_of_ne heq] at hworker ⊢
    exact h.awaited t' hworker

/-- The same with the thread left as it is. -/
theorem ReplayInv.goto (h : ReplayInv s) (t : τ) {phase : Phase}
    (hreserved : phase.reserved = true → (s.phase t).reserved = true)
    (hawaited : s.worker t = .pending ∨ s.worker t = .running → phase = .saving ∨ phase = .waiting) :
    ReplayInv (s.goto t phase) := by
  have hmove := h.move t hreserved hawaited
  rwa [System.work, show Function.update (s.goto t phase).worker t (s.worker t) = s.worker from
    Function.update_eq_self t s.worker] at hmove

/-- A thread under way goes on. -/
theorem ReplayInv.work (h : ReplayInv s) {t : τ} (worker : Worker)
    (hworker : s.worker t = .pending ∨ s.worker t = .running) : ReplayInv (s.work t worker) := by
  have hmove : ReplayInv ((s.goto t (s.phase t)).work t worker) :=
    h.move t id fun _ => h.awaited t hworker
  rwa [System.goto, show Function.update s.phase t (s.phase t) = s.phase from
    Function.update_eq_self t s.phase] at hmove

/-- A call elsewhere has no save under way. -/
theorem ReplayInv.goto_of_ne (h : ReplayInv s) (t : τ) {phase : Phase}
    (hreserved : phase.reserved = true → (s.phase t).reserved = true)
    (hsaving : s.phase t ≠ .saving) (hwaiting : s.phase t ≠ .waiting) :
    ReplayInv (s.goto t phase) :=
  h.goto t hreserved fun hworker => ((h.awaited t hworker).elim hsaving hwaiting).elim

theorem ReplayInv.reserve (h : ReplayInv s) {t : τ} {key : ReplayKey} {fingerprint : String}
    (fresh : s.phase t = .fresh)
    (admitted : reservationError s.replays capacity key fingerprint = none) :
    ReplayInv { s.goto t .finding with
      replays := s.replays ++ [(key, fingerprint)]
      key := Function.update s.key t (some key) } := by
  have hnew := not_mem_of_reservationError admitted
  -- no other call has the key: it would be in `_replays`
  have hother : ∀ t', t' ≠ t → (Function.update s.phase t .finding t').reserved = true →
      ∃ key', s.key t' = some key' ∧ key' ∈ s.replays.map (·.1) ∧ key' ≠ key := by
    intro t' hne hreserved
    rw [Function.update_of_ne hne] at hreserved
    obtain ⟨key', hkey', hmem⟩ := h.reserved t' hreserved
    exact ⟨key', hkey', hmem, fun heq => hnew (heq ▸ hmem)⟩
  refine ⟨?_, ?_, ?_⟩
  · intro t' hreserved
    by_cases heq : t' = t
    · subst heq
      exact ⟨key, Function.update_self .., by simp⟩
    · obtain ⟨key', hkey', hmem, -⟩ := hother t' heq hreserved
      refine ⟨key', (Function.update_of_ne heq ..).trans hkey', ?_⟩
      rw [List.map_append]
      exact List.mem_append_left _ hmem
  · intro t₁ t₂ h₁ h₂ hkey
    change Function.update s.key t (some key) t₁ = Function.update s.key t (some key) t₂ at hkey
    by_cases heq₁ : t₁ = t <;> by_cases heq₂ : t₂ = t
    · rw [heq₁, heq₂]
    · subst heq₁
      obtain ⟨key', hkey', -, hne⟩ := hother t₂ heq₂ h₂
      rw [Function.update_self, Function.update_of_ne heq₂, hkey'] at hkey
      exact absurd (Option.some.inj hkey).symm hne
    · subst heq₂
      obtain ⟨key', hkey', -, hne⟩ := hother t₁ heq₁ h₁
      rw [Function.update_self, Function.update_of_ne heq₁, hkey'] at hkey
      exact absurd (Option.some.inj hkey) hne
    · rw [Function.update_of_ne heq₁, Function.update_of_ne heq₂] at hkey
      change (Function.update s.phase t .finding t₁).reserved = true at h₁
      change (Function.update s.phase t .finding t₂).reserved = true at h₂
      rw [Function.update_of_ne heq₁] at h₁
      rw [Function.update_of_ne heq₂] at h₂
      exact h.unique t₁ t₂ h₁ h₂ hkey
  · have hgoto : ∀ t', s.worker t' = .pending ∨ s.worker t' = .running → t' ≠ t := by
      rintro t' hworker rfl
      have := h.awaited t' hworker
      rw [fresh] at this
      simp at this
    intro t' hworker
    show Function.update s.phase t .finding t' = .saving ∨
      Function.update s.phase t .finding t' = .waiting
    rw [Function.update_of_ne (hgoto t' hworker)]
    exact h.awaited t' hworker

theorem ReplayInv.release (h : ReplayInv s) {t : τ} {key : ReplayKey} (ending : s.phase t = .ending)
    (hkey : s.key t = some key) :
    ReplayInv { s.goto t .done with replays := s.replays.filter (·.1 ≠ key) } := by
  have hgoto : ReplayInv (s.goto t .done) := by
    refine h.goto_of_ne t (fun hdone => by cases hdone) ?_ ?_ <;> rw [ending] <;> simp
  refine ⟨?_, hgoto.unique, hgoto.awaited⟩
  intro t' hreserved
  obtain ⟨key', hkey', hmem⟩ := hgoto.reserved t' hreserved
  refine ⟨key', hkey', ?_⟩
  have hne : t' ≠ t := by
    rintro rfl
    change (Function.update s.phase t' .done t').reserved = true at hreserved
    rw [Function.update_self] at hreserved
    cases hreserved
  change (Function.update s.phase t .done t').reserved = true at hreserved
  rw [Function.update_of_ne hne] at hreserved
  -- the key it gives back is its own
  have hdiff : key' ≠ key := by
    rintro rfl
    refine hne (h.unique t' t hreserved ?_ (hkey'.trans hkey.symm))
    rw [ending]
    rfl
  obtain ⟨entry, hentry, rfl⟩ := List.mem_map.1 hmem
  exact List.mem_map_of_mem (List.mem_filter.2 ⟨hentry, by simpa using hdiff⟩)

/-- **Step lemma.** -/
theorem ReplayInv.step (h : ReplayInv s) (hstep : Step capacity s s') (hkept : ¬Orphans s s') :
    ReplayInv s' := by
  cases hstep with
  | reserve t key fingerprint fresh admitted => exact h.reserve fresh admitted
  | release t ending reserved => exact h.release ending reserved
  | cancelExecuting t executing => exact h
  | refuse t key fingerprint hphase refused =>
    exact h.goto_of_ne t (fun hr => by cases hr) (by simp [hphase]) (by simp [hphase])
  | replayed t hphase | execute t hphase | abort t hphase | leave t hphase
  | cancelFinding t hphase | cancelRecording t hphase =>
    exact h.goto_of_ne t (fun _ => by rw [hphase]; rfl) (by simp [hphase]) (by simp [hphase])
  | save t executing => exact h.move t (fun _ => by rw [executing]; rfl) fun _ => .inl rfl
  | start t pending => exact h.work _ (.inl pending)
  | finish t running => exact h.work _ (.inr running)
  | resume t saving finished =>
    refine h.goto t (fun _ => ?_) fun hworker => ?_
    · rcases saving with hphase | hphase <;> rw [hphase] <;> rfl
    · rw [finished] at hworker
      simp at hworker
  | cancelSaving t saving => exact h.goto t (fun _ => by rw [saving]; rfl) fun _ => .inr rfl
  | cancelWaiting t worker waiting left =>
    -- a thread under way would be orphaned
    refine h.move t (fun _ => by rw [waiting]; rfl) fun hworker => ?_
    have hrunning : worker = .running := by
      rcases hworker with rfl | hrunning
      · simp at left
      · exact hrunning
    exact absurd ⟨t, waiting, Function.update_self .., hrunning ▸ Function.update_self ..⟩ hkept

/-- The key of a call past its reservation stays. -/
theorem Step.key_eq (hstep : Step capacity s s') {t : τ} (hphase : s.phase t ≠ .fresh) :
    s'.key t = s.key t := by
  cases hstep with
  | reserve t' key fingerprint fresh admitted =>
    refine Function.update_of_ne ?_ ..
    rintro rfl
    exact hphase fresh
  | _ => rfl

/-- An orphaned save loses its reservation with the next step of its call. -/
theorem ReplayInv.uncovered (h : ReplayInv s) (hstep : Step capacity s s') (horphan : Orphans s s') :
    ∃ s'', Step capacity s' s'' ∧ ¬Covered s'' := by
  obtain ⟨t, hwaiting, hending, hrunning⟩ := horphan
  obtain ⟨key, hkey, -⟩ := h.reserved t (by rw [hwaiting]; rfl)
  have hkey' : s'.key t = some key := (hstep.key_eq (by simp [hwaiting])).trans hkey
  refine ⟨_, .release t hending hkey', fun hcovered => ?_⟩
  have hmem := hcovered.covered t key hkey' hrunning
  simp at hmem

/-- **Reservations.** In every run in which no cancellation orphans a save, each running save has its
    key reserved and each key one pipeline at most. After a cancellation that orphans one, the call
    gives the key back with the save still running. -/
theorem replays_cover (capacity : ℕ) {s : System τ}
    (hrun : Relation.ReflTransGen (fun s s' => Step capacity s s' ∧ ¬Orphans s s') {} s) :
    Covered s ∧
      ∀ s', Step capacity s s' → Orphans s s' → ∃ s'', Step capacity s' s'' ∧ ¬Covered s'' := by
  have hempty : ReplayInv ({} : System τ) := by
    refine ⟨fun t ht => ?_, fun t t' ht => ?_, fun t ht => ?_⟩
    · cases ht
    · cases ht
    · rcases ht with ht | ht <;> cases ht
  have hkeep : ∀ s s' : System τ, ReplayInv s → Step capacity s s' ∧ ¬Orphans s s' → ReplayInv s' :=
    fun s s' h hstep => h.step hstep.1 hstep.2
  have h := Runs.reflTransGen_of_invariant hkeep hempty hrun
  exact ⟨h.covered, fun s' hstep horphan => h.uncovered hstep horphan⟩

/-- A call that is cancelled once while it saves. -/
theorem cancelled_save_covered : ∃ s : System Bool,
    Relation.ReflTransGen (fun s s' => Step 8 s s' ∧ ¬Orphans s s') {} s ∧
      s.phase true = .waiting ∧ s.worker true = .running ∧ Covered s := by
  let key : ReplayKey := ⟨"tenant", "app", "request"⟩
  have hrun : ∃ s : System Bool,
      Relation.ReflTransGen (fun s s' => Step 8 s s' ∧ ¬Orphans s s') {} s ∧
        s.phase true = .waiting ∧ s.worker true = .running := by
    have hkept : ∀ s s' : System Bool, (∀ t, s'.phase t ≠ .ending) → ¬Orphans s s' :=
      fun s s' hphase ⟨t, _, hending, _⟩ => hphase t hending
    refine ⟨_, .tail (.tail (.tail (.tail (.tail .refl ⟨.reserve true key "f" rfl rfl, ?_⟩)
      ⟨.execute true rfl, ?_⟩) ⟨.save true rfl, ?_⟩) ⟨.start true rfl, ?_⟩)
      ⟨.cancelSaving true rfl, ?_⟩, rfl, rfl⟩
    all_goals exact hkept _ _ (by decide)
  obtain ⟨s, hrun, hphase, hworker⟩ := hrun
  exact ⟨s, hrun, hphase, hworker, (replays_cover 8 hrun).1⟩

/-- A call that is cancelled twice while it saves: the next with its key saves beside it. -/
theorem overlapping_saves : ∃ s : System Bool, Relation.ReflTransGen (Step 8) {} s ∧
    s.worker true = .running ∧ s.worker false = .running ∧ s.key true = s.key false ∧
      ¬Covered s := by
  let key : ReplayKey := ⟨"tenant", "app", "request"⟩
  have hrun : ∃ s : System Bool, Relation.ReflTransGen (Step 8) {} s ∧
      s.worker true = .running ∧ s.worker false = .running ∧ s.key true = s.key false := by
    refine ⟨_, .tail (.tail (.tail (.tail (.tail (.tail (.tail (.tail (.tail (.tail (.tail .refl
      (.reserve true key "f" rfl rfl)) (.execute true rfl)) (.save true rfl)) (.start true rfl))
      (.cancelSaving true rfl)) (.cancelWaiting true .running rfl (.inl ⟨rfl, by decide⟩)))
      (.release true rfl rfl)) (.reserve false key "f" rfl rfl)) (.execute false rfl))
      (.save false rfl)) (.start false rfl), rfl, rfl, rfl⟩
  obtain ⟨s, hrun, hsaving, hsaving', hkey⟩ := hrun
  refine ⟨s, hrun, hsaving, hsaving', hkey, fun hcovered => ?_⟩
  exact absurd (hcovered.exclusive true false (.inr hsaving) (.inr hsaving') hkey) (by decide)

end Invariant

end Gateway

end AdaptiveLlm
