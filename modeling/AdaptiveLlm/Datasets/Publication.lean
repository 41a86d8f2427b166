import AdaptiveLlm.Datasets.Builder

set_option autoImplicit false

/-! # Publishing a dataset

`LocalDatasetBuilder.build` snapshots the store, builds the examples without a lock and stages them;
then, in one transaction, it looks for tombstones, writes the manifest and renames the directory, or
leaves out what was deleted and stages again. Other calls of the storage run between its steps, but
not inside the transaction. Every step can fail instead, and a failed build cleans up.

`BuildInv` says for each phase what the build has in hand: whose the candidates are, what the
staging directory holds and that nothing was published. It is kept by the steps of the build and by
the calls of others; the transaction matters at one place only, where no deletion can come between
the look for tombstones and the commit. Every step of the build lowers a measure in which a retry
pays for itself, as it has lost a candidate. -/

namespace AdaptiveLlm

namespace Datasets

open Stored (Store StorageCall)

/-! ## The system

The build and the rest of the process share the store. A step is one of the build's, of which the
last are under the write transaction, or any call of the storage by someone else, a deletion among
them. An exception may come at any point; it rolls the transaction back and removes the directories.
-/

/-- The variables of the publish loop. -/
structure Job where
  asOf : ℤ
  considered : ℕ
  candidates : List Example
  built : Built

/-- What the loop goes on with after some deletions. -/
def Job.without (job : Job) (gone : List (String × String)) : Job :=
  { job with
    candidates := job.candidates.filter (·.key ∉ gone)
    built := { job.built with
      examples := job.built.examples.filter (exampleKey · ∉ gone)
      exclusions := Function.update job.built.exclusions "deleted_during_build"
        (job.built.exclusions "deleted_during_build" + gone.length) } }

/-- Where a build stands. -/
inductive BuildPhase where
  | start
  | constructing (snapshot : Store) (asOf : ℤ) (selection : Selection)
  /-- before the staging directory is made -/
  | making (job : Job)
  | staging (job : Job)
  /-- staged, before the transaction -/
  | checking (job : Job) (directory : Directory)
  /-- in the transaction, with nothing deleted -/
  | putting (job : Job) (directory : Directory)
  /-- the row of the manifest is written -/
  | moving (job : Job) (directory : Directory)
  /-- the directory is renamed -/
  | committing (job : Job) (directory : Directory)
  | returned (directory : Directory)
  | raised (error : BuildError)

/-- A path of the file system. -/
inductive Place where
  | absent
  /-- a directory with some files -/
  | unfinished
  | holds (directory : Directory)

/-- The store, the manifests and where the build stands. -/
structure BuildSystem where
  store : Store
  /-- the committed rows of `dataset_manifests` -/
  manifests : List ((String × String) × DatasetManifest) := []
  phase : BuildPhase := .start
  staging : Place := .absent
  destination : Place := .absent

namespace BuildPhase

/-- The build holds the write transaction. -/
def inTransaction : BuildPhase → Bool
  | putting .. | moving .. | committing .. => true
  | _ => false

/-- `created` is set. -/
def created : BuildPhase → Bool
  | staging .. | checking .. | putting .. | moving .. | committing .. => true
  | _ => false

/-- `published` is set. -/
def published : BuildPhase → Bool
  | committing .. => true
  | _ => false

/-- The build has returned or raised. -/
def ended : BuildPhase → Bool
  | returned .. | raised .. => true
  | _ => false

end BuildPhase

section Step

variable (sv : BuildServices) (spec : BuildSpecification) (identity : Identity)
  (environment version : String)

/-- `_authorize`. -/
def authorize : Except BuildError Unit :=
  if identity.keyClass ≠ .operator then .error .operatorRequired
  else if spec.tenantIds.all (· ∈ identity.datasetTenants) then .ok ()
  else .error .datasetTenantForbidden

/-- A step of the build. -/
inductive BuildStep : BuildSystem → BuildSystem → Prop
  /-- the read transaction -/
  | snapshot {s : BuildSystem} (asOf : ℤ) {selection : Selection} (start : s.phase = .start)
      (authorized : authorize spec identity = .ok ())
      (selected : select sv.toEligibilityServices s.store spec asOf = .ok selection) :
      BuildStep s { s with phase := .constructing s.store asOf selection }
  | construct {s : BuildSystem} {snapshot : Store} {asOf : ℤ} {selection : Selection} {built : Built}
      (constructing : s.phase = .constructing snapshot asOf selection)
      (examples : buildExamples sv snapshot spec environment asOf selection = .ok built) :
      BuildStep s { s with
        phase := .making
          { asOf, considered := selection.considered, candidates := selection.examples, built } }
  | mkdir {s : BuildSystem} {job : Job} (making : s.phase = .making job)
      (absent : s.staging = .absent) :
      BuildStep s { s with phase := .staging job, staging := .unfinished }
  | stage {s : BuildSystem} {job : Job} (createdAt : ℤ) {d : Directory}
      (staging : s.phase = .staging job)
      (staged : stage sv spec version job.asOf createdAt job.considered job.built = .ok d) :
      BuildStep s { s with phase := .checking job d, staging := .holds d }
  /-- the transaction finds deletions and ends -/
  | retry {s : BuildSystem} {job : Job} {d : Directory} (checking : s.phase = .checking job d)
      (gone : deleted s.store job.candidates ≠ []) :
      BuildStep s { s with phase := .staging (job.without (deleted s.store job.candidates)) }
  | begin_ {s : BuildSystem} {job : Job} {d : Directory} (checking : s.phase = .checking job d)
      (none : deleted s.store job.candidates = []) (absent : s.destination = .absent) :
      BuildStep s { s with phase := .putting job d }
  /-- `put_manifest` and the events -/
  | put {s : BuildSystem} {job : Job} {d : Directory} (putting : s.phase = .putting job d)
      (new : (spec.datasetId, version) ∉ s.manifests.map (·.1)) :
      BuildStep s { s with phase := .moving job d }
  | rename {s : BuildSystem} {job : Job} {d : Directory} (moving : s.phase = .moving job d) :
      BuildStep s { s with
        phase := .committing job d
        staging := .absent
        destination := s.staging }
  | commit {s : BuildSystem} {job : Job} {d : Directory} (committing : s.phase = .committing job d) :
      BuildStep s { s with
        phase := .returned d
        manifests := s.manifests ++ [((spec.datasetId, version), d.manifest)] }
  /-- an exception, at any point: the transaction is rolled back and the directories are removed -/
  | fail {s : BuildSystem} (error : BuildError) (running : s.phase.ended = false) :
      BuildStep s { s with
        phase := .raised error
        staging := if s.phase.created then .absent else s.staging
        destination := if s.phase.published then .absent else s.destination }

/-- A step of the build, or a call of the storage by someone else. -/
inductive Step : BuildSystem → BuildSystem → Prop
  | build {s t : BuildSystem} (step : BuildStep sv spec identity environment version s t) : Step s t
  | call {s : BuildSystem} (call : StorageCall) (outside : s.phase.inTransaction = false) :
      Step s { s with store := s.store.call call }

end Step

/-! ## The invariant

It is stated phase by phase, as the build knows more and more of what it has in hand. Outside the
transaction the store may change, but an interaction that could be selected stays stored or leaves a
tombstone. -/

section Invariant

variable (sv : BuildServices) (spec : BuildSpecification) (version : String)

/-- The candidates can be selected still, and every example is one of theirs. -/
structure JobInv (store : Store) (job : Job) : Prop where
  eligible : ∀ c ∈ job.candidates, Eligible store spec c.interaction
  sourced : Sourced (spec.purpose ≠ .distillation) job.candidates job.built.examples

/-- The directory is what `_stage` made of the job. -/
def Staged (job : Job) (d : Directory) : Prop :=
  ∃ createdAt, stage sv spec version job.asOf createdAt job.considered job.built = .ok d

/-- Nothing is published yet, or no more. -/
structure Kept (s₀ s : BuildSystem) : Prop where
  manifests : s.manifests = s₀.manifests
  destination : s.destination = s₀.destination

/-- What holds of a build that started in `s₀`, by where it stands. -/
def PhaseInv (s₀ s : BuildSystem) : BuildPhase → Prop
  | .start | .raised _ => Kept s₀ s
  | .constructing _ _ selection =>
    Kept s₀ s ∧ ∀ c ∈ selection.examples, Eligible s.store spec c.interaction
  | .making job | .staging job => Kept s₀ s ∧ JobInv spec s.store job
  | .checking job d =>
    Kept s₀ s ∧ JobInv spec s.store job ∧ Staged sv spec version job d ∧ s.staging = .holds d
  | .putting job d | .moving job d =>
    Kept s₀ s ∧ JobInv spec s.store job ∧ Staged sv spec version job d ∧ s.staging = .holds d ∧
      s₀.destination = .absent ∧ deleted s.store job.candidates = []
  | .committing job d =>
    s.manifests = s₀.manifests ∧ JobInv spec s.store job ∧ Staged sv spec version job d ∧
      s.destination = .holds d ∧ s₀.destination = .absent ∧ deleted s.store job.candidates = []
  | .returned d =>
    s.manifests = s₀.manifests ++ [((spec.datasetId, version), d.manifest)] ∧
      s.destination = .holds d

/-- What holds at every step of a build that began in `s₀`. -/
structure BuildInv (s₀ s : BuildSystem) : Prop where
  store : s.store.PrivacyInv
  phase : PhaseInv sv spec version s₀ s s.phase

end Invariant

section Steps

variable {sv : BuildServices} {spec : BuildSpecification} {identity : Identity}
  {environment version : String} {s₀ s t : BuildSystem}

theorem Eligible.writes {store store' : Store} {i : Stored.Interaction} (h : Eligible store spec i)
    (hwrites : Stored.Store.Writes store store') : Eligible store' spec i :=
  ⟨h.tenant, hwrites.holds h.holds⟩

theorem JobInv.writes {store store' : Store} {job : Job} (h : JobInv spec store job)
    (hwrites : Stored.Store.Writes store store') : JobInv spec store' job :=
  ⟨fun c hc => (h.eligible c hc).writes hwrites, h.sourced⟩

/-- The candidates that are left have the examples that are left. -/
theorem JobInv.without {store : Store} {job : Job} (h : JobInv spec store job)
    (gone : List (String × String)) : JobInv spec store (job.without gone) := by
  refine ⟨fun c hc => h.eligible c (List.mem_of_mem_filter hc), fun e he => ?_⟩
  obtain ⟨he, hkept⟩ := List.mem_filter.1 he
  obtain ⟨c, hc, hof⟩ := h.sourced e he
  exact ⟨c, List.mem_filter.2 ⟨hc, hof.key ▸ hkept⟩, hof⟩

/-- What a failed build leaves. -/
theorem PhaseInv.fail (h : PhaseInv sv spec version s₀ s s.phase) (hrunning : s.phase.ended = false)
    {error : BuildError} :
    Kept s₀ { s with
      phase := .raised error
      staging := if s.phase.created then .absent else s.staging
      destination := if s.phase.published then .absent else s.destination } := by
  have hkept : s.phase.published = false → Kept s₀ s → Kept s₀ { s with
      phase := .raised error
      staging := if s.phase.created then .absent else s.staging
      destination := if s.phase.published then .absent else s.destination } :=
    fun hpublished hkept => ⟨hkept.manifests, by simpa [hpublished] using hkept.destination⟩
  cases hphase : s.phase with
  | start | raised _ =>
    rw [hphase] at h
    exact hphase ▸ hkept (by rw [hphase]; rfl) h
  | constructing _ _ _ | making _ | staging _ | checking _ _ | putting _ _ | moving _ _ =>
    rw [hphase] at h
    exact hphase ▸ hkept (by rw [hphase]; rfl) h.1
  | committing _ _ =>
    -- the renamed directory is removed, and there was none before
    rw [hphase] at h
    exact ⟨h.1, h.2.2.2.2.1.symm⟩
  | returned _ =>
    rw [hphase] at hrunning
    cases hrunning

/-- **Step lemma**, for the build. -/
theorem BuildInv.build (h : BuildInv sv spec version s₀ s)
    (hstep : BuildStep sv spec identity environment version s t) : BuildInv sv spec version s₀ t := by
  have hphase := h.phase
  refine ⟨by cases hstep <;> exact h.store, ?_⟩
  cases hstep with
  | snapshot asOf start authorized selected =>
    rw [start] at hphase
    exact ⟨⟨hphase.manifests, hphase.destination⟩, select_eligible h.store selected⟩
  | construct constructing examples =>
    rw [constructing] at hphase
    obtain ⟨hkept, heligible⟩ := hphase
    exact ⟨⟨hkept.manifests, hkept.destination⟩, heligible, buildExamples_sourced id examples⟩
  | mkdir making absent =>
    rw [making] at hphase
    exact ⟨⟨hphase.1.manifests, hphase.1.destination⟩, hphase.2⟩
  | stage createdAt staging staged =>
    rw [staging] at hphase
    exact ⟨⟨hphase.1.manifests, hphase.1.destination⟩, hphase.2, ⟨createdAt, staged⟩, rfl⟩
  | retry checking gone =>
    rw [checking] at hphase
    exact ⟨⟨hphase.1.manifests, hphase.1.destination⟩, hphase.2.1.without _⟩
  | begin_ checking none absent =>
    rw [checking] at hphase
    obtain ⟨hkept, hjob, hstaged, hholds⟩ := hphase
    exact ⟨⟨hkept.manifests, hkept.destination⟩, hjob, hstaged, hholds,
      hkept.destination.symm.trans absent, none⟩
  | put putting new =>
    rw [putting] at hphase
    obtain ⟨hkept, hrest⟩ := hphase
    exact ⟨⟨hkept.manifests, hkept.destination⟩, hrest⟩
  | rename moving =>
    rw [moving] at hphase
    obtain ⟨hkept, hjob, hstaged, hholds, habsent, hnone⟩ := hphase
    exact ⟨hkept.manifests, hjob, hstaged, hholds, habsent, hnone⟩
  | commit committing =>
    rw [committing] at hphase
    obtain ⟨hmanifests, -, -, hdestination, -, -⟩ := hphase
    exact ⟨by rw [hmanifests], hdestination⟩
  | fail error running => exact hphase.fail running

/-- **Step lemma**, for the other calls: the build holds what it holds outside its transaction. -/
theorem BuildInv.call (h : BuildInv sv spec version s₀ s) (call : Stored.StorageCall)
    (houtside : s.phase.inTransaction = false) :
    BuildInv sv spec version s₀ { s with store := s.store.call call } := by
  have hwrites := Stored.Store.call_writes h.store call
  refine ⟨hwrites.keeps h.store, ?_⟩
  have hphase := h.phase
  show PhaseInv sv spec version s₀ { s with store := s.store.call call } s.phase
  cases hcase : s.phase with
  | start | raised _ | returned _ =>
    rw [hcase] at hphase
    exact ⟨hphase.1, hphase.2⟩
  | constructing _ _ _ =>
    rw [hcase] at hphase
    exact ⟨⟨hphase.1.1, hphase.1.2⟩, fun c hc => (hphase.2 c hc).writes hwrites⟩
  | making _ | staging _ =>
    rw [hcase] at hphase
    exact ⟨⟨hphase.1.1, hphase.1.2⟩, hphase.2.writes hwrites⟩
  | checking _ _ =>
    rw [hcase] at hphase
    exact ⟨⟨hphase.1.1, hphase.1.2⟩, hphase.2.1.writes hwrites, hphase.2.2⟩
  | putting _ _ | moving _ _ | committing _ _ =>
    rw [hcase] at houtside
    cases houtside

theorem BuildInv.step (h : BuildInv sv spec version s₀ s)
    (hstep : Step sv spec identity environment version s t) : BuildInv sv spec version s₀ t := by
  cases hstep with
  | build hbuild => exact h.build hbuild
  | call call houtside => exact h.call call houtside

/-! ## What is published -/

/-- What is written of an example is of an interaction that the store has, and that has no tombstone;
    nor has its subject. -/
structure Undeleted (revision : String) (purpose : DatasetPurpose) (store : Store) (shard : Shard)
    (e : BuiltExample) : Prop where
  rowTenant : textField (stagedRow revision shard.split e) "tenant_id" = some shard.tenantId
  rowInteraction : textField (stagedRow revision shard.split e) "interaction_id" =
    some e.interactionId
  interaction : ¬store.Tombstoned shard.tenantId e.interactionId
  /-- the subject of the interaction as it is stored -/
  subject : ∃ i, store.Holds shard.tenantId i ∧ i.interactionId = e.interactionId ∧
    ∀ subject, i.subjectIdPseudonymous = some subject →
      ¬store.SubjectTombstoned shard.tenantId subject
  /-- a distillation takes over the subject that the source dataset has for the interaction -/
  ownSubject : purpose ≠ .distillation → ∀ subject, e.subject = some subject →
    ¬store.SubjectTombstoned shard.tenantId subject

theorem JobInv.undeleted {store : Store} {job : Job} {d : Directory} (h : JobInv spec store job)
    (hstaged : Staged sv spec version job d) (hnone : deleted store job.candidates = []) {shard : Shard}
    (hshard : shard ∈ d.shards) {e : BuiltExample} (he : e ∈ shard.examples) :
    Undeleted sv.revision spec.purpose store shard e := by
  obtain ⟨createdAt, hstage⟩ := hstaged
  obtain ⟨hbuilt, htenant⟩ := stage_examples hstage hshard he
  obtain ⟨c, hc, hof⟩ := h.sourced e hbuilt
  have hkept := not_deletedIn hnone hc
  simp only [Example.deletedIn, Bool.or_eq_false_iff] at hkept
  obtain ⟨hinteraction, hsubject⟩ := hkept
  have hkey := hof.key
  simp only [exampleKey, Example.key, Prod.mk.injEq] at hkey
  have hshardTenant : c.interaction.tenantId = shard.tenantId := hkey.1.symm.trans htenant
  have hsubject : ∀ subject, c.interaction.subjectIdPseudonymous = some subject →
      ¬store.SubjectTombstoned shard.tenantId subject := by
    intro subject hc htomb
    rw [hc, hshardTenant] at hsubject
    exact absurd htomb (by simpa [Stored.Store.SubjectTombstoned] using hsubject)
  refine ⟨?_, ?_, ?_, ⟨c.interaction, ?_, hkey.2.symm, hsubject⟩, fun hpurpose subject hown => ?_⟩
  · rw [stagedRow_text (by decide), hof.rowTenant, htenant]
  · rw [stagedRow_text (by decide), hof.rowInteraction]
  · rw [hkey.2, ← hshardTenant, Stored.Store.Tombstoned, hinteraction]
    simp
  · exact hshardTenant ▸ (h.eligible c hc).holds
  · exact hsubject subject ((hof.subject hpurpose).symm.trans hown)

/-- The split counts of the manifest are those of the shards. -/
theorem JobInv.counts {store : Store} {job : Job} {d : Directory} (h : JobInv spec store job)
    (hstaged : Staged sv spec version job d) (split : Split) :
    d.manifest.examples split =
      ((d.shards.filter (·.split = split)).map fun shard => (shard.rows sv.revision).length).sum := by
  obtain ⟨createdAt, hstage⟩ := hstaged
  refine stage_counts (fun e he => ?_) hstage split
  obtain ⟨c, hc, hof⟩ := h.sourced e he
  have hkey := hof.key
  simp only [exampleKey, Example.key, Prod.mk.injEq] at hkey
  exact hkey.1 ▸ (h.eligible c hc).tenant

/-! ## Termination

Every step of the build lowers a measure. A retry goes back to staging, but with a candidate less,
so the number of candidates weighs more than the phases. -/

/-- How far a build is from its end. A round of the loop that does not end it costs a candidate. -/
def BuildPhase.remaining : BuildPhase → WithTop ℕ
  | .start => ⊤
  | .constructing _ _ selection => ((2 * selection.examples.length + 8 : ℕ) : WithTop ℕ)
  | .making job => ((2 * job.candidates.length + 7 : ℕ) : WithTop ℕ)
  | .staging job => ((2 * job.candidates.length + 6 : ℕ) : WithTop ℕ)
  | .checking job _ => ((2 * job.candidates.length + 5 : ℕ) : WithTop ℕ)
  | .putting .. => ((4 : ℕ) : WithTop ℕ)
  | .moving .. => ((3 : ℕ) : WithTop ℕ)
  | .committing .. => ((2 : ℕ) : WithTop ℕ)
  | .returned _ | .raised _ => ((0 : ℕ) : WithTop ℕ)

theorem BuildStep.remaining_lt (hstep : BuildStep sv spec identity environment version s t) :
    t.phase.remaining < s.phase.remaining := by
  have hend : s.phase.ended = false → ((0 : ℕ) : WithTop ℕ) < s.phase.remaining := by
    intro hrunning
    cases hphase : s.phase <;> simp [BuildPhase.remaining, hphase, BuildPhase.ended] at hrunning ⊢
  cases hstep with
  | snapshot asOf start authorized selected =>
    rw [start]
    exact WithTop.coe_lt_top _
  | construct constructing examples =>
    rw [constructing]
    exact WithTop.coe_lt_coe.2 (by simp)
  | mkdir making absent =>
    rw [making]
    exact WithTop.coe_lt_coe.2 (by simp)
  | stage createdAt staging staged =>
    rw [staging]
    exact WithTop.coe_lt_coe.2 (by simp)
  | retry checking gone =>
    rw [checking]
    refine WithTop.coe_lt_coe.2 ?_
    have hfewer := length_without_lt gone
    show 2 * (List.filter _ _).length + 6 < 2 * _ + 5
    omega
  | begin_ checking none absent =>
    rw [checking]
    refine WithTop.coe_lt_coe.2 ?_
    show 4 < 2 * _ + 5
    omega
  | put hphase | rename hphase | commit hphase =>
    rw [hphase]
    exact WithTop.coe_lt_coe.2 (by simp)
  | fail error running => exact hend running

/-- **No deleted data.** In every run of a build beside other calls of the storage: a step that
    commits a manifest publishes the directory it is of, whose rows have no tombstone in that
    transaction and are as many as the manifest counts; and a build that has failed leaves manifests
    and destination as it found them. Every build ends: in an infinite run only finitely many steps
    are its. -/
theorem build_spec (sv : BuildServices) (spec : BuildSpecification) (identity : Identity)
    (environment version : String) {s₀ : BuildSystem} (hstart : s₀.phase = .start)
    {calls : List StorageCall} (hstore : s₀.store = ({} : Store).after calls) :
    (∀ s, Relation.ReflTransGen (Step sv spec identity environment version) s₀ s →
      (∀ t, Step sv spec identity environment version s t → t.manifests ≠ s.manifests →
        ∃ d, t.manifests = s.manifests ++ [((spec.datasetId, version), d.manifest)] ∧
          t.destination = .holds d ∧
          (∀ shard ∈ d.shards, ∀ e ∈ shard.examples,
            Undeleted sv.revision spec.purpose t.store shard e) ∧
          ∀ split, d.manifest.examples split = ((d.shards.filter (·.split = split)).map
            fun shard => (shard.rows sv.revision).length).sum) ∧
      ∀ error, s.phase = .raised error →
        s.manifests = s₀.manifests ∧ s.destination = s₀.destination) ∧
    ∀ run : ℕ → BuildSystem,
      (∀ n, Step sv spec identity environment version (run n) (run (n + 1))) →
        ∃ N, ∀ n ≥ N, ¬BuildStep sv spec identity environment version (run n) (run (n + 1)) := by
  have hinit : BuildInv sv spec version s₀ s₀ := by
    refine ⟨hstore ▸ Stored.Store.PrivacyInv.init.after calls, ?_⟩
    rw [hstart]
    exact ⟨rfl, rfl⟩
  refine ⟨fun s hrun => ?_, fun run hrun => ?_⟩
  · have hkeep : ∀ s t, BuildInv sv spec version s₀ s →
        Step sv spec identity environment version s t → BuildInv sv spec version s₀ t :=
      fun _ _ h hstep => h.step hstep
    have h := Runs.reflTransGen_of_invariant hkeep hinit hrun
    have hphase := h.phase
    refine ⟨fun t hstep hnew => ?_, fun error hraised => ?_⟩
    · cases hstep with
      | call call houtside => exact absurd rfl hnew
      | build hbuild =>
        -- only the commit changes the table
        cases hbuild with
        | commit committing =>
          rw [committing] at hphase
          obtain ⟨-, hjob, hstaged, hdestination, -, hnone⟩ := hphase
          exact ⟨_, rfl, hdestination, fun shard hshard e he => hjob.undeleted hstaged hnone hshard he,
            hjob.counts hstaged⟩
        | _ => exact absurd rfl hnew
    · rw [hraised] at hphase
      exact ⟨hphase.manifests, hphase.destination⟩
  · refine Runs.eventually_not (fun s : BuildSystem => s.phase.remaining) ?_ ?_ hrun
    · intro s t hstep
      cases hstep with
      | build hbuild => exact hbuild.remaining_lt.le
      | call call houtside => exact le_refl _
    · exact fun s t _ hbuild => hbuild.remaining_lt

end Steps

/-! ## One build

Two interactions of one tenant, of which the second is deleted between the staging and the
transaction. The build comes to the transaction twice, and what it publishes has one row. -/

namespace Samples

open Stored (Interaction)

/-- An interaction without a subject. -/
def interaction : Interaction :=
  { Stored.SupportStore.interaction with
    subjectIdPseudonymous := none
    others := [("environment", .str "local")] }

/-- The same under another id. -/
def interactionOf (id : String) : Interaction := { interaction with interactionId := id }

/-- The interaction with its one attempt. -/
def graph (id : String) : Stored.InteractionGraph where
  interaction := interactionOf id
  started := { interactionId := id }
  retrieval := none
  route := none
  attempts := [{ attemptId := id, interactionId := id }]

/-- The call that saves it, with references from the `n`th on. -/
def save (n : ℕ) (id : String) : StorageCall :=
  .save (Stored.SupportStore.services n) (graph id) none
    { messagesJson := some "messages", query := some "query" } "print" 0

/-- Two interactions are saved before the build, -/
def saved : List StorageCall := [save 0 "i1", save 5 "i2"]

/-- and the second is deleted while it runs. -/
def deletion : StorageCall := .delete (Stored.SupportStore.services 8) "acme" "i2" none

/-- The store that the build reads. -/
def store : Store := ({} : Store).after saved

/-- A specification of one tenant. -/
def specification : BuildSpecification where
  timeSplit := some ⟨5, 10, by decide⟩
  datasetId := "tickets"
  purpose := .routerTraining
  tenantIds := ["acme"]
  sourceWindow := ⟨0, 10, by decide⟩
  eligibilityPolicyVersion := "v1"
  nearDuplicateThreshold := 4 / 5
  generalSafetyFraction := 1 / 5
  distinctTenants := by simp
  thresholdNonneg := by norm_num

/-- Observes every candidate. -/
def buildServices : BuildServices where
  decide _ :=
    { policyVersion := "v1", processingAllowed := true, trainingAllowed := true,
      evaluationAllowed := true }
  recordReasons _ _ _ := []
  unicode := ascii
  shuffle := ⟨fun _ l => l, fun _ l => .refl l⟩
  golden := []
  revision := "unknown"
  datasetHash text := text
  sha256 text := text
  dumpPair _ target := target
  construct _ _ _ _ := .error .failed
  observe := some fun _ c => .ok (some
    { families := [], targetSource := "production_output", language := "en",
      exactHash := c.interaction.interactionId, text := "", row := [] })
  sourceRows := none
  teach _ _ := .error .failed
  tensors _ := none
  fixtures := []

theorem sortedTenants_eq : specification.sortedTenants = ["acme"] := by
  simp [BuildSpecification.sortedTenants, specification]

/-- What the store has of an interaction. -/
def stored (id reference : String) : Interaction :=
  { interactionOf id with input := { messagesRef := some reference } }

/-- The interaction as the build reads it. -/
def candidate (id reference : String) : Example :=
  ⟨stored id reference, buildServices.decide (stored id reference)⟩

/-- The two candidates. -/
def candidates : List Example := [candidate "i1" "0", candidate "i2" "5"]

theorem inWindow_store : inWindow store "acme" specification.sourceWindow =
    .ok (candidates.map (·.interaction)) := by
  unfold inWindow
  obtain ⟨rows, hrows, hsorted, hparse⟩ : ∃ rows, (store.records.filter fun row =>
      row.kind = .interactions && row.tenantId = "acme" && row.startedAt.any fun time =>
        specification.sourceWindow.startAt ≤ time && time < specification.sourceWindow.endAt) = rows ∧
      rows.map (fun row => (row.startedAt, row.recordId)) = [(some 0, "i1"), (some 0, "i2")] ∧
      Stored.Store.parseAll rows = .ok (candidates.map (·.interaction)) := ⟨_, rfl, rfl, rfl⟩
  rw [hrows, List.mergeSort_of_pairwise, hparse]
  have hkeys : (rows.map fun row => (row.startedAt, row.recordId)).Pairwise fun a b =>
      (a.1.getD 0 < b.1.getD 0 || a.1.getD 0 = b.1.getD 0 && a.2 ≤ b.2) = true := by
    rw [hsorted]
    decide
  exact List.pairwise_map.1 hkeys

theorem select_store : select buildServices.toEligibilityServices store specification 5 =
    .ok { examples := candidates, considered := 2 } := by
  have htenant : considerTenant buildServices.toEligibilityServices store specification 5 {} "acme" =
      .ok { examples := candidates, considered := 2 } := by
    unfold considerTenant
    rw [inWindow_store]
    rfl
  unfold select
  rw [sortedTenants_eq]
  simp only [List.foldlM_cons, htenant, Except.ok_bind, List.foldlM_nil, pure_bind]
  rw [List.mergeSort_of_pairwise (by decide)]

/-- What the build makes of a candidate. -/
def observed (id reference : String) : BuiltExample :=
  builtFrom (candidate id reference)
    { families := [], targetSource := "production_output", language := "en", exactHash := id,
      text := "", row := [] }

/-- The examples of the two. -/
def examples : List BuiltExample := [observed "i1" "0", observed "i2" "5"]

/-- A build with the two candidates. -/
def job : Job where
  asOf := 5
  considered := 2
  candidates := candidates
  built := { examples, exclusions := fun _ => 0 }

theorem buildExamples_candidates : buildExamples buildServices store specification "local" 5
    { examples := candidates, considered := 2 } = .ok job.built := rfl

theorem sortExamples_examples : sortExamples examples = examples :=
  List.mergeSort_of_pairwise (by decide)

theorem sortExamples_first : sortExamples [observed "i1" "0"] = [observed "i1" "0"] :=
  List.mergeSort_singleton ..

/-- A build whose examples are those that the training split takes. -/
theorem stage_train {considered : ℕ} {built : Built} (hplain : built.softTargets = none)
    (hne : built.examples ≠ []) {splits : Split → List BuiltExample}
    (hsplits : splitExamples buildServices.shuffle built.examples
      specification.toDatasetSpecification = some splits)
    (htrain : splits .train = built.examples) :
    ∃ d, stage buildServices specification "v" 5 6 considered built = .ok d ∧
      d.manifest.examples .train = built.examples.length := by
  have hst : staging buildServices specification built =
      .ok ⟨built.examples, splits, built.exclusions⟩ := by
    have h : stageSplits buildServices specification false built.examples = .ok splits := by
      unfold stageSplits
      rw [hsplits]
      rfl
    unfold staging
    rw [hplain]
    show (stageSplits buildServices specification false built.examples >>= _) = _
    rw [h]
    show (if (splits .train).length < 1 then _ else _) = _
    rw [htrain, if_neg (by simpa using hne)]
  unfold stage
  rw [hst]
  refine ⟨_, rfl, ?_⟩
  show (splits .train).length = built.examples.length
  rw [htrain]

theorem split_examples : ∃ splits, splitExamples buildServices.shuffle examples
    specification.toDatasetSpecification = some splits ∧ splits .train = examples := by
  unfold splitExamples
  rw [sortExamples_examples]
  exact ⟨_, rfl, sortExamples_examples⟩

theorem split_first : ∃ splits, splitExamples buildServices.shuffle [observed "i1" "0"]
    specification.toDatasetSpecification = some splits ∧ splits .train = [observed "i1" "0"] := by
  unfold splitExamples
  rw [sortExamples_first]
  exact ⟨_, rfl, sortExamples_first⟩

/-- An operator of the tenant. -/
def operator : Identity :=
  { subjectIdPseudonymous := none, keyClass := .operator, datasetTenants := ["acme"] }

theorem deleted_job : deleted (store.call deletion) job.candidates = [("acme", "i2")] := by
  decide +kernel

theorem without_candidates : (job.without [("acme", "i2")]).candidates = [candidate "i1" "0"] := rfl

end Samples

open Samples in
/-- A router's build of two observations. The second is deleted while they are staged, so the build
    stages again, and publishes the first. -/
theorem observation_published : ∃ (s t : BuildSystem) (d : Directory),
    Relation.ReflTransGen (Step buildServices specification operator "local" "v") { store } s ∧
      Step buildServices specification operator "local" "v" s t ∧
      t.store.Tombstoned "acme" "i2" ∧
      t.manifests = [(("tickets", "v"), d.manifest)] ∧ t.destination = .holds d ∧
      d.manifest.examples .train = 1 ∧ ∀ shard ∈ d.shards, ∀ e ∈ shard.examples,
        ¬t.store.Tombstoned shard.tenantId e.interactionId := by
  obtain ⟨splits₁, hsplits₁, htrain₁⟩ := split_examples
  obtain ⟨d₁, hstage₁, -⟩ : ∃ d, stage buildServices specification "v" 5 6 2 job.built = .ok d ∧ _ :=
    stage_train rfl (by decide) hsplits₁ htrain₁
  obtain ⟨splits, hsplits, htrain⟩ := split_first
  obtain ⟨d, hstage, hcount⟩ : ∃ d, stage buildServices specification "v" 5 6 2
      (job.without [("acme", "i2")]).built = .ok d ∧ d.manifest.examples .train = 1 :=
    stage_train rfl (by decide) hsplits htrain
  have hgone : deleted (store.call deletion) job.candidates = [("acme", "i2")] := deleted_job
  have hnone : deleted (store.call deletion) (job.without [("acme", "i2")]).candidates = [] := by
    rw [without_candidates]
    decide +kernel
  have htombstone : (store.call deletion).Tombstoned "acme" "i2" := by
    unfold Stored.Store.Tombstoned
    decide +kernel
  -- the build stages both, and finds the deletion
  obtain ⟨s₁, hrun₁, hphase₁, hstore₁, hmanifests₁, hdestination₁⟩ : ∃ s, Relation.ReflTransGen
      (Step buildServices specification operator "local" "v") { store } s ∧
        s.phase = .staging (job.without [("acme", "i2")]) ∧ s.store = store.call deletion ∧
        s.manifests = [] ∧ s.destination = .absent := by
    refine ⟨_, .tail (.tail (.tail (.tail (.tail (.tail .refl
      (.build (.snapshot 5 rfl rfl select_store)))
      (.build (.construct rfl buildExamples_candidates))) (.build (.mkdir rfl rfl)))
      (.build (.stage 6 rfl hstage₁))) (.call deletion rfl))
      (.build (.retry rfl (ne_of_eq_of_ne hgone (List.cons_ne_nil _ _)))), ?_, rfl, rfl, rfl⟩
    exact congrArg (fun gone => BuildPhase.staging (job.without gone)) hgone
  -- then it stages the first alone
  obtain ⟨s, hrun, hphase, hstore, hmanifests⟩ : ∃ s, Relation.ReflTransGen
      (Step buildServices specification operator "local" "v") s₁ s ∧
        s.phase = .committing (job.without [("acme", "i2")]) d ∧ s.store = store.call deletion ∧
        s.manifests = [] :=
    ⟨_, .tail (.tail (.tail (.tail .refl (.build (.stage 6 hphase₁ hstage)))
      (.build (.begin_ rfl (by rw [hstore₁]; exact hnone) hdestination₁)))
      (.build (.put rfl (by rw [hmanifests₁]; exact List.not_mem_nil)))) (.build (.rename rfl)),
      rfl, hstore₁, hmanifests₁⟩
  have hreached := hrun₁.trans hrun
  have hcommit : Step buildServices specification operator "local" "v" s _ := .build (.commit hphase)
  obtain ⟨d', hmanifests', hdestination, hundeleted, -⟩ :=
    ((@build_spec buildServices specification operator "local" "v" { store } rfl saved rfl).1 s
      hreached).1 _ hcommit (by simp)
  refine ⟨s, _, d', hreached, hcommit, by rw [hstore]; exact htombstone,
    by rw [hmanifests', hmanifests]; rfl, hdestination, ?_,
    fun shard hshard e he => (hundeleted shard hshard e he).interaction⟩
  have hsame : d'.manifest = d.manifest := by simpa using hmanifests'.symm
  rw [hsame, hcount]

end Datasets

end AdaptiveLlm
