import AdaptiveLlm.Lib.Bytes
import AdaptiveLlm.Lib.Runs
import AdaptiveLlm.Storage.RestorePairs
import Mathlib.Tactic.Common

set_option autoImplicit false

/-! # Backing up a pair of databases

`backup_pair` (`storage/operations.py`) begins a transaction on the tenant database and one on the control
database, copies both files while nobody can write to either, and ends the transactions; the copies are in
a directory of its own until one renaming publishes it. Other processes write whenever they get a lock,
several backups may run, and each may fail or be killed anywhere.

A backup holds both write locks while it copies, so both copies are of the states between the same
two commits of either database. Its `pair.json` has the hashes of the copies and a mark that was
drawn for this backup, which is why files of different backups do not pass for a pair. The directory
appears under its name only complete, by one rename. Failures and kills may leave anything
elsewhere. -/

namespace AdaptiveLlm

namespace Backups

/-! ## Backups and writers -/

/-- A call of `backup_pair`. -/
structure Call where
  output : String
  version : String
  /-- how many commits there were before the call -/
  started : ℕ

/-- How far a call of `backup_pair` has come. -/
inductive Stage where
  | staging
  /-- holds the lock of the tenant database -/
  | fenced
  /-- holds both locks -/
  | locked
  | copied (tenant : List UInt8)
  | copiedBoth (tenant control : List UInt8)
  /-- both transactions have ended -/
  | closed (tenant control : List UInt8)

/-- A backup that was published. -/
structure Published extends Call where
  /-- how many commits there were when it was published -/
  ended : ℕ
  file : Role → List UInt8

/-- The two databases, their locks, the calls and the directories of the backups. -/
structure System where
  live : Role → Database
  /-- what the databases were before each commit -/
  past : List (Role → Database) := []
  /-- who holds the lock of writers -/
  holder : Role → Option ℕ := fun _ => none
  calls : ℕ → Option (Call × Stage) := fun _ => none
  /-- the versions that were made up -/
  versions : List String := []
  outputs : String → Option Directory := fun _ => none
  published : List Published := []

namespace System

/-- The databases as they were after each number of commits. -/
def moments (s : System) : List (Role → Database) := s.past ++ [s.live]

/-- A call goes on. -/
def setCall (s : System) (i : ℕ) (call : Option (Call × Stage)) : System :=
  { s with calls := Function.update s.calls i call }

/-- The lock of a database changes hands. -/
def setHolder (s : System) (role : Role) (i : Option ℕ) : System :=
  { s with holder := Function.update s.holder role i }

/-- What `i` holds is free. -/
def release (s : System) (i : ℕ) : System :=
  { s with holder := fun role => if s.holder role = some i then none else s.holder role }

/-- A writer commits. -/
def commit (s : System) (role : Role) (db : Database) : System :=
  { s with past := s.past ++ [s.live], live := Function.update s.live role db }

/-- A version is taken by a call. -/
def makeUp (s : System) (version : String) : System := { s with versions := version :: s.versions }

/-- The directory of a backup changes. -/
def setOutput (s : System) (output : String) (directory : Option Directory) : System :=
  { s with outputs := Function.update s.outputs output directory }

/-- A backup is published. -/
def log (s : System) (b : Published) : System := { s with published := s.published ++ [b] }

theorem calls_setCall_self (s : System) (i : ℕ) (call : Option (Call × Stage)) :
    (s.setCall i call).calls i = call := Function.update_self ..

theorem holder_setHolder_self (s : System) (role : Role) (i : Option ℕ) :
    (s.setHolder role i).holder role = i := Function.update_self ..

theorem holder_setHolder_of_ne (s : System) {role role' : Role} (i : Option ℕ) (h : role' ≠ role) :
    (s.setHolder role i).holder role' = s.holder role' := Function.update_of_ne h ..

end System

/-- The directory that a backup writes. -/
def Published.directory (env : Environment) (b : Published) : Directory where
  file role := some (b.file role)
  pair := some { version := b.version, hashes := fun role => env.sha256 (b.file role) }

/-- The copies of a backup. -/
def copies (tenant control : List UInt8) : Role → List UInt8
  | .tenant => tenant
  | .control => control

section Step

variable (env : Environment)

/-- One writer or one call goes on, or somebody changes the files. -/
inductive Step : System → System → Prop
  /-- a writer begins -/
  | write {s : System} {i : ℕ} {role : Role} (writer : s.calls i = none) (free : s.holder role = none) :
      Step s (s.setHolder role (some i))
  | commit {s : System} {i : ℕ} {role : Role} {db : Database} (writer : s.calls i = none)
      (holds : s.holder role = some i) (migrated : env.Migrated role db) :
      Step s ((s.commit role db).setHolder role none)
  | rollback {s : System} {i : ℕ} (writer : s.calls i = none) : Step s (s.release i)
  | call {s : System} {i : ℕ} {output version : String} (idle : s.calls i = none)
      (holdsNothing : ∀ role, s.holder role ≠ some i) (missing : s.outputs output = none)
      (unique : version ∉ s.versions) :
      Step s ((s.makeUp version).setCall i (some (⟨output, version, s.past.length⟩, .staging)))
  | fence {s : System} {i : ℕ} {call : Call} (staging : s.calls i = some (call, .staging))
      (free : s.holder .tenant = none) :
      Step s ((s.setHolder .tenant (some i)).setCall i (some (call, .fenced)))
  | lock {s : System} {i : ℕ} {call : Call} (fenced : s.calls i = some (call, .fenced))
      (free : s.holder .control = none) :
      Step s ((s.setHolder .control (some i)).setCall i (some (call, .locked)))
  | copyTenant {s : System} {i : ℕ} {call : Call} {db : Database} {bytes : List UInt8}
      (locked : s.calls i = some (call, .locked))
      (marked : (s.live .tenant).createTable (markTable call.version .tenant) = some db)
      (written : env.read bytes = some db) : Step s (s.setCall i (some (call, .copied bytes)))
  | copyControl {s : System} {i : ℕ} {call : Call} {db : Database} {tenant bytes : List UInt8}
      (copied : s.calls i = some (call, .copied tenant))
      (marked : (s.live .control).createTable (markTable call.version .control) = some db)
      (written : env.read bytes = some db) : Step s (s.setCall i (some (call, .copiedBoth tenant bytes)))
  | close {s : System} {i : ℕ} {call : Call} {tenant control : List UInt8}
      (copied : s.calls i = some (call, .copiedBoth tenant control)) :
      Step s ((s.release i).setCall i (some (call, .closed tenant control)))
  | publish {s : System} {i : ℕ} {call : Call} {tenant control : List UInt8} {b : Published}
      (closed : s.calls i = some (call, .closed tenant control)) (missing : s.outputs call.output = none)
      (written : b = ⟨call, s.past.length, copies tenant control⟩) :
      Step s (((s.setOutput call.output (some (b.directory env))).log b).setCall i none)
  /-- an exception, or the end of the process -/
  | fail {s : System} (i : ℕ) : Step s ((s.release i).setCall i none)
  /-- somebody changes or removes what is published -/
  | alter {s : System} (output : String) (directory : Option Directory) :
      Step s (s.setOutput output directory)

/-- Runs from two migrated databases. -/
def Reachable (s : System) : Prop :=
  ∃ live, (∀ role, env.Migrated role (live role)) ∧ Relation.ReflTransGen (Step env) { live } s

end Step

/-! ## A backup is of one moment

Between the two locks and the end of the copies no commit can come. The moment of a backup is
therefore a pair of numbers of commits, and every file that it leaves is of that pair. -/

section Moments

variable {env : Environment}

/-- The copies are of the databases after the same number of commits, not fewer than `started` and not more
    than `ended`. -/
def AtOneMoment (env : Environment) (s : System) (call : Call) (ended : ℕ)
    (file : Role → List UInt8) : Prop :=
  ∃ k moment, call.started ≤ k ∧ k ≤ ended ∧ s.moments[k]? = some moment ∧
    ∀ role, env.read (file role) = some (mark call.version role (moment role))

/-- What a call has reached. -/
def Stage.Holds (env : Environment) (s : System) (i : ℕ) (call : Call) : Stage → Prop
  | .staging => True
  | .fenced => s.holder .tenant = some i
  | .locked => s.holder .tenant = some i ∧ s.holder .control = some i
  | .copied tenant => (s.holder .tenant = some i ∧ s.holder .control = some i) ∧
      env.read tenant = some (mark call.version .tenant (s.live .tenant))
  | .copiedBoth tenant control => (s.holder .tenant = some i ∧ s.holder .control = some i) ∧
      env.read tenant = some (mark call.version .tenant (s.live .tenant)) ∧
      env.read control = some (mark call.version .control (s.live .control))
  | .closed tenant control => AtOneMoment env s call s.past.length (copies tenant control)

/-- What holds after every step. -/
structure Sound (env : Environment) (s : System) : Prop where
  migrated : ∀ moment ∈ s.moments, ∀ role, env.Migrated role (moment role)
  stage : ∀ i call stage, s.calls i = some (call, stage) → stage.Holds env s i call
  started : ∀ i call stage, s.calls i = some (call, stage) → call.started ≤ s.past.length ∧
    call.version ∈ s.versions ∧ ∀ b ∈ s.published, b.version ≠ call.version
  /-- a version belongs to one call -/
  version : ∀ i j call call' stage stage', s.calls i = some (call, stage) →
    s.calls j = some (call', stage') → call.version = call'.version → i = j
  published : ∀ b ∈ s.published, b.ended ≤ s.past.length ∧ b.version ∈ s.versions ∧
    AtOneMoment env s b.toCall b.ended b.file
  unique : ∀ b ∈ s.published, ∀ b' ∈ s.published, b.version = b'.version → b = b'

theorem AtOneMoment.mono {s s' : System} {call : Call} {ended ended' : ℕ} {file : Role → List UInt8}
    (h : AtOneMoment env s call ended file) (hmoments : s.moments <+: s'.moments)
    (hended : ended ≤ ended') : AtOneMoment env s' call ended' file := by
  obtain ⟨k, moment, hstarted, hk, hmoment, hread⟩ := h
  obtain ⟨more, hmore⟩ := hmoments
  obtain ⟨hlt, -⟩ := List.getElem?_eq_some_iff.1 hmoment
  exact ⟨k, moment, hstarted, hk.trans hended, by rw [← hmore, List.getElem?_append_left hlt,
    hmoment], hread⟩

theorem length_past_le {s s' : System} (h : s.moments <+: s'.moments) : s.past.length ≤ s'.past.length := by
  have := h.length_le
  simp only [System.moments, List.length_append, List.length_singleton] at this
  omega

/-- What a call has reached stays so where nobody takes its locks or writes under them. -/
theorem Stage.Holds.of_agree {s s' : System} {i : ℕ} {call : Call} {stage : Stage}
    (h : stage.Holds env s i call) (hmoments : s.moments <+: s'.moments)
    (hagree : ∀ role, s.holder role = some i → s'.holder role = some i ∧ s'.live role = s.live role) :
    stage.Holds env s' i call := by
  cases stage with
  | staging => trivial
  | fenced => exact (hagree _ h).1
  | locked => exact ⟨(hagree _ h.1).1, (hagree _ h.2).1⟩
  | copied tenant =>
    obtain ⟨⟨htenant, hcontrol⟩, hread⟩ := h
    exact ⟨⟨(hagree _ htenant).1, (hagree _ hcontrol).1⟩, by rw [(hagree _ htenant).2, hread]⟩
  | copiedBoth tenant control =>
    obtain ⟨⟨htenant, hcontrol⟩, hread, hread'⟩ := h
    exact ⟨⟨(hagree _ htenant).1, (hagree _ hcontrol).1⟩, by rw [(hagree _ htenant).2, hread],
      by rw [(hagree _ hcontrol).2, hread']⟩
  | closed tenant control => exact AtOneMoment.mono h hmoments (length_past_le hmoments)

namespace Sound

variable {s s' : System} {i : ℕ}

theorem initial {live : Role → Database} (hlive : ∀ role, env.Migrated role (live role)) :
    Sound env { live } where
  migrated := by
    intro moment hmoment
    obtain rfl := List.mem_singleton.1 hmoment
    exact hlive
  stage := by simp
  started := by simp
  version := by simp
  published := by simp
  unique := by simp

/-- What a step of `i` has to keep, where it publishes nothing. -/
theorem change (h : Sound env s) (hcalls : ∀ j ≠ i, s'.calls j = s.calls j)
    (hmoments : s.moments <+: s'.moments) (hmigrated : ∀ role, env.Migrated role (s'.live role))
    (hpast : s'.past <+: s.moments) (hversions : s.versions ⊆ s'.versions)
    (hpublished : s'.published = s.published)
    (hagree : ∀ j ≠ i, ∀ role, s.holder role = some j →
      s'.holder role = some j ∧ s'.live role = s.live role)
    (hcall : ∀ call stage, s'.calls i = some (call, stage) → stage.Holds env s' i call ∧
      call.started ≤ s'.past.length ∧ call.version ∈ s'.versions ∧
      (∀ b ∈ s.published, b.version ≠ call.version) ∧
      ∀ j ≠ i, ∀ call' stage', s.calls j = some (call', stage') → call'.version ≠ call.version) :
    Sound env s' where
  migrated := by
    intro moment hmoment
    rcases List.mem_append.1 hmoment with hold | hlive
    · exact h.migrated moment (hpast.subset hold)
    · rw [List.mem_singleton.1 hlive]
      exact hmigrated
  stage j call stage hstage := by
    rcases eq_or_ne j i with rfl | hj
    · exact (hcall call stage hstage).1
    · rw [hcalls j hj] at hstage
      exact (h.stage j call stage hstage).of_agree hmoments (hagree j hj)
  started j call stage hstage := by
    rcases eq_or_ne j i with rfl | hj
    · obtain ⟨-, hstarted, hversion, hfresh, -⟩ := hcall call stage hstage
      exact ⟨hstarted, hversion, by rwa [hpublished]⟩
    · rw [hcalls j hj] at hstage
      obtain ⟨hstarted, hversion, hfresh⟩ := h.started j call stage hstage
      exact ⟨hstarted.trans (length_past_le hmoments), hversions hversion, by rwa [hpublished]⟩
  version j k call call' stage stage' hj hk hsame := by
    by_cases hji : j = i <;> by_cases hki : k = i
    · rw [hji, hki]
    · subst hji
      rw [hcalls k hki] at hk
      exact absurd hsame.symm ((hcall call stage hj).2.2.2.2 k hki call' stage' hk)
    · subst hki
      rw [hcalls j hji] at hj
      exact absurd hsame ((hcall call' stage' hk).2.2.2.2 j hji call stage hj)
    · rw [hcalls j hji] at hj
      rw [hcalls k hki] at hk
      exact h.version j k call call' stage stage' hj hk hsame
  published b hb := by
    rw [hpublished] at hb
    obtain ⟨hended, hversion, hmoment⟩ := h.published b hb
    exact ⟨hended.trans (length_past_le hmoments), hversions hversion, hmoment.mono hmoments le_rfl⟩
  unique := by
    rw [hpublished]
    exact h.unique

/-- The databases are as they were. -/
theorem keep (h : Sound env s) (hcalls : ∀ j ≠ i, s'.calls j = s.calls j) (hlive : s'.live = s.live)
    (hpast : s'.past = s.past) (hversions : s.versions ⊆ s'.versions) (hpublished : s'.published =
      s.published)
    (hagree : ∀ j ≠ i, ∀ role, s.holder role = some j → s'.holder role = some j)
    (hcall : ∀ call stage, s'.calls i = some (call, stage) → stage.Holds env s' i call ∧
      call.started ≤ s'.past.length ∧ call.version ∈ s'.versions ∧
      (∀ b ∈ s.published, b.version ≠ call.version) ∧
      ∀ j ≠ i, ∀ call' stage', s.calls j = some (call', stage') → call'.version ≠ call.version) :
    Sound env s' := by
  have hmoments : s'.moments = s.moments := by rw [System.moments, System.moments, hpast, hlive]
  refine h.change hcalls (hmoments ▸ List.prefix_refl _) ?_ ?_ hversions hpublished
    (fun j hj role hholder => ⟨hagree j hj role hholder, by rw [hlive]⟩) hcall
  · rw [hlive]
    exact h.migrated s.live (by simp [System.moments])
  · rw [hpast]
    exact List.prefix_append ..

/-- A call goes on to its next stage. -/
theorem next (h : Sound env s) {call : Call} {stage stage' : Stage}
    (hstage : s.calls i = some (call, stage))
    (hcalls : s'.calls = Function.update s.calls i (some (call, stage'))) (hlive : s'.live = s.live)
    (hpast : s'.past = s.past) (hversions : s'.versions = s.versions)
    (hpublished : s'.published = s.published)
    (hagree : ∀ j ≠ i, ∀ role, s.holder role = some j → s'.holder role = some j)
    (hholds : stage'.Holds env s' i call) : Sound env s' := by
  refine h.keep (fun j hj => by rw [hcalls, Function.update_of_ne hj]) hlive hpast
    (hversions ▸ List.Subset.refl _) hpublished hagree fun call' stage'' hcall => ?_
  rw [hcalls, Function.update_self] at hcall
  obtain ⟨rfl, rfl⟩ := Prod.mk.inj (Option.some.inj hcall)
  obtain ⟨hstarted, hversion, hfresh⟩ := h.started i call stage hstage
  refine ⟨hholds, by rwa [hpast], by rwa [hversions], hfresh, fun j hj call' stage'' hj' hsame => hj ?_⟩
  exact h.version j i call' call stage'' stage hj' hstage hsame

/-- A backup is published, and its call is over. -/
theorem publish (h : Sound env s) {call : Call} {tenant control : List UInt8} {b : Published}
    (hclosed : s.calls i = some (call, .closed tenant control)) (hcall : b.toCall = call)
    (hended : b.ended = s.past.length) (hfile : b.file = copies tenant control)
    (directory : Option Directory) :
    Sound env (((s.setOutput call.output directory).log b).setCall i none) := by
  obtain ⟨hstarted, hversion, hfresh⟩ := h.started i call _ hclosed
  have hold : ∀ j call' stage, Function.update s.calls i none j = some (call', stage) →
      j ≠ i ∧ s.calls j = some (call', stage) := by
    intro j call' stage hj
    rcases eq_or_ne j i with rfl | hne
    · rw [Function.update_self] at hj
      cases hj
    · rw [Function.update_of_ne hne] at hj
      exact ⟨hne, hj⟩
  refine ⟨h.migrated, fun j call' stage hj => h.stage j call' stage (hold j call' stage hj).2,
    ?_, ?_, ?_, ?_⟩
  · intro j call' stage hj
    obtain ⟨hne, hj'⟩ := hold j call' stage hj
    obtain ⟨hstarted', hversion', hfresh'⟩ := h.started j call' stage hj'
    refine ⟨hstarted', hversion', fun b' hb' hsame => ?_⟩
    rcases List.mem_append.1 hb' with hbefore | hb'
    · exact hfresh' b' hbefore hsame
    · rw [List.mem_singleton.1 hb', hcall] at hsame
      exact hne (h.version i j call call' _ stage hclosed hj' hsame).symm
  · intro j k callⱼ callₖ stage stage' hj hk
    exact h.version j k callⱼ callₖ stage stage' (hold j callⱼ stage hj).2 (hold k callₖ stage' hk).2
  · intro b' hb'
    rcases List.mem_append.1 hb' with hb' | hb'
    · exact h.published b' hb'
    · obtain rfl := List.mem_singleton.1 hb'
      refine ⟨hended.le, by rwa [hcall], ?_⟩
      rw [hcall, hended, hfile]
      exact h.stage i call _ hclosed
  · intro b₁ hb₁ b₂ hb₂ hsame
    rcases List.mem_append.1 hb₁ with hold₁ | hnew₁ <;> rcases List.mem_append.1 hb₂ with hold₂ | hnew₂
    · exact h.unique b₁ hold₁ b₂ hold₂ hsame
    · rw [List.mem_singleton.1 hnew₂, hcall] at hsame
      exact absurd hsame (hfresh b₁ hold₁)
    · rw [List.mem_singleton.1 hnew₁, hcall] at hsame
      exact absurd hsame.symm (hfresh b₂ hold₂)
    · rw [List.mem_singleton.1 hnew₁, List.mem_singleton.1 hnew₂]

theorem step (h : Sound env s) (hstep : Step env s s') : Sound env s' := by
  have hlive : ∀ role, env.Migrated role (s.live role) := h.migrated s.live (by simp [System.moments])
  -- a lock that was free is nobody else's
  have htaken : ∀ {role : Role} (i : ℕ), s.holder role = none → ∀ j ≠ i, ∀ role', s.holder role' = some j →
      Function.update s.holder role (some i) role' = some j := by
    intro role i hfree j _ role' hholder
    rw [Function.update_of_ne, hholder]
    rintro rfl
    rw [hfree] at hholder
    cases hholder
  have hreleased : ∀ (i : ℕ), ∀ j ≠ i, ∀ role', s.holder role' = some j →
      (s.release i).holder role' = some j := by
    intro i j hj role' hholder
    rw [System.release]
    simp [hholder, hj]
  cases hstep with
  | @write i role writer free =>
    exact h.keep (fun _ _ => rfl) rfl rfl (List.Subset.refl _) rfl (htaken i free)
      (by simp [System.setHolder, writer])
  | @commit i role db writer holds migrated =>
    refine h.change (i := i) (fun _ _ => rfl) (List.prefix_append _ _) (fun role' => ?_)
      (List.prefix_refl _)
      (List.Subset.refl _) rfl (fun j hj role' hholder => ?_)
      (by simp [System.setHolder, System.commit, writer])
    · rcases eq_or_ne role' role with rfl | hrole
      · simpa [System.setHolder, System.commit] using migrated
      · simpa [System.setHolder, System.commit, Function.update_of_ne hrole] using hlive role'
    · have hrole : role' ≠ role := by
        rintro rfl
        exact hj (Option.some.inj (hholder.symm.trans holds))
      simp [System.setHolder, System.commit, Function.update_of_ne hrole, hholder]
  | @rollback i writer =>
    exact h.keep (fun _ _ => rfl) rfl rfl (List.Subset.refl _) rfl (hreleased i)
      (by simp [System.release, writer])
  | @call i output version idle holdsNothing missing unique =>
    refine h.keep (fun j hj => Function.update_of_ne hj ..) rfl rfl (List.subset_cons_self ..) rfl
      (fun _ _ _ hholder => hholder) fun call stage hcall => ?_
    rw [System.calls_setCall_self] at hcall
    obtain ⟨rfl, rfl⟩ := Prod.mk.inj (Option.some.inj hcall)
    refine ⟨trivial, le_rfl, List.mem_cons_self, fun b hb hsame => unique ?_,
      fun j _ call' stage' hj hsame => unique ?_⟩
    · exact (show b.version = version from hsame) ▸ (h.published b hb).2.1
    · exact (show call'.version = version from hsame) ▸ (h.started j call' stage' hj).2.1
  | @fence i call staging free =>
    exact h.next staging rfl rfl rfl rfl rfl (htaken i free)
      (System.holder_setHolder_self s .tenant (some i))
  | @lock i call fenced free =>
    have hheld : s.holder .tenant = some i := h.stage i call _ fenced
    have hkept : (s.setHolder .control (some i)).holder .tenant = some i :=
      (System.holder_setHolder_of_ne s (some i) (by decide)).trans hheld
    exact h.next fenced rfl rfl rfl rfl rfl (htaken i free)
      ⟨hkept, System.holder_setHolder_self s .control (some i)⟩
  | @copyTenant i call db bytes locked marked written =>
    rw [Environment.createTable_markTable (hlive .tenant)] at marked
    refine h.next locked rfl rfl rfl rfl rfl (fun _ _ _ hholder => hholder) ⟨h.stage i call _ locked, ?_⟩
    rw [written, ← marked]
    rfl
  | @copyControl i call db tenant bytes copied marked written =>
    rw [Environment.createTable_markTable (hlive .control)] at marked
    obtain ⟨hheld, hread⟩ := h.stage i call _ copied
    refine h.next copied rfl rfl rfl rfl rfl (fun _ _ _ hholder => hholder) ⟨hheld, hread, ?_⟩
    rw [written, ← marked]
    rfl
  | @close i call tenant control copied =>
    obtain ⟨-, hread, hread'⟩ := h.stage i call _ copied
    refine h.next copied rfl rfl rfl rfl rfl (hreleased i) ?_
    have hlast : s.moments[s.past.length]? = some s.live := by simp [System.moments]
    refine ⟨s.past.length, s.live, (h.started i call _ copied).1, le_rfl, hlast, fun role => ?_⟩
    cases role with
    | tenant => exact hread
    | control => exact hread'
  | @publish i call tenant control b closed missing written =>
    subst written
    exact h.publish closed rfl rfl rfl _
  | fail i =>
    exact h.keep (fun j hj => Function.update_of_ne hj ..) rfl rfl (List.Subset.refl _) rfl (hreleased i)
      (by simp [System.setCall])
  | alter output directory => exact ⟨h.migrated, h.stage, h.started, h.version, h.published, h.unique⟩

theorem of_reachable (hs : Reachable env s) : Sound env s := by
  obtain ⟨live, hlive, hrun⟩ := hs
  exact Runs.reflTransGen_of_invariant (fun _ _ h hstep => h.step hstep) (initial hlive) hrun

end Sound

end Moments

/-! ## What is restored

A restoration trusts nothing that it finds: it compares the hashes and the marks before it touches a
destination. Then it is one transaction, which a failure rolls back. -/

section Restored

variable {env : Environment} {s : System} {dir : Directory} {role : Role}

theorem Role.name_injective : Function.Injective Role.name := by
  intro role role' h
  cases role <;> cases role' <;> simp [name] at h ⊢

/-- A file that passes the checks has the hash of the record and was copied under its version. -/
theorem Environment.of_validate {db : Database} (h : env.validate dir role = some db) :
    ∃ pair bytes, dir.pair = some pair ∧ dir.file role = some bytes ∧ env.sha256 bytes = pair.hashes role ∧
      env.read bytes = some db ∧
      db.select "backup_pair" = some [[.text pair.version, .text role.name]] := by
  simp only [Environment.validate, Option.bind_eq_bind, Option.bind_eq_some_iff, Option.guard_eq_some'] at h
  obtain ⟨pair, hpair, bytes, hbytes, -, hsha, db', hread, -, hmark, versions, -, -, -, hdb⟩ := h
  obtain rfl := Option.some.inj hdb
  exact ⟨pair, bytes, hpair, hbytes, hsha, hread, hmark⟩

/-- The checks pass on the files of a backup. -/
theorem Environment.validate_directory (h : Sound env s) {b : Published} (hb : b ∈ s.published) :
    ∃ moment k, b.started ≤ k ∧ k ≤ b.ended ∧ s.moments[k]? = some moment ∧
      (∀ role, env.Migrated role (moment role)) ∧
      ∀ role, env.read (b.file role) = some (mark b.version role (moment role)) ∧
        env.validate (b.directory env) role = some (mark b.version role (moment role)) := by
  obtain ⟨-, -, k, moment, hstarted, hended, hmoment, hread⟩ := h.published b hb
  have hmigrated := h.migrated moment (List.mem_of_getElem? hmoment)
  refine ⟨moment, k, hstarted, hended, hmoment, hmigrated, fun role => ⟨hread role, ?_⟩⟩
  obtain ⟨versions, hversions, hledger⟩ := (hmigrated role).ledger
  simp [Environment.validate, Published.directory, hread role, Environment.select_mark (hmigrated role),
    Environment.versions_mark hversions, hledger]

/-- The record is that of a published backup, or each file was copied by one. -/
def Directory.Genuine (env : Environment) (s : System) (dir : Directory) : Prop :=
  (∃ b ∈ s.published, dir.pair = (b.directory env).pair) ∨
    ∀ role, ∃ b ∈ s.published, ∃ role', dir.file role = some (b.file role')

/-- Files that pass the checks together are those of one backup. -/
theorem Directory.Genuine.exists_backup (h : Sound env s) (hsha : Function.Injective env.sha256)
    (hgenuine : dir.Genuine env s) (hvalid : ∀ role, (env.validate dir role).isSome) :
    ∃ b ∈ s.published, ∀ role, dir.file role = some (b.file role) := by
  have hchecked : ∀ role, ∃ db, env.validate dir role = some db := fun role =>
    Option.isSome_iff_exists.1 (hvalid role)
  rcases hgenuine with ⟨b, hb, hpair⟩ | hfiles
  · refine ⟨b, hb, fun role => ?_⟩
    obtain ⟨db, hdb⟩ := hchecked role
    obtain ⟨pair, bytes, hpair', hbytes, hhash, -, -⟩ := Environment.of_validate hdb
    obtain rfl := Option.some.inj (hpair.symm.trans hpair')
    rw [hbytes, hsha hhash]
  · -- the mark in a file tells the version and the role
    have hmark : ∀ role, ∃ b ∈ s.published, dir.file role = some (b.file role) ∧
        dir.pair.map (·.version) = some b.version := by
      intro role
      obtain ⟨db, hdb⟩ := hchecked role
      obtain ⟨pair, bytes, hpair, hbytes, -, hread, hselect⟩ := Environment.of_validate hdb
      obtain ⟨b, hb, role', hfile⟩ := hfiles role
      obtain ⟨moment, k, -, -, -, hmigrated, hcopies⟩ := Environment.validate_directory h hb
      obtain rfl := Option.some.inj (hbytes.symm.trans hfile)
      obtain rfl := Option.some.inj (hread.symm.trans (hcopies role').1)
      rw [Environment.select_mark (hmigrated role')] at hselect
      simp only [Option.some.injEq, List.cons.injEq, Cell.text.injEq, and_true] at hselect
      obtain ⟨hversion, hrole⟩ := hselect
      obtain rfl := Role.name_injective hrole
      exact ⟨b, hb, hfile, by rw [hpair, Option.map_some, hversion]⟩
    obtain ⟨b, hb, hfile, hversion⟩ := hmark .tenant
    obtain ⟨b', hb', hfile', hversion'⟩ := hmark .control
    obtain rfl := h.unique b hb b' hb' (Option.some.inj (hversion.symm.trans hversion'))
    refine ⟨b, hb, fun role => ?_⟩
    cases role with
    | tenant => exact hfile
    | control => exact hfile'

variable {overlapping : Role → Bool} {destinations : Role → Option Database}

theorem of_plan {restored : Role → Database} (h : plan env overlapping destinations dir = some restored) :
    ∀ role, ∃ db, env.validate dir role = some db ∧
      transfer db ((destinations role).getD {}) = some (restored role) := by
  simp only [plan, Option.bind_eq_bind, Option.bind_eq_some_iff, Option.guard_eq_some'] at h
  obtain ⟨-, -, tenant, htenant, -, -, control, hcontrol, tenant', htransfer, control',
    htransfer', hrestored⟩ := h
  obtain rfl := Option.some.inj hrestored
  intro role
  cases role with
  | tenant => exact ⟨tenant, htenant, htransfer⟩
  | control => exact ⟨control, hcontrol, htransfer'⟩

/-- A destination that is missing, or that the migrations made. -/
def Replaceable (destinations : Role → Option Database) : Prop :=
  ∀ role, ((destinations role).getD {}).WellFormed ∧ ((destinations role).getD {}).others = []

/-- **A restored pair is of one moment.** Whatever happened between the commits, the backups and the
    restoration, and to the files: from a directory with the record of a published backup, or with files of
    published backups in any arrangement, `restore_pair` at a replaceable place (nothing there, or databases
    that the migrations made) either gives both databases what they held after one and the same commit
    between the call of that backup and its end, or leaves to both what they held. -/
theorem restored_pair_at_one_moment (hsha : Function.Injective env.sha256) (hs : Reachable env s)
    (hgenuine : dir.Genuine env s) (hdestinations : Replaceable destinations) (overlapping : Role → Bool)
    (force : Bool) (interruption : Interruption) :
    let result := restorePair env (some dir) overlapping destinations force interruption
    (result.1 = .restored ∧ ∃ b ∈ s.published, ∃ k moment, b.started ≤ k ∧ k ≤ b.ended ∧
      s.moments[k]? = some moment ∧ ∀ role, result.2 role = some (moment role)) ∨
    (result.1 ≠ .restored ∧ ∀ role, ∀ db ∈ destinations role, result.2 role = some db) := by
  have h := Sound.of_reachable hs
  intro result
  by_cases hexists : (((destinations .tenant).isSome || (destinations .control).isSome) && !force) = true
  · have hresult : result = (.failed "restore_destination_exists", destinations) := if_pos hexists
    exact .inr ⟨by simp [hresult], fun role db hdb => by rw [hresult]; exact hdb⟩
  cases interruption with
  | killed created =>
    have hresult : result = (.killed, fun role =>
        if created role then some ((destinations role).getD {}) else destinations role) := if_neg hexists
    refine .inr ⟨by simp [hresult], fun role db hdb => ?_⟩
    rw [hresult]
    simp [Option.mem_def.1 hdb]
  | raised =>
    have hresult : result = (.failed "restore_pair_failed", destinations) := if_neg hexists
    exact .inr ⟨by simp [hresult], fun role db hdb => by rw [hresult]; exact hdb⟩
  | none =>
    cases hplan : plan env overlapping destinations dir with
    | none =>
      have hresult : result = (.failed "restore_pair_failed", destinations) := by
        show restorePair env (some dir) overlapping destinations force .none = _
        unfold restorePair
        rw [if_neg hexists]
        simp only [hplan]
      exact .inr ⟨by simp [hresult], fun role db hdb => by rw [hresult]; exact hdb⟩
    | some restored =>
      have hresult : result = (.restored, fun role => some (restored role)) := by
        show restorePair env (some dir) overlapping destinations force .none = _
        unfold restorePair
        rw [if_neg hexists]
        simp only [hplan]
      have hplanned := of_plan hplan
      obtain ⟨b, hb, hfile⟩ := hgenuine.exists_backup h hsha fun role => by
        obtain ⟨db, hdb, -⟩ := hplanned role
        rw [hdb]
        rfl
      obtain ⟨moment, k, hstarted, hended, hmoment, hmigrated, hcopies⟩ :=
        Environment.validate_directory h hb
      refine .inl ⟨by simp [hresult], b, hb, k, moment, hstarted, hended, hmoment, fun role => ?_⟩
      obtain ⟨db, hdb, htransfer⟩ := hplanned role
      obtain ⟨pair, bytes, -, hbytes, -, hread, -⟩ := Environment.of_validate hdb
      obtain rfl := Option.some.inj (hbytes.symm.trans (hfile role))
      obtain rfl := Option.some.inj (hread.symm.trans (hcopies role).1)
      obtain ⟨hwellFormed, hothers⟩ := hdestinations role
      rw [Environment.transfer_mark (hmigrated role) _ _ hwellFormed hothers] at htransfer
      rw [hresult]
      exact htransfer.symm ▸ rfl

/-- **A published backup restores.** Nothing but an existing destination, a place that is the backup's
    own or a failing operation keeps `restore_pair` from restoring a backup that nobody has
    changed. -/
theorem published_pair_restores (hs : Reachable env s) {b : Published} (hb : b ∈ s.published)
    (hdestinations : Replaceable destinations) (hoverlapping : ∀ role,
      overlapping role = false) {force : Bool}
    (hforce : force = true ∨ ∀ role, destinations role = none) :
    ∃ k moment, b.started ≤ k ∧ k ≤ b.ended ∧ s.moments[k]? = some moment ∧
      restorePair env (some (b.directory env)) overlapping destinations force .none =
        (.restored, fun role => some (moment role)) := by
  have h := Sound.of_reachable hs
  obtain ⟨moment, k, hstarted, hended, hmoment, hmigrated, hcopies⟩ := Environment.validate_directory h hb
  refine ⟨k, moment, hstarted, hended, hmoment, ?_⟩
  have htransfer : ∀ role, transfer (mark b.version role (moment role)) ((destinations role).getD {}) =
      some (moment role) := fun role =>
    Environment.transfer_mark (hmigrated role) _ _ (hdestinations role).1 (hdestinations role).2
  have hplan : ∃ restored, plan env overlapping destinations (b.directory env) = some restored ∧
      ∀ role, restored role = moment role := by
    refine ⟨_, by simp [plan, hoverlapping, (hcopies _).2, htransfer]; rfl, fun role => ?_⟩
    cases role <;> rfl
  obtain ⟨restored, hplan, hrestored⟩ := hplan
  have hfree : (((destinations .tenant).isSome || (destinations .control).isSome) && !force) ≠ true := by
    rcases hforce with rfl | hnone
    · simp
    · simp [hnone]
  unfold restorePair
  rw [if_neg hfree]
  simp only [hplan, hrestored]

end Restored

namespace Samples

/-- A database of one migration. -/
def migrated : Database where
  tables := [{ name := "schema_migrations", body := " (version INTEGER PRIMARY KEY)",
               rows := [[.integer 1]] }]

/-- Two files: the copies of the sample run. -/
def environment : Environment where
  read
    | [0] => some (mark "v" .tenant migrated)
    | [1] => some (mark "v" .control migrated)
    | _ => none
  sha256 bytes := String.ofList (Bytes.hex bytes)
  expected _ := [1]

/-- The backup that the sample run publishes. -/
def backup : Published where
  output := "backup"
  version := "v"
  started := 0
  ended := 0
  file := copies [0] [1]

theorem migrated_migrated (role : Role) : environment.Migrated role migrated where
  wellFormed := ⟨by decide, by simp [migrated]⟩
  others := rfl
  unmarked := by decide
  ledger := ⟨[1], by decide, by cases role <;> decide⟩

theorem sha256_injective : Function.Injective environment.sha256 := fun _ _ h =>
  Bytes.hex_injective (String.ofList_injective h)

/-- A backup of two databases that nobody writes to. -/
theorem exists_published : ∃ s, Reachable environment s ∧ backup ∈ s.published ∧
    s.moments = [fun _ => migrated] := by
  let call : Call := ⟨"backup", "v", 0⟩
  let s₀ : System := { live := fun _ => migrated }
  let s₁ := (s₀.makeUp "v").setCall 0 (some (call, .staging))
  let s₂ := (s₁.setHolder .tenant (some 0)).setCall 0 (some (call, .fenced))
  let s₃ := (s₂.setHolder .control (some 0)).setCall 0 (some (call, .locked))
  let s₄ := s₃.setCall 0 (some (call, .copied [0]))
  let s₅ := s₄.setCall 0 (some (call, .copiedBoth [0] [1]))
  let s₆ := (s₅.release 0).setCall 0 (some (call, .closed [0] [1]))
  let s₇ := ((s₆.setOutput "backup" (some (backup.directory environment))).log backup).setCall 0 none
  have hcall : Step environment s₀ s₁ := .call rfl (by simp [s₀]) rfl (by simp [s₀])
  have hfence : Step environment s₁ s₂ := .fence rfl rfl
  have hlock : Step environment s₂ s₃ := .lock rfl rfl
  have hcopy : Step environment s₃ s₄ := .copyTenant rfl (if_neg (by decide)) rfl
  have hcopy' : Step environment s₄ s₅ := .copyControl rfl (if_neg (by decide)) rfl
  have hclose : Step environment s₅ s₆ := .close rfl
  have hpublish : Step environment s₆ s₇ := @Step.publish environment s₆ 0 call [0] [1] backup rfl rfl rfl
  have hrun : Relation.ReflTransGen (Step environment) s₀ s₇ :=
    ((((((Relation.ReflTransGen.single hcall).tail hfence).tail hlock).tail hcopy).tail hcopy').tail
      hclose).tail hpublish
  exact ⟨s₇, ⟨_, fun role => migrated_migrated role, hrun⟩, List.mem_singleton_self _, rfl⟩

end Samples

open Samples in
/-- A forced restoration gives both databases of the place what the backup holds; one that is killed leaves
    them what they held. -/
theorem restoration_replaces_or_keeps :
    (∀ role, (restorePair environment (some (backup.directory environment)) (fun _ => false)
      (fun _ => some {}) true .none).2 role = some migrated) ∧
    ∀ role, (restorePair environment (some (backup.directory environment)) (fun _ => false)
      (fun _ => some {}) true (.killed fun _ => true)).2 role = some {} := by
  obtain ⟨s, hs, hb, hmoments⟩ := exists_published
  have hdestinations : Replaceable fun _ => some {} := fun _ => ⟨Database.wellFormed_empty, rfl⟩
  have hpair := fun interruption => restored_pair_at_one_moment sha256_injective hs
    (.inl ⟨backup, hb, rfl⟩) hdestinations (fun _ => false) true interruption
  constructor
  · rcases hpair .none with ⟨-, _, -, k, moment, -, -, hmoment, hrestored⟩ | ⟨hkept, -⟩
    · rw [hmoments] at hmoment
      obtain rfl := List.mem_singleton.1 (List.mem_of_getElem? hmoment)
      exact hrestored
    · exact absurd (by decide +kernel) hkept
  · rcases hpair (.killed fun _ => true) with ⟨hrestored, -⟩ | ⟨-, hkept⟩
    · cases hrestored
    · exact fun role => hkept role {} rfl

open Samples in
/-- The backup restores both databases to an empty place. -/
theorem backup_restores :
    restorePair environment (some (backup.directory environment)) (fun _ => false)
      (fun _ => none) false .none =
      (.restored, fun _ => some migrated) := by
  obtain ⟨s, hs, hb, hmoments⟩ := exists_published
  have hdestinations : Replaceable fun _ => none := fun _ => ⟨Database.wellFormed_empty, rfl⟩
  have hoverlapping : ∀ role : Role, (fun _ => false) role = false := fun _ => rfl
  have hforce : false = true ∨ ∀ role : Role, (fun _ => none) role = (none : Option Database) :=
    .inr fun _ => rfl
  obtain ⟨k, moment, -, hk, hmoment, hresult⟩ :=
    published_pair_restores hs hb hdestinations hoverlapping hforce
  obtain rfl : k = 0 := Nat.le_zero.1 hk
  rw [hmoments] at hmoment
  obtain rfl := Option.some.inj hmoment
  exact hresult

end Backups

end AdaptiveLlm
