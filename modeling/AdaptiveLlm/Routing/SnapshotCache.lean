import AdaptiveLlm.Routing.Control
import AdaptiveLlm.Lib.Locks
import AdaptiveLlm.Lib.Runs

set_option autoImplicit false

/-! # The cache of route snapshots

`SQLiteRoutePolicies` with the threads of one process. A call of `snapshot` holds `_lock` from its
first reading of the clock to its return and takes the database lock inside it for the select. A
writer commits under the database lock, then takes `_lock` to expire the cache. Every step here is
what a thread does between two points where another one can come in.

The clock is a parameter: its n-th reading, whoever takes it.

Versions of the row are numbered by the commits, and `Recent commits bound row` says that a row was
left by a commit no older than the bound. A call of `snapshot` remembers how many writers had
returned when it started. The cache is no older than that unless it has been expired, which is what
a writer does before it returns; the proof follows the one writer or reader that holds `_lock`. -/

namespace AdaptiveLlm

namespace RouteControl

/-- A call of `snapshot`: the last commit whose writer had returned when it started, and the commit
    of the `switch` it ends, if it ends one. -/
structure SnapshotCall where
  since : ℕ
  switched : Option ℕ := none

/-- Where a thread stands. -/
inductive Pc where
  | idle
  /-- in `snapshot`, before `_lock` -/
  | entering (call : SnapshotCall)
  /-- under `_lock`, before the clock is read -/
  | locked (call : SnapshotCall)
  /-- before the database lock -/
  | expired (call : SnapshotCall)
  /-- under both locks, before the select -/
  | selecting (call : SnapshotCall)
  /-- with what was selected, the database lock released -/
  | selected (call : SnapshotCall) (row : RouteSnapshot)
  /-- after the assignment of `_cached` -/
  | stored (call : SnapshotCall)
  /-- before `return self._cached` -/
  | answering (call : SnapshotCall)
  /-- in a transaction -/
  | writing (sv : ControlServices) (call : ControlCall)
  /-- before the commit -/
  | written (next : Continuation)
  /-- in `_invalidate`, before `_lock`, after a commit -/
  | committed (version : ℕ) (next : Continuation)
  /-- under `_lock`, before `_expires` is reset -/
  | invalidating (version : ℕ) (next : Continuation)
  /-- after `_invalidate` -/
  | invalidated (version : ℕ) (next : Continuation)

/-- The threads and what they share; the last three fields record the run. -/
structure CacheSystem (τ : Type) where
  db : ControlState
  databaseLock : Option τ := none
  lock : Option τ := none
  cached : RouteSnapshot := {}
  expires : ℚ := 0
  /-- how often the clock was read -/
  readings : ℕ := 0
  pc : τ → Pc := fun _ => .idle
  /-- the committed states, the oldest first; a commit is known by its place in it -/
  commits : List ControlState := [db]
  /-- the last commit of a writer that has returned -/
  returned : ℕ := 0
  /-- the answers of `snapshot`, with the commits they owe to the calls before them -/
  answers : List (ℕ × RouteSnapshot) := []

variable {τ : Type} [DecidableEq τ]

/-- A thread goes on. -/
def CacheSystem.goto (s : CacheSystem τ) (t : τ) (pc : Pc) : CacheSystem τ :=
  { s with pc := Function.update s.pc t pc }

section Step

variable (cfg : ControlSettings) (clock : ℕ → ℚ)

/-- One thread goes on in `snapshot`, `switch` or another writer. -/
inductive CacheStep : CacheSystem τ → CacheSystem τ → Prop
  | callSnapshot {s : CacheSystem τ} (t : τ) (idle : s.pc t = .idle) :
      CacheStep s (s.goto t (.entering { since := s.returned }))
  | lock {s : CacheSystem τ} (t : τ) {call : SnapshotCall} (entering : s.pc t = .entering call)
      (free : s.lock = none) : CacheStep s { s.goto t (.locked call) with lock := some t }
  | hit {s : CacheSystem τ} (t : τ) {call : SnapshotCall} (locked : s.pc t = .locked call)
      (fresh : clock s.readings < s.expires) :
      CacheStep s { s.goto t (.answering call) with readings := s.readings + 1 }
  | miss {s : CacheSystem τ} (t : τ) {call : SnapshotCall} (locked : s.pc t = .locked call)
      (stale : ¬clock s.readings < s.expires) :
      CacheStep s { s.goto t (.expired call) with readings := s.readings + 1 }
  | lockDatabase {s : CacheSystem τ} (t : τ) {call : SnapshotCall}
      (expired : s.pc t = .expired call) (free : s.databaseLock = none) :
      CacheStep s { s.goto t (.selecting call) with databaseLock := some t }
  | select {s : CacheSystem τ} (t : τ) {call : SnapshotCall} (selecting : s.pc t = .selecting call) :
      CacheStep s { s.goto t (.selected call s.db.routeSnapshot) with databaseLock := none }
  /-- the select raises -/
  | selectFails {s : CacheSystem τ} (t : τ) {call : SnapshotCall}
      (selecting : s.pc t = .selecting call) :
      CacheStep s { s.goto t .idle with databaseLock := none, lock := none }
  | store {s : CacheSystem τ} (t : τ) {call : SnapshotCall} {row : RouteSnapshot}
      (selected : s.pc t = .selected call row) :
      CacheStep s { s.goto t (.stored call) with cached := row }
  /-- the stored policy does not validate -/
  | storeFails {s : CacheSystem τ} (t : τ) {call : SnapshotCall} {row : RouteSnapshot}
      (selected : s.pc t = .selected call row) :
      CacheStep s { s.goto t .idle with lock := none }
  | expire {s : CacheSystem τ} (t : τ) {call : SnapshotCall} (stored : s.pc t = .stored call) :
      CacheStep s { s.goto t (.answering call) with
        expires := clock s.readings + 1
        readings := s.readings + 1 }
  | answer {s : CacheSystem τ} (t : τ) {call : SnapshotCall}
      (answering : s.pc t = .answering call) :
      CacheStep s { s.goto t .idle with
        lock := none
        answers := (call.since, s.cached) :: s.answers
        returned := max s.returned (call.switched.getD 0) }
  | begin {s : CacheSystem τ} (t : τ) (sv : ControlServices) (call : ControlCall)
      (idle : s.pc t = .idle) (free : s.databaseLock = none) :
      CacheStep s { s.goto t (.writing sv call) with databaseLock := some t }
  | write {s : CacheSystem τ} (t : τ) {sv : ControlServices} {call : ControlCall}
      {next : Continuation} {db : ControlState} (writing : s.pc t = .writing sv call)
      (ok : call.transact cfg sv s.db = .ok (next, db)) :
      CacheStep s { s.goto t (.written next) with db }
  /-- the transaction raises and is rolled back -/
  | writeFails {s : CacheSystem τ} (t : τ) {sv : ControlServices} {call : ControlCall}
      {error : ControlError} (writing : s.pc t = .writing sv call)
      (failed : call.transact cfg sv s.db = .error error) :
      CacheStep s { s.goto t .idle with databaseLock := none }
  | commit {s : CacheSystem τ} (t : τ) {next : Continuation} (written : s.pc t = .written next) :
      CacheStep s { s.goto t (if next = .return then .idle else
          .committed s.commits.length next) with
        databaseLock := none
        commits := s.commits ++ [s.db] }
  /-- the commit raises: back to the last one -/
  | commitFails {s : CacheSystem τ} (t : τ) {next : Continuation} (written : s.pc t = .written next) :
      CacheStep s { s.goto t .idle with
        databaseLock := none
        db := s.commits.getLastD s.db }
  | lockToInvalidate {s : CacheSystem τ} (t : τ) {version : ℕ} {next : Continuation}
      (committed : s.pc t = .committed version next) (free : s.lock = none) :
      CacheStep s { s.goto t (.invalidating version next) with lock := some t }
  | invalidate {s : CacheSystem τ} (t : τ) {version : ℕ} {next : Continuation}
      (invalidating : s.pc t = .invalidating version next) :
      CacheStep s { s.goto t (.invalidated version next) with lock := none, expires := 0 }
  | return {s : CacheSystem τ} (t : τ) {version : ℕ} {next : Continuation}
      (invalidated : s.pc t = .invalidated version next) (last : next = .invalidate) :
      CacheStep s { s.goto t .idle with returned := max s.returned version }
  | snapshotOfSwitch {s : CacheSystem τ} (t : τ) {version : ℕ} {next : Continuation}
      (invalidated : s.pc t = .invalidated version next) (more : next = .invalidateAndSnapshot) :
      CacheStep s (s.goto t (.entering { since := s.returned, switched := some version }))

end Step

/-! ## The invariant

`Recent commits bound row` says that the row was left by one of the commits from the `bound`-th on.
Every place in a call of `snapshot` or of a writer has its own claim to recency, and only the holder
of the lock changes the cache. -/

open Locks (Guards)

/-- The places under `_lock`. -/
def Pc.underLock : Pc → Bool
  | .locked _ | .expired _ | .selecting _ | .selected _ _ | .stored _ | .answering _
  | .invalidating _ _ => true
  | _ => false

/-- The places under the database lock. -/
def Pc.underDatabaseLock : Pc → Bool
  | .selecting _ | .writing _ _ | .written _ => true
  | _ => false

/-- The place between the writes of a transaction and its commit. -/
def Pc.uncommitted : Pc → Bool
  | .written _ => true
  | _ => false

/-- Read from a commit no older than `bound`. -/
def Recent (commits : List ControlState) (bound : ℕ) (row : RouteSnapshot) : Prop :=
  ∃ version, bound ≤ version ∧ commits[version]?.map (·.routeSnapshot) = some row

/-- What a thread at a place may rely on. -/
def Pc.Sound (commits : List ControlState) (cached : RouteSnapshot) (bound : ℕ) : Pc → Prop
  | .entering call | .locked call | .expired call | .selecting call =>
    call.since ≤ bound ∧ call.switched.getD 0 ≤ bound
  | .selected call row =>
    (call.since ≤ bound ∧ call.switched.getD 0 ≤ bound) ∧ Recent commits bound row
  | .stored call | .answering call =>
    (call.since ≤ bound ∧ call.switched.getD 0 ≤ bound) ∧ Recent commits bound cached
  | .committed version _ | .invalidating version _ => version < commits.length
  | .invalidated version _ => version ≤ bound
  | _ => True

/-- `bound` is the last commit for which the cache has been expired. -/
structure CoherentAt (s : CacheSystem τ) (bound : ℕ) : Prop where
  lock : Guards s.lock Pc.underLock s.pc
  databaseLock : Guards s.databaseLock Pc.underDatabaseLock s.pc
  committed : (∀ t, (s.pc t).uncommitted = false) → s.commits.getLast? = some s.db
  lt_length : bound < s.commits.length
  returned_le : s.returned ≤ bound
  fresh : 0 < s.expires → Recent s.commits bound s.cached
  threads : ∀ t, (s.pc t).Sound s.commits s.cached bound
  answers : ∀ a ∈ s.answers, Recent s.commits a.1 a.2

theorem Recent.mono {commits commits' : List ControlState} {bound bound' : ℕ} {row : RouteSnapshot}
    (h : Recent commits bound row) (hcommits : commits <+: commits') (hbound : bound' ≤ bound) :
    Recent commits' bound' row := by
  obtain ⟨version, hle, hrow⟩ := h
  obtain ⟨st, hst, hview⟩ := Option.map_eq_some_iff.1 hrow
  refine ⟨version, hbound.trans hle, Option.map_eq_some_iff.2 ⟨st, ?_, hview⟩⟩
  obtain ⟨more, rfl⟩ := hcommits
  rw [List.getElem?_append_left (List.getElem?_eq_some_iff.1 hst).1]
  exact hst

theorem Pc.Sound.mono {commits commits' : List ControlState} {cached : RouteSnapshot} {bound : ℕ}
    {pc : Pc} (h : pc.Sound commits cached bound) (hcommits : commits <+: commits') :
    pc.Sound commits' cached bound := by
  cases pc with
  | selected call row => exact ⟨h.1, h.2.mono hcommits le_rfl⟩
  | stored call => exact ⟨h.1, h.2.mono hcommits le_rfl⟩
  | answering call => exact ⟨h.1, h.2.mono hcommits le_rfl⟩
  | committed version next => exact lt_of_lt_of_le h hcommits.length_le
  | invalidating version next => exact lt_of_lt_of_le h hcommits.length_le
  | _ => exact h

/-- What a thread that does not hold `_lock` relies on does not depend on the cache. -/
theorem Pc.Sound.of_not_underLock {commits : List ControlState} {cached cached' : RouteSnapshot}
    {bound bound' : ℕ} {pc : Pc} (h : pc.Sound commits cached bound) (hpc : pc.underLock = false)
    (hbound : bound ≤ bound') : pc.Sound commits cached' bound' := by
  cases pc with
  | entering call => exact ⟨h.1.trans hbound, h.2.trans hbound⟩
  | committed version next => exact h
  | invalidated version next => exact Nat.le_trans h hbound
  | idle => trivial
  | writing sv call => trivial
  | written next => trivial
  | _ => cases hpc

section Steps

variable {cfg : ControlSettings} {clock : ℕ → ℚ} {s s' : CacheSystem τ} {bound : ℕ}

/-- A thread with nothing uncommitted moves: it is not why the tables are not the last commit. -/
theorem uncommitted_before {t : τ} {pc : Pc} (ht : (s.pc t).uncommitted = false)
    (h : ∀ t', (Function.update s.pc t pc t').uncommitted = false) :
    ∀ t', (s.pc t').uncommitted = false := by
  intro t'
  by_cases htt : t' = t
  · rw [htt, ht]
  · rw [← h t', Function.update_of_ne htt]

/-- A thread moves and leaves the cache, the commits and the committed tables alone: what is left
    to show is about the locks and its own place. -/
theorem CoherentAt.move (h : CoherentAt s bound) {t : τ} {pc : Pc}
    (hpc : s'.pc = Function.update s.pc t pc) (hlock : Guards s'.lock Pc.underLock s'.pc)
    (hdatabase : Guards s'.databaseLock Pc.underDatabaseLock s'.pc)
    (hdb : pc.uncommitted = true ∨ s'.db = s.db ∧ (s.pc t).uncommitted = false)
    (hcommits : s'.commits = s.commits) (hcached : s'.cached = s.cached)
    (hexpires : s'.expires = s.expires) (hreturned : s'.returned ≤ bound)
    (hsound : pc.Sound s.commits s.cached bound)
    (hanswers : ∀ a ∈ s'.answers, Recent s.commits a.1 a.2) : CoherentAt s' bound where
  lock := hlock
  databaseLock := hdatabase
  committed hnone := by
    have hself := hnone t
    rw [hpc, Function.update_self] at hself
    obtain hpc' | ⟨hdb, ht⟩ := hdb
    · rw [hpc'] at hself
      cases hself
    rw [hcommits, hdb]
    rw [hpc] at hnone
    exact h.committed (uncommitted_before ht hnone)
  lt_length := hcommits ▸ h.lt_length
  returned_le := hreturned
  fresh := by
    rw [hexpires, hcommits, hcached]
    exact h.fresh
  threads := by
    rw [hpc, hcommits, hcached]
    exact Locks.forall_update hsound fun t' _ => h.threads t'
  answers := hcommits ▸ hanswers

/-- Under the database lock and before any write the tables are the last commit. -/
theorem CoherentAt.last_commit (h : CoherentAt s bound) {t : τ}
    (ht : (s.pc t).underDatabaseLock = true) (hclean : (s.pc t).uncommitted = false) :
    s.commits.getLast? = some s.db := by
  refine h.committed fun t' => ?_
  by_cases htt : t' = t
  · rw [htt, hclean]
  · have hother := h.databaseLock.other ht htt
    cases hpc : s.pc t' with
    | written next =>
      rw [hpc] at hother
      cases hother
    | _ => rfl

omit [DecidableEq τ] in
/-- A read of the last commit is recent. -/
theorem CoherentAt.recent_last (h : CoherentAt s bound) (hlast : s.commits.getLast? = some s.db) :
    Recent s.commits bound s.db.routeSnapshot := by
  have hlength := h.lt_length
  refine ⟨s.commits.length - 1, by omega, ?_⟩
  rw [← List.getLast?_eq_getElem?, hlast]
  rfl

/-- The assignment of `_cached`: the other threads do not hold `_lock`, so they do not rely on it. -/
theorem CoherentAt.store (h : CoherentAt s bound) {t : τ} {call : SnapshotCall} {row : RouteSnapshot}
    (selected : s.pc t = .selected call row) :
    CoherentAt { s.goto t (.stored call) with cached := row } bound := by
  have hlocked : (s.pc t).underLock = true := by rw [selected]; rfl
  have hsound := h.threads t
  rw [selected] at hsound
  exact {
    lock := h.lock.keep fun _ => hlocked
    databaseLock := h.databaseLock.keep fun hpc => by cases hpc
    committed := fun hnone => h.committed (uncommitted_before (by rw [selected]; rfl) hnone)
    lt_length := h.lt_length
    returned_le := h.returned_le
    fresh := fun _ => hsound.2
    threads := Locks.forall_update hsound fun t' htt =>
      (h.threads t').of_not_underLock (h.lock.other hlocked htt) le_rfl
    answers := h.answers }

/-- The assignment of `_expires` by a reader. -/
theorem CoherentAt.expire (h : CoherentAt s bound) {t : τ} {call : SnapshotCall} {expires : ℚ}
    {readings : ℕ} (stored : s.pc t = .stored call) :
    CoherentAt { s.goto t (.answering call) with expires, readings } bound := by
  have hsound := h.threads t
  rw [stored] at hsound
  exact {
    lock := h.lock.keep fun _ => by rw [stored]; rfl
    databaseLock := h.databaseLock.keep fun hpc => by cases hpc
    committed := fun hnone => h.committed (uncommitted_before (by rw [stored]; rfl) hnone)
    lt_length := h.lt_length
    returned_le := h.returned_le
    fresh := fun _ => hsound.2
    threads := Locks.forall_update hsound fun t' _ => h.threads t'
    answers := h.answers }

/-- A commit leaves what was read before it recent: no cache has been expired for it yet. -/
theorem CoherentAt.commit (h : CoherentAt s bound) {t : τ} {next : Continuation} {pc : Pc}
    (written : s.pc t = .written next) (hlock : pc.underLock = false)
    (hdatabase : pc.underDatabaseLock = false)
    (hsound : pc.Sound (s.commits ++ [s.db]) s.cached bound) :
    CoherentAt { s.goto t pc with databaseLock := none, commits := s.commits ++ [s.db] } bound := by
  have hprefix : s.commits <+: s.commits ++ [s.db] := List.prefix_append _ _
  exact {
    lock := h.lock.keep fun hpc => by rw [hlock] at hpc; cases hpc
    databaseLock := h.databaseLock.release (by rw [written]; rfl) hdatabase
    committed := fun _ => List.getLast?_concat
    lt_length := lt_of_lt_of_le h.lt_length hprefix.length_le
    returned_le := h.returned_le
    fresh := fun hexpires => (h.fresh hexpires).mono hprefix le_rfl
    threads := Locks.forall_update hsound fun t' _ => (h.threads t').mono hprefix
    answers := fun a ha => (h.answers a ha).mono hprefix le_rfl }

/-- A commit that raises takes the tables back to the last commit. -/
theorem CoherentAt.rollBack (h : CoherentAt s bound) {t : τ} {next : Continuation}
    (written : s.pc t = .written next) :
    CoherentAt { s.goto t .idle with
      databaseLock := none
      db := s.commits.getLastD s.db } bound := by
  have hne : s.commits ≠ [] := List.ne_nil_of_length_pos (Nat.zero_lt_of_lt h.lt_length)
  exact {
    lock := h.lock.keep fun hpc => by cases hpc
    databaseLock := h.databaseLock.release (by rw [written]; rfl) rfl
    committed := fun _ => by
      show s.commits.getLast? = some (s.commits.getLastD s.db)
      rw [List.getLastD_eq_getLast?, List.getLast?_eq_some_getLast hne]
      rfl
    lt_length := h.lt_length
    returned_le := h.returned_le
    fresh := h.fresh
    threads := Locks.forall_update trivial fun t' _ => h.threads t'
    answers := h.answers }

/-- The cache is expired for a commit: nobody else is under `_lock`, so nothing older is left. -/
theorem CoherentAt.invalidate (h : CoherentAt s bound) {t : τ} {version : ℕ} {next : Continuation}
    (invalidating : s.pc t = .invalidating version next) :
    CoherentAt { s.goto t (.invalidated version next) with lock := none, expires := 0 }
      (max bound version) := by
  have hlocked : (s.pc t).underLock = true := by rw [invalidating]; rfl
  have hversion := h.threads t
  rw [invalidating] at hversion
  exact {
    lock := h.lock.release hlocked rfl
    databaseLock := h.databaseLock.keep fun hpc => by cases hpc
    committed := fun hnone => h.committed (uncommitted_before (by rw [invalidating]; rfl) hnone)
    lt_length := max_lt h.lt_length hversion
    returned_le := le_max_of_le_left h.returned_le
    fresh := fun hexpires => absurd hexpires (lt_irrefl 0)
    threads := Locks.forall_update (le_max_right _ _) fun t' htt =>
      (h.threads t').of_not_underLock (h.lock.other hlocked htt) (le_max_left _ _)
    answers := h.answers }

/-- The invariant. -/
def Coherent (s : CacheSystem τ) : Prop := ∃ bound, CoherentAt s bound

/-- Every step keeps the invariant, at a bound that only `_invalidate` moves. -/
theorem Coherent.step (hclock : ∀ n, 0 ≤ clock n) (hs : Coherent s)
    (hstep : CacheStep cfg clock s s') : Coherent s' := by
  obtain ⟨bound, h⟩ := hs
  cases hstep with
  | callSnapshot t idle =>
    refine ⟨bound, h.move rfl (h.lock.keep fun hpc => by cases hpc)
      (h.databaseLock.keep fun hpc => by cases hpc) (.inr ⟨rfl, by rw [idle]; rfl⟩) rfl rfl rfl
      h.returned_le ⟨h.returned_le, Nat.zero_le _⟩ h.answers⟩
  | @lock t call entering free =>
    have hsound := h.threads t
    rw [entering] at hsound
    have hfree := h.lock
    rw [free] at hfree
    exact ⟨bound, h.move rfl hfree.acquire (h.databaseLock.keep fun hpc => by cases hpc)
      (.inr ⟨rfl, by rw [entering]; rfl⟩) rfl rfl rfl h.returned_le hsound h.answers⟩
  | @hit t call locked fresh =>
    have hsound := h.threads t
    rw [locked] at hsound
    have hexpires : 0 < s.expires := lt_of_le_of_lt (hclock s.readings) fresh
    exact ⟨bound, h.move rfl (h.lock.keep fun _ => by rw [locked]; rfl)
      (h.databaseLock.keep fun hpc => by cases hpc) (.inr ⟨rfl, by rw [locked]; rfl⟩) rfl rfl rfl
      h.returned_le ⟨hsound, h.fresh hexpires⟩ h.answers⟩
  | @miss t call locked stale =>
    have hsound := h.threads t
    rw [locked] at hsound
    exact ⟨bound, h.move rfl (h.lock.keep fun _ => by rw [locked]; rfl)
      (h.databaseLock.keep fun hpc => by cases hpc) (.inr ⟨rfl, by rw [locked]; rfl⟩) rfl rfl rfl
      h.returned_le hsound h.answers⟩
  | @lockDatabase t call expired free =>
    have hsound := h.threads t
    rw [expired] at hsound
    have hfree := h.databaseLock
    rw [free] at hfree
    exact ⟨bound, h.move rfl (h.lock.keep fun _ => by rw [expired]; rfl) hfree.acquire
      (.inr ⟨rfl, by rw [expired]; rfl⟩) rfl rfl rfl h.returned_le hsound h.answers⟩
  | @select t call selecting =>
    have hsound := h.threads t
    rw [selecting] at hsound
    have hlast := h.last_commit (t := t) (by rw [selecting]; rfl) (by rw [selecting]; rfl)
    exact ⟨bound, h.move rfl (h.lock.keep fun _ => by rw [selecting]; rfl)
      (h.databaseLock.release (by rw [selecting]; rfl) rfl) (.inr ⟨rfl, by rw [selecting]; rfl⟩)
      rfl rfl rfl h.returned_le ⟨hsound, h.recent_last hlast⟩ h.answers⟩
  | @selectFails t call selecting =>
    exact ⟨bound, h.move rfl (h.lock.release (by rw [selecting]; rfl) rfl)
      (h.databaseLock.release (by rw [selecting]; rfl) rfl) (.inr ⟨rfl, by rw [selecting]; rfl⟩)
      rfl rfl rfl h.returned_le trivial h.answers⟩
  | store t selected => exact ⟨bound, h.store selected⟩
  | @storeFails t call row selected =>
    exact ⟨bound, h.move rfl (h.lock.release (by rw [selected]; rfl) rfl)
      (h.databaseLock.keep fun hpc => by cases hpc) (.inr ⟨rfl, by rw [selected]; rfl⟩)
      rfl rfl rfl h.returned_le trivial h.answers⟩
  | expire t stored => exact ⟨bound, h.expire stored⟩
  | @answer t call answering =>
    have hsound := h.threads t
    rw [answering] at hsound
    obtain ⟨⟨hsince, hswitched⟩, hcached⟩ := hsound
    refine ⟨bound, h.move rfl (h.lock.release (by rw [answering]; rfl) rfl)
      (h.databaseLock.keep fun hpc => by cases hpc) (.inr ⟨rfl, by rw [answering]; rfl⟩)
      rfl rfl rfl (max_le h.returned_le hswitched) trivial ?_⟩
    intro a ha
    obtain rfl | ha := List.mem_cons.1 ha
    · exact hcached.mono (List.prefix_refl _) hsince
    · exact h.answers a ha
  | begin t sv call idle free =>
    have hfree := h.databaseLock
    rw [free] at hfree
    exact ⟨bound, h.move rfl (h.lock.keep fun hpc => by cases hpc) hfree.acquire
      (.inr ⟨rfl, by rw [idle]; rfl⟩) rfl rfl rfl h.returned_le trivial h.answers⟩
  | @write t sv call next db writing ok =>
    exact ⟨bound, h.move rfl (h.lock.keep fun hpc => by cases hpc)
      (h.databaseLock.keep fun _ => by rw [writing]; rfl) (.inl rfl) rfl rfl rfl h.returned_le
      trivial h.answers⟩
  | @writeFails t sv call error writing failed =>
    exact ⟨bound, h.move rfl (h.lock.keep fun hpc => by cases hpc)
      (h.databaseLock.release (by rw [writing]; rfl) rfl) (.inr ⟨rfl, by rw [writing]; rfl⟩)
      rfl rfl rfl h.returned_le trivial h.answers⟩
  | @commit t next written =>
    refine ⟨bound, h.commit written ?_ ?_ ?_⟩
    · split <;> rfl
    · split <;> rfl
    · split
      · trivial
      · show s.commits.length < (s.commits ++ [s.db]).length
        simp
  | commitFails t written => exact ⟨bound, h.rollBack written⟩
  | @lockToInvalidate t version next committed free =>
    have hversion := h.threads t
    rw [committed] at hversion
    have hfree := h.lock
    rw [free] at hfree
    exact ⟨bound, h.move rfl hfree.acquire (h.databaseLock.keep fun hpc => by cases hpc)
      (.inr ⟨rfl, by rw [committed]; rfl⟩) rfl rfl rfl h.returned_le hversion h.answers⟩
  | invalidate t invalidating => exact ⟨_, h.invalidate invalidating⟩
  | @«return» t version next invalidated last =>
    have hversion := h.threads t
    rw [invalidated] at hversion
    exact ⟨bound, h.move rfl (h.lock.keep fun hpc => by cases hpc)
      (h.databaseLock.keep fun hpc => by cases hpc) (.inr ⟨rfl, by rw [invalidated]; rfl⟩)
      rfl rfl rfl (max_le h.returned_le hversion) trivial h.answers⟩
  | @snapshotOfSwitch t version next invalidated more =>
    have hversion := h.threads t
    rw [invalidated] at hversion
    exact ⟨bound, h.move rfl (h.lock.keep fun hpc => by cases hpc)
      (h.databaseLock.keep fun hpc => by cases hpc) (.inr ⟨rfl, by rw [invalidated]; rfl⟩)
      rfl rfl rfl h.returned_le ⟨h.returned_le, hversion⟩ h.answers⟩

omit [DecidableEq τ] in
theorem CoherentAt.init (db : ControlState) : CoherentAt ({ db } : CacheSystem τ) 0 where
  lock := by rintro t h; cases h
  databaseLock := by rintro t h; cases h
  committed _ := rfl
  lt_length := Nat.zero_lt_one
  returned_le := Nat.le_refl 0
  fresh h := absurd h (lt_irrefl 0)
  threads _ := trivial
  answers a ha := by cases ha

/-- **Snapshots are coherent.** Whatever the threads do, in whatever order, every call of `snapshot`
    answers with what some commit left, a commit no older than the last one whose writer had
    returned when the call started; and what the cache would still serve is no older than the last
    commit whose writer has returned. The clock is never negative (`hclock`), as `time.monotonic` is
    not: writers invalidate the cache by the expiry `0.0`, which a clock before zero would still
    accept. -/
theorem snapshot_coherent (hclock : ∀ n, 0 ≤ clock n) (db : ControlState)
    (hrun : Relation.ReflTransGen (CacheStep cfg clock) { db } s) :
    (∀ a ∈ s.answers, Recent s.commits a.1 a.2) ∧
      (0 < s.expires → Recent s.commits s.returned s.cached) := by
  have hinit : Coherent ({ db } : CacheSystem τ) := ⟨0, CoherentAt.init db⟩
  have hkeep : ∀ s t : CacheSystem τ, Coherent s → CacheStep cfg clock s t → Coherent t :=
    fun _ _ h hstep => h.step hclock hstep
  obtain ⟨bound, h⟩ := Runs.reflTransGen_of_invariant hkeep hinit hrun
  exact ⟨h.answers, fun hexpires => (h.fresh hexpires).mono (List.prefix_refl _) h.returned_le⟩

end Steps

namespace Samples

/-- A store of no tenant. -/
def settings : ControlSettings where
  environment := "local"
  foundationId := "foundation"
  tenants := []

/-- A registry without models. -/
def services : ControlServices where
  model _ _ := .error .modelNotFound
  uid := toString

/-- An operator of the tenant. -/
def operator : ControlIdentity where
  subjectIdPseudonymous := some "subject"
  keyClass := .operator
  tenantId := "acme"
  environment := "local"

/-- The note of a switch for a task. -/
def note : RouteControlNote where
  reason := "incident"
  task := some "summarise"
  nonblank := by decide
  length_le := by decide
  one_scope := by decide

/-- The switch that disables the task. -/
def disableTask : ControlCall := .switch true operator note

/-- The tables after the switch. -/
def switched : ControlState :=
  match disableTask.transact settings services {} with
  | .ok (_, s) => s
  | .error _ => {}

/-- The clock counts its readings. -/
def clock : ℕ → ℚ := fun n => n

/-- One thread at a place of its call, under the database lock or not. -/
abbrev atPlace (db : ControlState) (databaseLock : Option Unit) (pc : Pc) : CacheSystem Unit where
  db := db
  databaseLock := databaseLock
  pc := fun _ => pc
  commits := [{}]

/-- The thread after the commit, with what it has changed of the cache. -/
abbrev committed (databaseLock lock : Option Unit) (cached : RouteSnapshot) (pc : Pc) :
    CacheSystem Unit where
  db := switched
  databaseLock := databaseLock
  lock := lock
  cached := cached
  pc := fun _ => pc
  commits := [{}, switched]

/-- The snapshot that ends the switch. -/
def call : SnapshotCall where
  since := 0
  switched := some 1

/-- The end of the run. -/
abbrev answered : CacheSystem Unit where
  db := switched
  cached := switched.routeSnapshot
  expires := clock 1 + 1
  readings := 2
  pc := fun _ => .idle
  commits := [{}, switched]
  returned := 1
  answers := [(0, switched.routeSnapshot)]

theorem run_switch : Relation.ReflTransGen (CacheStep settings clock)
    { db := {} } (committed none none {} (.entering call)) := by
  have h₁ : CacheStep settings clock { db := {} }
      (atPlace {} (some ()) (.writing services disableTask)) := .begin () services disableTask rfl rfl
  have h₂ : CacheStep settings clock (atPlace {} (some ()) (.writing services disableTask))
      (atPlace switched (some ()) (.written .invalidateAndSnapshot)) := .write () rfl rfl
  have h₃ : CacheStep settings clock
      (atPlace switched (some ()) (.written .invalidateAndSnapshot))
      (committed none none {} (.committed 1 .invalidateAndSnapshot)) :=
    @CacheStep.commit _ _ _ _ _ () .invalidateAndSnapshot rfl
  have h₄ : CacheStep settings clock (committed none none {} (.committed 1 .invalidateAndSnapshot))
      (committed none (some ()) {} (.invalidating 1 .invalidateAndSnapshot)) :=
    .lockToInvalidate () rfl rfl
  have h₅ : CacheStep settings clock
      (committed none (some ()) {} (.invalidating 1 .invalidateAndSnapshot))
      (committed none none {} (.invalidated 1 .invalidateAndSnapshot)) := .invalidate () rfl
  have h₆ : CacheStep settings clock (committed none none {} (.invalidated 1 .invalidateAndSnapshot))
      (committed none none {} (.entering call)) := .snapshotOfSwitch () rfl rfl
  exact ((((Relation.ReflTransGen.single h₁).tail h₂ |>.tail h₃).tail h₄).tail h₅).tail h₆

theorem run_snapshot : Relation.ReflTransGen (CacheStep settings clock)
    (committed none none {} (.entering call)) answered := by
  have h₁ : CacheStep settings clock (committed none none {} (.entering call))
      (committed none (some ()) {} (.locked call)) := .lock () rfl rfl
  have h₂ : CacheStep settings clock (committed none (some ()) {} (.locked call))
      { committed none (some ()) {} (.expired call) with readings := 1 } :=
    .miss () rfl (by decide)
  have h₃ : CacheStep settings clock
      { committed none (some ()) {} (.expired call) with readings := 1 }
      { committed (some ()) (some ()) {} (.selecting call) with readings := 1 } :=
    .lockDatabase () rfl rfl
  have h₄ : CacheStep settings clock
      { committed (some ()) (some ()) {} (.selecting call) with readings := 1 }
      { committed none (some ()) {} (.selected call switched.routeSnapshot) with readings := 1 } :=
    .select () rfl
  have h₅ : CacheStep settings clock
      { committed none (some ()) {} (.selected call switched.routeSnapshot) with readings := 1 }
      { committed none (some ()) switched.routeSnapshot (.stored call) with readings := 1 } :=
    .store () rfl
  have h₆ : CacheStep settings clock
      { committed none (some ()) switched.routeSnapshot (.stored call) with readings := 1 }
      { committed none (some ()) switched.routeSnapshot (.answering call) with
        expires := clock 1 + 1
        readings := 2 } := .expire () rfl
  have h₇ : CacheStep settings clock
      { committed none (some ()) switched.routeSnapshot (.answering call) with
        expires := clock 1 + 1
        readings := 2 } answered := @CacheStep.answer _ _ _ _ _ () call rfl
  exact (((((Relation.ReflTransGen.single h₁).tail h₂ |>.tail h₃).tail h₄).tail h₅).tail h₆).tail h₇

end Samples

open Samples in
theorem disabled_task_is_served : answered.cached.disabledTasks = ["summarise"] ∧
    answered.returned = 1 ∧ Recent answered.commits answered.returned answered.cached :=
  ⟨rfl, rfl, (snapshot_coherent (fun n => Nat.cast_nonneg n) {} (run_switch.trans run_snapshot)).2
    (by norm_num [clock])⟩

end RouteControl

end AdaptiveLlm
