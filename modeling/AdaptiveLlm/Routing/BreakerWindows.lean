import AdaptiveLlm.Lib.SlidingWindow
import AdaptiveLlm.Routing.Breakers

set_option autoImplicit false

/-! # What a breaker remembers

A breaker holds its samples in a bounded queue, drops the old ones only when a record is made, and clears
them only when a probe ends. Against this stands a reference that keeps every sample since the last
reset, and looks at those of the last 1000 that are in the time window.

The reference is the specification one would write: all samples, a cutoff in time, a bound on the
number. The queue of the source differs from it at most moments, as it is trimmed only by a record,
so what is compared is what both show after the next trimming. `Refines` is kept by each of the
three calls on any clock that does not go back. -/

namespace AdaptiveLlm

open SlidingWindow

/-- A call on the breakers, with what the clock reads in it. -/
inductive WindowCall where
  | available (deployment : String) (now : ℚ)
  | acquire (deployment : String) (now : ℚ)
  | record (deployment : String) (now : ℚ) (error validationFailure : Bool) (latencyMs : ℚ)

namespace WindowCall

/-- The deployment that a call is about. -/
def deployment : WindowCall → String
  | available d _ | acquire d _ | record d .. => d

/-- The reading of the clock that a call makes. -/
def now : WindowCall → ℚ
  | available _ t | acquire _ t | record _ t .. => t

end WindowCall

/-- The breakers after a call. -/
def CircuitBreakers.call (th : BreakerThresholds) (b : CircuitBreakers) : WindowCall → CircuitBreakers
  | .available d now => (b.available d th now).2
  | .acquire d now => (b.acquire d th now).2
  | .record d now error validationFailure latencyMs => b.record d th now error validationFailure latencyMs

/-! ## The reference -/

/-- A threshold is crossed by enough samples. -/
def Crosses (th : BreakerThresholds) (samples : List Sample) : Prop :=
  th.minimumSamples ≤ samples.length ∧
    (th.errorRate ≤ Python.float ((samples.countP (·.error) : ℚ) / samples.length) ∨
      th.validationFailureRate ≤
        Python.float ((samples.countP (·.validationFailure) : ℚ) / samples.length) ∨
      ∃ p ∈ roundedPercentile Python.double (samples.map (·.latencyMs)) (Python.double (95 / 100)),
        th.p95LatencyMs < p)

theorem trips_iff {th : BreakerThresholds} {samples : List Sample} :
    trips samples th = true ↔ Crosses th samples := by
  simp [trips, Crosses, or_assoc, Option.any_eq_true]

instance (th : BreakerThresholds) (samples : List Sample) : Decidable (Crosses th samples) :=
  decidable_of_iff _ trips_iff

/-- Those of the last 1000 samples whose time is at least `now` minus `window_seconds`, the difference
    of the two doubles as Python has it. -/
def inWindow (th : BreakerThresholds) (now : ℚ) (recorded : List Sample) : List Sample :=
  (lastOf 1000 recorded).filter fun s => Python.double (now - th.windowSeconds) ≤ s.time

/-- A breaker that remembers every sample since its last reset. -/
structure BreakerReference where
  /-- every sample since the last reset -/
  recorded : List Sample := []
  state : BreakerState := .closed
  openedAt : ℚ := 0
  probing : Bool := false

namespace BreakerReference

variable (th : BreakerThresholds) (r : BreakerReference)

/-- The cooldown is over: from open to half open. -/
def advance (now : ℚ) : BreakerReference :=
  if r.state = .open ∧ th.cooldownSeconds ≤ Python.double (now - r.openedAt) then
    { r with state := .halfOpen } else r

/-- A sample is recorded, and the breaker judged by the window that the samples say. -/
def record (now : ℚ) (error validationFailure : Bool) (latencyMs : ℚ) : BreakerReference :=
  match r.state with
  | .open => r
  | .halfOpen =>
    { state := if error ∨ validationFailure ∨ th.p95LatencyMs < latencyMs then .open else .closed
      openedAt := now }
  | .closed =>
    let recorded := r.recorded ++ [⟨now, error, validationFailure, latencyMs⟩]
    if Crosses th (inWindow th now recorded) then { r with recorded, state := .open, openedAt := now }
    else { r with recorded }

/-- One call on the reference. -/
def call : WindowCall → BreakerReference
  | .available _ now => r.advance th now
  | .acquire _ now =>
    let r := r.advance th now
    if r.state = .halfOpen then { r with probing := true } else r
  | .record _ now error validationFailure latencyMs => r.record th now error validationFailure latencyMs

/-- The time of the last sample. -/
def last : ℚ := (r.recorded.getLast?.map (·.time)).getD 0

/-- The window that stands for the reference. -/
def window : Window where
  samples := inWindow th r.last r.recorded
  state := r.state
  openedAt := r.openedAt
  probing := r.probing

end BreakerReference

/-- The reference of a deployment, behind some calls. -/
def reference (th : BreakerThresholds) (d : String) (calls : List WindowCall) : BreakerReference :=
  calls.foldl (fun r c => if c.deployment = d then r.call th c else r) {}

/-! ## Step lemmas

The samples are in the order of their times, as the clock does not go back. So to drop the old ones
from the front is to filter by the cutoff. -/

namespace BreakerReference

variable {th : BreakerThresholds} {r : BreakerReference} {now : ℚ}

theorem window_advance : (r.advance th now).window th = (r.window th).advance th now := by
  unfold advance Window.advance
  by_cases h : r.state = .open ∧ th.cooldownSeconds ≤ Python.double (now - r.openedAt)
  · rw [if_pos h, if_pos (by exact h)]
    simp only [window, last]
  · rw [if_neg h, if_neg (by exact h)]

/-- The samples are there in the order of their times, none later than `now`. -/
structure Ordered (r : BreakerReference) (now : ℚ) : Prop where
  sorted : r.recorded.Pairwise fun s s' => s.time ≤ s'.time
  past : ∀ s ∈ r.recorded, s.time ≤ now

theorem Ordered.mono {now' : ℚ} (h : r.Ordered now) (hnow : now ≤ now') : r.Ordered now' where
  sorted := h.sorted
  past s hs := (h.past s hs).trans hnow

theorem Ordered.concat (h : r.Ordered now) (error validationFailure : Bool) (latencyMs : ℚ) :
    (r.recorded ++ [(⟨now, error, validationFailure, latencyMs⟩ : Sample)]).Pairwise fun s s' =>
      s.time ≤ s'.time := by
  refine List.pairwise_append.2 ⟨h.sorted, List.pairwise_singleton _ _, fun s hs s' hs' => ?_⟩
  rw [List.mem_singleton.1 hs']
  exact h.past s hs

theorem Ordered.advance (h : r.Ordered now) (now' : ℚ) : (r.advance th now').Ordered now := by
  unfold BreakerReference.advance
  split
  · exact ⟨h.sorted, h.past⟩
  · exact h

theorem Ordered.record (h : r.Ordered now) (error validationFailure : Bool) (latencyMs : ℚ) :
    (r.record th now error validationFailure latencyMs).Ordered now := by
  have hconcat := h.concat error validationFailure latencyMs
  have hpast : ∀ s ∈ r.recorded ++ [⟨now, error, validationFailure, latencyMs⟩], s.time ≤ now := by
    intro s hs
    rcases List.mem_append.1 hs with hs | hs
    · exact h.past s hs
    · rw [List.mem_singleton.1 hs]
  unfold BreakerReference.record
  cases r.state with
  | «open» => exact h
  | halfOpen => exact ⟨.nil, nofun⟩
  | closed =>
    dsimp only
    split
    · exact ⟨hconcat, hpast⟩
    · exact ⟨hconcat, hpast⟩

/-- **The queue is the window**, one record further. -/
theorem queue_eq (h : r.Ordered now) (error validationFailure : Bool) (latencyMs : ℚ) :
    (appendSample (inWindow th r.last r.recorded) ⟨now, error, validationFailure, latencyMs⟩).dropWhile
        (fun s => s.time < Python.double (now - th.windowSeconds)) =
      inWindow th now (r.recorded ++ [⟨now, error, validationFailure, latencyMs⟩]) := by
  have hsorted := h.concat error validationFailure latencyMs
  have happend : ∀ (l : List Sample) (s : Sample), appendSample l s = lastOf 1000 (l ++ [s]) := by
    intro l s
    rw [appendSample, lastOf, List.length_append, List.length_singleton]
  rw [happend]
  cases hlast : r.recorded.getLast? with
  | none =>
    have hnil := List.getLast?_eq_none_iff.1 hlast
    have hempty : inWindow th r.last [] = inWindow th now [] := rfl
    rw [hnil] at hsorted ⊢
    rw [hempty]
    have hfirst : lastOf 1000 ([] : List Sample) = [] := rfl
    have hpush := push_eq (n := 1000) Sample.time (by decide)
      (le_refl (Python.double (now - th.windowSeconds))) hsorted
    rwa [hfirst] at hpush
  | some s =>
    have hle : r.last ≤ now := by
      rw [last, hlast]
      exact h.past s (List.mem_of_getLast? hlast)
    exact push_eq Sample.time (by decide) (Python.double_mono (sub_le_sub_right hle _)) hsorted

theorem last_concat (recorded : List Sample) (s : Sample) (state : BreakerState) (openedAt : ℚ)
    (probing : Bool) : last ⟨recorded ++ [s], state, openedAt, probing⟩ = s.time := by
  simp [last]

theorem window_record (h : r.Ordered now) (error validationFailure : Bool) (latencyMs : ℚ) :
    (r.record th now error validationFailure latencyMs).window th =
      (r.window th).record th now error validationFailure latencyMs := by
  have hqueue := @queue_eq th r now h error validationFailure latencyMs
  unfold record Window.record
  cases hstate : r.state with
  | «open» => simp only [window, hstate]
  | halfOpen =>
    simp only [window, hstate, Bool.or_eq_true, decide_eq_true_eq, gt_iff_lt, or_assoc]
    rfl
  | closed =>
    simp only [window, hstate]
    rw [hqueue]
    by_cases htrips : Crosses th (inWindow th now
      (r.recorded ++ [⟨now, error, validationFailure, latencyMs⟩]))
    · rw [if_pos htrips, if_pos (trips_iff.2 htrips), last_concat]
    · rw [if_neg htrips, if_neg (fun h => htrips (trips_iff.1 h)), last_concat]

end BreakerReference

/-! ## Calls on all deployments

The windows of different deployments have nothing to do with each other but for the bound on their
number. A deployment that comes when the store is full has no window, and is refused. -/

/-- What a call does to the window of its deployment. -/
def Window.call (th : BreakerThresholds) (w : Window) : WindowCall → Window
  | .available _ now => w.advance th now
  | .acquire _ now =>
    let w := w.advance th now
    if w.state = .open ∨ w.probing then w
    else if w.state = .halfOpen then { w with probing := true }
    else w
  | .record _ now error validationFailure latencyMs => w.record th now error validationFailure latencyMs

section Calls

variable {th : BreakerThresholds} {b : CircuitBreakers} {r : BreakerReference} {d : String}

theorem CircuitBreakers.call_of_none {c : WindowCall} (h : b.window c.deployment = none) :
    b.call th c = b := by
  cases c with
  | available d now =>
    simp only [WindowCall.deployment] at h
    simp [call, available, h]
  | acquire d now =>
    simp only [WindowCall.deployment] at h
    simp [call, acquire, h]
  | record d now error validationFailure latencyMs =>
    simp only [WindowCall.deployment] at h
    simp [call, record, h]

theorem CircuitBreakers.call_of_some {c : WindowCall} {w : Window}
    (h : b.window c.deployment = some w) : b.call th c = b.set c.deployment (w.call th c) := by
  cases c with
  | available d now =>
    simp only [WindowCall.deployment] at h
    simp [call, available, h, Window.call, WindowCall.deployment]
  | acquire d now =>
    simp only [WindowCall.deployment] at h
    simp only [call, acquire, h, Window.call, WindowCall.deployment]
    by_cases hrefused : (w.advance th now).state = .open ∨ (w.advance th now).probing = true
    · simp only [if_pos hrefused]
    · simp only [if_neg hrefused]
      split <;> rfl
  | record d now error validationFailure latencyMs =>
    simp only [WindowCall.deployment] at h
    simp [call, record, h, Window.call, WindowCall.deployment]

theorem BreakerReference.window_call {c : WindowCall} (h : r.Ordered c.now) :
    (r.call th c).window th = (r.window th).call th c := by
  cases c with
  | available d now => exact window_advance
  | acquire d now =>
    have hadvance : (r.advance th now).window th = (r.window th).advance th now := window_advance
    simp only [BreakerReference.call, Window.call, ← hadvance]
    cases hstate : (r.advance th now).state with
    | closed => simp [window, hstate]
    | «open» => simp [window, hstate]
    | halfOpen =>
      cases hprobing : (r.advance th now).probing with
      | false => simp [window, hstate, hprobing, last]
      | true => simp [window, hstate, hprobing, last]
  | record d now error validationFailure latencyMs => exact window_record h _ _ _

theorem BreakerReference.Ordered.call {c : WindowCall} (h : r.Ordered c.now) :
    (r.call th c).Ordered c.now := by
  cases c with
  | available d now => exact h.advance now
  | acquire d now =>
    have hadvance : (r.advance th now).Ordered now := Ordered.advance h now
    simp only [BreakerReference.call]
    split
    · exact ⟨hadvance.sorted, hadvance.past⟩
    · exact hadvance
  | record d now error validationFailure latencyMs => exact h.record _ _ _

/-- The window of the deployment is that of the reference; a deployment for which there is no room has
    none. -/
def Refines (th : BreakerThresholds) (d : String) (b : CircuitBreakers) (r : BreakerReference) : Prop :=
  match b.get d with
  | some w => w = r.window th
  | none => r = {} ∨ 64 ≤ b.windows.keys.length

theorem le_length_keys_set (b : CircuitBreakers) (d : String) (w : Window) :
    b.windows.keys.length ≤ (b.set d w).windows.keys.length := by
  have herase : b.windows.keys.length - 1 ≤ (b.windows.keys.erase d).length := List.le_length_erase
  rw [CircuitBreakers.set, AList.keys_insert, List.length_cons]
  omega

/-- **Step lemma.** -/
theorem Refines.call {c : WindowCall} (h : Refines th d b r) (hordered : r.Ordered c.now) :
    Refines th d (b.call th c) (if c.deployment = d then r.call th c else r) := by
  cases hwindow : b.window c.deployment with
  | none =>
    -- there is no room, and never will be
    rw [CircuitBreakers.call_of_none hwindow]
    by_cases hd : c.deployment = d
    · subst hd
      rw [if_pos rfl]
      cases hget : b.get c.deployment with
      | some w => rw [b.window_of_get hget] at hwindow; cases hwindow
      | none =>
        have hfull : 64 ≤ b.windows.keys.length := by
          by_contra hroom
          simp [CircuitBreakers.window, hget, hroom] at hwindow
        simp only [Refines, hget]
        exact .inr hfull
    · rwa [if_neg hd]
  | some w =>
    rw [CircuitBreakers.call_of_some hwindow]
    by_cases hd : c.deployment = d
    · subst hd
      have hw : w = r.window th := by
        rcases b.window_cases hwindow with hget | ⟨hget, rfl⟩
        · simpa only [Refines, hget] using h
        · rcases (by simpa only [Refines, hget] using h : r = {} ∨ _) with rfl | hfull
          · rfl
          · simp [CircuitBreakers.window, hget, hfull] at hwindow
      rw [if_pos rfl, hw, ← BreakerReference.window_call hordered]
      simp [Refines]
    · rw [if_neg hd]
      have hget := CircuitBreakers.get_set_of_ne b (Ne.symm hd) (w.call th c)
      unfold Refines at h ⊢
      rw [hget]
      cases hold : b.get d with
      | some w' => simpa only [hold] using h
      | none =>
        simp only [hold] at h ⊢
        exact h.imp_right fun hfull => hfull.trans (le_length_keys_set b _ _)

theorem BreakerReference.Ordered.callAt {c : WindowCall} (h : r.Ordered c.now) :
    (if c.deployment = d then r.call th c else r).Ordered c.now := by
  split
  · exact h.call
  · exact h

/-- **Run lemma.** -/
theorem Refines.run {calls : List WindowCall} (h : Refines th d b r)
    (hordered : ∀ c ∈ calls, r.Ordered c.now) (hclock : (calls.map WindowCall.now).Pairwise (· ≤ ·)) :
    Refines th d (calls.foldl (CircuitBreakers.call th) b)
      (calls.foldl (fun r c => if c.deployment = d then r.call th c else r) r) := by
  induction calls generalizing b r with
  | nil => exact h
  | cons c calls ih =>
    obtain ⟨hnow, hrest⟩ := List.pairwise_cons.1 hclock
    have hc := hordered c List.mem_cons_self
    refine ih (h.call hc) (fun c' hc' => ?_) hrest
    exact hc.callAt.mono (hnow c'.now (List.mem_map_of_mem hc'))

theorem BreakerReference.Ordered.run {calls : List WindowCall} {now : ℚ} (h : r.Ordered now)
    (hordered : ∀ c ∈ calls, r.Ordered c.now) (hclock : (calls.map WindowCall.now).Pairwise (· ≤ ·))
    (hnow : ∀ c ∈ calls, c.now ≤ now) :
    (calls.foldl (fun r c => if c.deployment = d then r.call th c else r) r).Ordered now := by
  induction calls generalizing r with
  | nil => exact h
  | cons c calls ih =>
    obtain ⟨hlater, hrest⟩ := List.pairwise_cons.1 hclock
    have hc : (if c.deployment = d then r.call th c else r).Ordered c.now :=
      (hordered c List.mem_cons_self).callAt
    refine ih (hc.mono (hnow c List.mem_cons_self)) (fun c' hc' => ?_) hrest fun c' hc' =>
      hnow c' (List.mem_cons_of_mem c hc')
    exact hc.mono (hlater c'.now (List.mem_map_of_mem hc'))

/-- **The breaker looks back as the reference does.** On a clock that does not go back, the window of a
deployment has the state of the reference, and of its samples those of the last 1000 that are in the time
window; the next record while it is closed adds its sample, and opens it exactly when a threshold is
crossed by these. -/
theorem breaker_refines_reference (th : BreakerThresholds) {calls : List WindowCall}
    (hclock : (calls.map WindowCall.now).Pairwise (· ≤ ·)) {d : String} {w : Window}
    (hw : (calls.foldl (CircuitBreakers.call th) {}).get d = some w) :
    w.state = (reference th d calls).state ∧
      w.samples = inWindow th (reference th d calls).last (reference th d calls).recorded ∧
      ∀ now error validationFailure latencyMs, (∀ c ∈ calls, c.now ≤ now) →
        let w' := w.record th now error validationFailure latencyMs
        match w.state with
        | .closed =>
          w'.samples = inWindow th now ((reference th d calls).recorded ++
            [⟨now, error, validationFailure, latencyMs⟩]) ∧
          (w'.state = .open ↔ Crosses th w'.samples)
        | .open => w' = w
        | .halfOpen => w'.samples = [] := by
  have hnew : ∀ now, ({} : BreakerReference).Ordered now := fun now => ⟨.nil, nofun⟩
  have hrefines : Refines th d (calls.foldl (CircuitBreakers.call th) {}) (reference th d calls) :=
    Refines.run (b := {}) (r := {}) (.inl rfl) (fun c _ => hnew c.now) hclock
  simp only [Refines, hw] at hrefines
  subst hrefines
  refine ⟨by simp only [BreakerReference.window], by simp only [BreakerReference.window],
    fun now error validationFailure latencyMs hnow => ?_⟩
  have hordered : (reference th d calls).Ordered now :=
    (hnew now).run (fun c _ => hnew c.now) hclock hnow
  have hrecord : ((reference th d calls).record th now error validationFailure latencyMs).window th = _ :=
    BreakerReference.window_record hordered error validationFailure latencyMs
  dsimp only
  rw [← hrecord]
  cases hstate : (reference th d calls).state with
  | «open» =>
    simp only [BreakerReference.window, BreakerReference.record, hstate]
  | halfOpen =>
    simp only [BreakerReference.window, BreakerReference.record, hstate]
    rfl
  | closed =>
    simp only [BreakerReference.window, BreakerReference.record, hstate]
    split
    · simp [BreakerReference.last_concat, *]
    · simp [BreakerReference.last_concat, *]

/-- Three samples, of which the first is too old when the third is made. -/
def threeSamples : List WindowCall :=
  [.record "a" 0 false false 10, .record "a" 30 true false 10, .acquire "b" 40,
    .record "a" 61 false false 10]

theorem oldSample_dropped : ∃ w, (threeSamples.foldl (CircuitBreakers.call {}) {}).get "a" = some w ∧
    w.state = .closed ∧ w.samples = [⟨30, true, false, 10⟩, ⟨61, false, false, 10⟩] := by
  have hsome : ((threeSamples.foldl (CircuitBreakers.call {}) {}).get "a").isSome := by decide +kernel
  obtain ⟨w, hw⟩ := Option.isSome_iff_exists.1 hsome
  obtain ⟨hstate, hsamples, -⟩ := breaker_refines_reference {} (by decide +kernel) hw
  refine ⟨w, hw, hstate.trans (by decide +kernel), hsamples.trans (by decide +kernel)⟩

end Calls

end AdaptiveLlm
