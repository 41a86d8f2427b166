import AdaptiveLlm.Lib.Runs
import AdaptiveLlm.Routing.Breakers

set_option autoImplicit false

/-! # Overlapping attempts on the circuit breakers

The breakers are shared by every request in flight. The system below runs `available`, `acquire` and
`record` in any order on a nondecreasing clock, with any number of attempts between their `acquire`
and their `record`; each attempt remembers the state its breaker admitted it in, and `probe` names
the attempt a half-open breaker was last given to.

`record` looks at the breaker's state alone, not at the attempt it is called for. So an attempt that
was admitted while the breaker was closed and ends while it is half-open ends the probe's turn:
`halfOpenAuthority_iff` says that this is the only way the probe's authority is lost.

An attempt in flight is kept with the state it was admitted in. The source does not do so: no call
reads that state, only the law refers to it. The invariant relates the two: an attempt in flight that
was admitted half-open is the probe that its window waits for. Whether a record is stale is decided
before the call, by the attempt's state and the window's. -/

namespace AdaptiveLlm

/-- An attempt between the `acquire` that admitted it and its `record`. -/
structure InFlight where
  id : ℕ
  deployment : String
  /-- the breaker's state at admission -/
  admitted : BreakerState
  deriving DecidableEq, Repr

/-- The breakers, the clock and the attempts in flight. -/
structure BreakerSystem where
  breakers : CircuitBreakers := {}
  now : ℚ := 0
  inFlight : List InFlight := []
  nextId : ℕ := 0
  /-- the attempt last admitted by each deployment's breaker while half-open -/
  probe : String → Option ℕ := fun _ => none

/-- One call, or the clock moving on. `record id` ends attempt `id`. -/
inductive BreakerCall where
  | tick (reading : ℚ)
  | available (deployment : String)
  | acquire (deployment : String)
  | record (id : ℕ) (error validationFailure : Bool) (latencyMs : ℚ)

namespace BreakerSystem

variable (th : BreakerThresholds)

/-- The breaker state of a deployment; one without a window counts as closed. -/
def stateOf (s : BreakerSystem) (d : String) : BreakerState :=
  ((s.breakers.get d).map (·.state)).getD .closed

/-- The attempt an `acquire` of `d` has just admitted joins those in flight. -/
def start (s : BreakerSystem) (d : String) : BreakerSystem :=
  { s with
    inFlight := ⟨s.nextId, d, s.stateOf d⟩ :: s.inFlight
    nextId := s.nextId + 1
    probe := if s.stateOf d = .halfOpen then Function.update s.probe d (some s.nextId)
      else s.probe }

/-- One call on the breakers, or the clock goes on. -/
def step (s : BreakerSystem) : BreakerCall → BreakerSystem
  | .tick reading => { s with now := max s.now reading }
  | .available d => { s with breakers := (s.breakers.available d th s.now).2 }
  | .acquire d =>
    let r := s.breakers.acquire d th s.now
    if r.1 then start { s with breakers := r.2 } d else { s with breakers := r.2 }
  | .record id error validationFailure latencyMs =>
    match s.inFlight.find? (·.id = id) with
    | none => s
    | some a =>
      { s with
        breakers := s.breakers.record a.deployment th s.now error validationFailure latencyMs
        inFlight := s.inFlight.erase a }

/-- The attempts in flight that `d`'s breaker admitted while half-open. -/
def halfOpenFlights (s : BreakerSystem) (d : String) : List InFlight :=
  s.inFlight.filter (fun a => a.deployment = d ∧ a.admitted = .halfOpen)

/-- The call takes `d`'s breaker out of `half_open`, or clears its `probing` mark. -/
def EndsProbe (s : BreakerSystem) (c : BreakerCall) (d : String) : Prop :=
  ∃ w w', s.breakers.get d = some w ∧ (s.step th c).breakers.get d = some w' ∧
    (w.state = .halfOpen ∧ w'.state ≠ .halfOpen ∨ w.probing = true ∧ w'.probing = false)

/-- The call is the record of the attempt that `d`'s half-open breaker was given to. -/
def IsProbeRecord (s : BreakerSystem) (c : BreakerCall) (d : String) : Prop :=
  ∃ a ∈ s.inFlight, a.deployment = d ∧ a.admitted = .halfOpen ∧ s.probe d = some a.id ∧
    ∃ error validationFailure latencyMs, c = .record a.id error validationFailure latencyMs

/-- Half-open authority at one call: at most one half-open admission is in flight on either side of
    it, and it ends a probe's turn only as that probe's record. -/
def HalfOpenAuthority (s : BreakerSystem) (c : BreakerCall) : Prop :=
  (∀ d, (s.halfOpenFlights d).length ≤ 1 ∧ ((s.step th c).halfOpenFlights d).length ≤ 1) ∧
    ∀ d, s.EndsProbe th c d → s.IsProbeRecord c d

/-- The call does not record, on a half-open breaker, an attempt that was admitted while it was
    closed. -/
def NotStale (s : BreakerSystem) (c : BreakerCall) : Prop :=
  ∀ a ∈ s.inFlight, (∃ error validationFailure latencyMs,
    c = .record a.id error validationFailure latencyMs) →
    s.stateOf a.deployment = .halfOpen → a.admitted = .halfOpen

/-! ## The invariant

An attempt in flight that was admitted half-open is the probe that its breaker waits for. So there
is one of a deployment at most, and its breaker is half-open still. -/

/-- Attempts have distinct past ids; an attempt admitted half-open is the probe of a breaker that
    still is, and a breaker's probe mark belongs to such an attempt. -/
structure Inv (s : BreakerSystem) : Prop where
  idLt : ∀ a ∈ s.inFlight, a.id < s.nextId
  nodup : (s.inFlight.map (·.id)).Nodup
  isProbe : ∀ a ∈ s.inFlight, a.admitted = .halfOpen →
    s.probe a.deployment = some a.id ∧
      ∃ w, s.breakers.get a.deployment = some w ∧ w.state = .halfOpen ∧ w.probing = true
  marked : ∀ d w, s.breakers.get d = some w → w.probing = true → w.state = .halfOpen

variable {th} {s : BreakerSystem}

theorem inv_init : Inv {} where
  idLt := by simp
  nodup := by simp
  isProbe := by simp
  marked := by simp

/-- Two attempts in flight with one id are one attempt. -/
theorem Inv.eq_of_id_eq (h : s.Inv) {a a' : InFlight} (ha : a ∈ s.inFlight)
    (ha' : a' ∈ s.inFlight) (heq : a.id = a'.id) : a = a' :=
  List.inj_on_of_nodup_map h.nodup ha ha' heq

/-- A half-open breaker is given to one attempt at a time. -/
theorem Inv.probe_unique (h : s.Inv) {a a' : InFlight} (ha : a ∈ s.inFlight)
    (ha' : a' ∈ s.inFlight) (hd : a.deployment = a'.deployment) (hh : a.admitted = .halfOpen)
    (hh' : a'.admitted = .halfOpen) : a = a' := by
  have hp := (h.isProbe a ha hh).1
  have hp' := (h.isProbe a' ha' hh').1
  rw [hd, hp'] at hp
  exact h.eq_of_id_eq ha ha' (Option.some.inj hp).symm

theorem mem_halfOpenFlights {d : String} {a : InFlight} :
    a ∈ s.halfOpenFlights d ↔ a ∈ s.inFlight ∧ a.deployment = d ∧ a.admitted = .halfOpen := by
  simp [halfOpenFlights]

theorem Inv.halfOpenFlights_le_one (h : s.Inv) (d : String) :
    (s.halfOpenFlights d).length ≤ 1 := by
  have hnodup : (s.halfOpenFlights d).Nodup := (List.Nodup.of_map _ h.nodup).filter _
  match hl : s.halfOpenFlights d with
  | [] => simp
  | [_] => simp
  | a :: a' :: _ =>
    obtain ⟨ha, hd, hh⟩ := mem_halfOpenFlights.1 (hl ▸ List.mem_cons_self : a ∈ s.halfOpenFlights d)
    obtain ⟨ha', hd', hh'⟩ := mem_halfOpenFlights.1
      (hl ▸ List.mem_cons_of_mem _ List.mem_cons_self : a' ∈ s.halfOpenFlights d)
    rw [hl] at hnodup
    have heq := h.probe_unique ha ha' (hd.trans hd'.symm) hh hh'
    exact absurd (heq ▸ List.mem_cons_self) (List.nodup_cons.1 hnodup).1

/-! ## One call keeps the invariant

A call on the breakers advances the window of one deployment and then changes it. The cases are
those of the source: available, acquire in each of the three states, and a record that ends the
probe or adds a sample. -/

/-- The store after one window has been written back, window by window. -/
theorem get_set_cases {b : CircuitBreakers} {d d' : String} {w w' : Window}
    (h : (b.set d w).get d' = some w') : d' = d ∧ w' = w ∨ d' ≠ d ∧ b.get d' = some w' := by
  by_cases hd : d' = d
  · subst hd
    exact Or.inl ⟨rfl, by simpa using h.symm⟩
  · rw [CircuitBreakers.get_set_of_ne _ hd] at h
    exact Or.inr ⟨hd, h⟩

/-- A call that only advances a window (`available`, a refused `acquire`) keeps the invariant. -/
theorem Inv.advance (h : s.Inv) (th : BreakerThresholds) {d : String} {w : Window}
    (hw : s.breakers.window d = some w) :
    Inv { s with breakers := s.breakers.set d (w.advance th s.now) } where
  idLt := h.idLt
  nodup := h.nodup
  isProbe a ha hh := by
    obtain ⟨hp, w₀, hw₀, hst, hpr⟩ := h.isProbe a ha hh
    by_cases hd : a.deployment = d
    · subst hd
      obtain rfl : w₀ = w := Option.some.inj ((s.breakers.window_of_get hw₀).symm.trans hw)
      exact ⟨hp, w₀.advance th s.now, by simp,
        by rw [w₀.advance_halfOpen th s.now hst]; exact ⟨hst, hpr⟩⟩
    · exact ⟨hp, w₀, by rwa [CircuitBreakers.get_set_of_ne _ hd], hst, hpr⟩
  marked d' w' hw' hpr := by
    rcases get_set_cases hw' with ⟨rfl, rfl⟩ | ⟨-, hold⟩
    · rw [Window.advance_probing] at hpr
      rcases s.breakers.window_cases hw with hget | ⟨-, rfl⟩
      · have hst := h.marked d' w hget hpr
        rwa [w.advance_halfOpen th s.now hst]
      · exact absurd hpr (by simp)
    · exact h.marked d' w' hold hpr

theorem inv_available (h : s.Inv) (d : String) : (s.step th (.available d)).Inv := by
  simp only [step, CircuitBreakers.available]
  cases hw : s.breakers.window d with
  | none => exact h
  | some w => exact h.advance th hw

/-- An attempt admitted by a closed breaker. -/
theorem Inv.start_closed (h : s.Inv) {d : String} (hst : s.stateOf d ≠ .halfOpen) :
    (s.start d).Inv where
  idLt a ha := by
    rcases List.mem_cons.1 ha with rfl | ha
    · exact Nat.lt_succ_self _
    · exact (h.idLt a ha).trans (Nat.lt_succ_self _)
  nodup := by
    refine List.nodup_cons.2 ⟨fun hmem => ?_, h.nodup⟩
    obtain ⟨a, ha, heq⟩ := List.mem_map.1 hmem
    exact absurd (h.idLt a ha) (by simp [heq])
  isProbe a ha hh := by
    simp only [start, if_neg hst]
    rcases List.mem_cons.1 ha with rfl | ha
    · exact absurd hh hst
    · exact h.isProbe a ha hh
  marked := h.marked

/-- An attempt admitted by a half-open breaker whose probe mark was free: it takes the mark. -/
theorem Inv.start_halfOpen (h : s.Inv) {d : String} {w : Window}
    (hw : s.breakers.get d = some w) (hst : w.state = .halfOpen) (hpr : w.probing = false) :
    (start { s with breakers := s.breakers.set d { w with probing := true } } d).Inv := by
  have hstate : stateOf { s with breakers := s.breakers.set d { w with probing := true } } d
      = .halfOpen := by simp [stateOf, hst]
  have hother : ∀ a ∈ s.inFlight, a.admitted = .halfOpen → a.deployment ≠ d := by
    rintro a ha hh rfl
    obtain ⟨-, w₀, hw₀, -, hpr₀⟩ := h.isProbe a ha hh
    obtain rfl : w = w₀ := Option.some.inj (hw.symm.trans hw₀)
    rw [hpr] at hpr₀
    exact absurd hpr₀ (by simp)
  constructor
  case idLt =>
    intro a ha
    rcases List.mem_cons.1 ha with rfl | ha
    · exact Nat.lt_succ_self _
    · exact (h.idLt a ha).trans (Nat.lt_succ_self _)
  case nodup =>
    refine List.nodup_cons.2 ⟨fun hmem => ?_, h.nodup⟩
    obtain ⟨a, ha, heq⟩ := List.mem_map.1 hmem
    exact absurd (h.idLt a ha) (by simp [heq])
  case isProbe =>
    intro a ha hh
    simp only [start, if_pos hstate]
    rcases List.mem_cons.1 ha with rfl | ha
    · exact ⟨by simp, _, CircuitBreakers.get_set_self _ _ _, hst, rfl⟩
    · have hd := hother a ha hh
      obtain ⟨hp, w₀, hw₀, hst₀, hpr₀⟩ := h.isProbe a ha hh
      exact ⟨by rwa [Function.update_of_ne hd], w₀,
        by rwa [CircuitBreakers.get_set_of_ne _ hd], hst₀, hpr₀⟩
  case marked =>
    intro d' w' hw' hpr'
    rcases get_set_cases hw' with ⟨-, rfl⟩ | ⟨-, hold⟩
    · exact hst
    · exact h.marked d' w' hold hpr'

theorem inv_acquire (h : s.Inv) (d : String) : (s.step th (.acquire d)).Inv := by
  rcases s.breakers.acquire_cases d th s.now with ⟨-, heq⟩ | ⟨w, hw, hcase⟩
  · simpa [step, heq] using h
  have hadv := h.advance th hw
  rcases hcase with ⟨-, heq⟩ | ⟨hfree, hst, heq⟩ | ⟨-, hst, heq⟩
  · simpa [step, heq] using hadv
  · simpa [step, heq] using hadv.start_halfOpen (d := d) (by simp) hst hfree
  · have hclosed := hadv.start_closed (d := d) (by simp [stateOf, hst])
    simpa [step, heq] using hclosed

/-- The record of an attempt in flight, as one change of the system. -/
theorem step_record {a : InFlight} (h : s.Inv) (ha : a ∈ s.inFlight) {error validationFailure : Bool}
    {latencyMs : ℚ} :
    s.step th (.record a.id error validationFailure latencyMs) =
      { s with
        breakers := s.breakers.record a.deployment th s.now error validationFailure latencyMs
        inFlight := s.inFlight.erase a } := by
  have hfind : s.inFlight.find? (·.id = a.id) = some a := by
    cases hf : s.inFlight.find? (·.id = a.id) with
    | none => exact absurd (List.find?_eq_none.1 hf a ha) (by simp)
    | some a' =>
      have hid : a'.id = a.id := by simpa using List.find?_some hf
      rw [h.eq_of_id_eq (List.mem_of_find?_eq_some hf) ha hid]
  simp only [step, hfind]

/-- The record of an id that is not in flight is no call at all. -/
theorem step_record_of_not_mem {id : ℕ} (hid : ∀ a ∈ s.inFlight, a.id ≠ id)
    {error validationFailure : Bool} {latencyMs : ℚ} :
    s.step th (.record id error validationFailure latencyMs) = s := by
  have hfind : s.inFlight.find? (·.id = id) = none :=
    List.find?_eq_none.2 fun a ha => by simpa using hid a ha
  simp only [step, hfind]

/-- The record of a probe, or of an attempt whose breaker is not half-open, keeps the invariant. -/
theorem Inv.record (h : s.Inv) {a : InFlight} (ha : a ∈ s.inFlight)
    (hok : s.stateOf a.deployment = .halfOpen → a.admitted = .halfOpen)
    {error validationFailure : Bool} {latencyMs : ℚ} :
    Inv { s with
      breakers := s.breakers.record a.deployment th s.now error validationFailure latencyMs
      inFlight := s.inFlight.erase a } := by
  have hmem : ∀ a' ∈ s.inFlight.erase a, a' ∈ s.inFlight := fun a' => List.mem_of_mem_erase
  cases hw : s.breakers.window a.deployment with
  | none =>
    simp only [CircuitBreakers.record, hw]
    exact ⟨fun a' ha' => h.idLt a' (hmem a' ha'), h.nodup.sublist (List.erase_sublist.map _),
      fun a' ha' => h.isProbe a' (hmem a' ha'), h.marked⟩
  | some w =>
    simp only [CircuitBreakers.record, hw]
    constructor
    case idLt => exact fun a' ha' => h.idLt a' (hmem a' ha')
    case nodup => exact h.nodup.sublist (List.erase_sublist.map _)
    case isProbe =>
      intro a' ha' hh'
      obtain ⟨hp, w', hw', hst, hpr⟩ := h.isProbe a' (hmem a' ha') hh'
      by_cases hd : a'.deployment = a.deployment
      · -- the breaker is half-open, so `a` is its probe, and so is `a'`
        have hstate : s.stateOf a.deployment = .halfOpen := by simp [stateOf, ← hd, hw', hst]
        have heq := h.probe_unique ha (hmem a' ha') hd.symm (hok hstate) hh'
        have hnodup : s.inFlight.Nodup := List.Nodup.of_map _ h.nodup
        exact absurd ha' (heq ▸ hnodup.not_mem_erase)
      · exact ⟨hp, w', by rwa [CircuitBreakers.get_set_of_ne _ hd], hst, hpr⟩
    case marked =>
      intro d' w' hw' hpr
      rcases get_set_cases hw' with ⟨rfl, rfl⟩ | ⟨-, hold⟩
      · by_cases hst : w.state = .halfOpen
        · rw [(w.record_halfOpen th s.now error validationFailure latencyMs hst).2] at hpr
          exact absurd hpr (by simp)
        · rw [(w.record_of_ne_halfOpen th s.now error validationFailure latencyMs hst).2] at hpr
          rcases s.breakers.window_cases hw with hget | ⟨-, rfl⟩
          · exact absurd (h.marked _ w hget hpr) hst
          · exact absurd hpr (by simp)
      · exact h.marked d' w' hold hpr

theorem inv_step (h : s.Inv) (c : BreakerCall) (hok : s.NotStale c) : (s.step th c).Inv := by
  cases c with
  | tick reading => exact ⟨h.idLt, h.nodup, h.isProbe, h.marked⟩
  | available d => exact inv_available h d
  | acquire d => exact inv_acquire h d
  | record id error validationFailure latencyMs =>
    by_cases hid : ∃ a ∈ s.inFlight, a.id = id
    · obtain ⟨a, ha, rfl⟩ := hid
      rw [step_record h ha]
      exact h.record ha (hok a ha ⟨_, _, _, rfl⟩)
    · push Not at hid
      rwa [step_record_of_not_mem hid]

/-! ## What ends a probe's turn

A record while the breaker is half-open ends it. Whether it was the probe's own is decided by the
attempt it is for, so the law is an equivalence at each step, and the run rule carries it to
runs. -/

/-- Under the invariant a call that ends a probe's turn records an attempt of that deployment, on a
    breaker that is half-open. -/
theorem EndsProbe.isRecord (h : s.Inv) {c : BreakerCall} {d : String} (hends : s.EndsProbe th c d) :
    s.stateOf d = .halfOpen ∧ ∃ a ∈ s.inFlight, a.deployment = d ∧
      ∃ error validationFailure latencyMs, c = .record a.id error validationFailure latencyMs := by
  obtain ⟨w, w', hw, hw', hend⟩ := hends
  have hhalf : w.state = .halfOpen := by
    rcases hend with ⟨hst, -⟩ | ⟨hpr, -⟩
    · exact hst
    · exact h.marked d w hw hpr
  refine ⟨by simp [stateOf, hw, hhalf], ?_⟩
  have hkept : ¬ (w' = w ∨ w' = { w with probing := true }) := by
    rintro (rfl | rfl) <;> simp [hhalf] at hend
  cases c with
  | tick reading => exact absurd (Or.inl (Option.some.inj (hw'.symm.trans hw))) hkept
  | available d₀ =>
    have hget := s.breakers.get_available_halfOpen d₀ th s.now hw hhalf
    exact absurd (Or.inl (Option.some.inj (hw'.symm.trans hget))) hkept
  | acquire d₀ =>
    have hbreakers : (s.step th (.acquire d₀)).breakers = (s.breakers.acquire d₀ th s.now).2 := by
      simp only [step]; split <;> rfl
    rw [hbreakers] at hw'
    rcases s.breakers.get_acquire_halfOpen d₀ th s.now hw hhalf with hget | hget
    · exact absurd (Or.inl (Option.some.inj (hw'.symm.trans hget))) hkept
    · exact absurd (Or.inr (Option.some.inj (hw'.symm.trans hget))) hkept
  | record id error validationFailure latencyMs =>
    by_cases hid : ∃ a ∈ s.inFlight, a.id = id
    · obtain ⟨a, ha, rfl⟩ := hid
      refine ⟨a, ha, ?_, _, _, _, rfl⟩
      by_contra hd
      rw [step_record h ha] at hw'
      rw [s.breakers.get_record_of_ne _ _ _ (Ne.symm hd), hw] at hw'
      exact hkept (Or.inl (Option.some.inj hw').symm)
    · push Not at hid
      rw [step_record_of_not_mem hid, hw] at hw'
      exact absurd (Or.inl (Option.some.inj hw').symm) hkept

/-- At a state of the invariant, authority is kept exactly by the calls that are not stale. -/
theorem Inv.authority_iff (h : s.Inv) (c : BreakerCall) :
    s.HalfOpenAuthority th c ↔ s.NotStale c := by
  constructor
  · -- a record on a half-open breaker ends the probe's turn, whoever it is for
    rintro ⟨-, hauth⟩ a ha ⟨error, validationFailure, latencyMs, rfl⟩ hst
    obtain ⟨w, hw, hhalf⟩ : ∃ w, s.breakers.get a.deployment = some w ∧ w.state = .halfOpen := by
      cases hget : s.breakers.get a.deployment with
      | none => simp [stateOf, hget] at hst
      | some w => exact ⟨w, rfl, by simpa [stateOf, hget] using hst⟩
    have hends : s.EndsProbe th (.record a.id error validationFailure latencyMs) a.deployment := by
      refine ⟨w, w.record th s.now error validationFailure latencyMs, hw, ?_, Or.inl ⟨hhalf, ?_⟩⟩
      · rw [step_record h ha]
        simp [CircuitBreakers.record, s.breakers.window_of_get hw]
      · exact (w.record_halfOpen th s.now error validationFailure latencyMs hhalf).1
    obtain ⟨a', ha', -, hh', -, _, _, _, heq⟩ := hauth _ hends
    simp only [BreakerCall.record.injEq] at heq
    rwa [h.eq_of_id_eq ha ha' heq.1]
  · intro hok
    refine ⟨fun d => ⟨h.halfOpenFlights_le_one d, (inv_step h c hok).halfOpenFlights_le_one d⟩, ?_⟩
    intro d hends
    obtain ⟨hst, a, ha, rfl, hrec⟩ := hends.isRecord h
    have hh := hok a ha hrec hst
    exact ⟨a, ha, rfl, hh, (h.isProbe a ha hh).1, hrec⟩

end BreakerSystem

open BreakerSystem in
/-- **Half-open authority.** Along a run of overlapping attempts, each half-open breaker has at most
    one of its probes in flight and is ended by its probe alone, exactly when no attempt admitted by
    a closed breaker is recorded while that breaker is half-open. -/
theorem halfOpenAuthority_iff (th : BreakerThresholds) (calls : List BreakerCall) :
    Runs.EveryStep (step th) (fun s c => s.HalfOpenAuthority th c) {} calls ↔
      Runs.EveryStep (step th) NotStale {} calls :=
  Runs.everyStep_iff_of_invariant (fun _ c h hok => inv_step h c hok)
    (fun _ c h => h.authority_iff c) inv_init

open BreakerSystem in
/-- Two attempts start on a closed breaker; the first one trips it, the second one ends, late, while
    the probe is out. The breaker reopens, and after the next cooldown a second probe joins the
    first. -/
theorem stale_record_admits_second_probe :
    ¬ Runs.EveryStep (step { minimumSamples := 1 })
      (fun s c => s.HalfOpenAuthority { minimumSamples := 1 } c) {}
      [.acquire "m", .acquire "m", .record 0 true false 1, .tick 30, .acquire "m",
        .record 1 true false 1, .tick 60, .acquire "m"] := by
  rintro ⟨-, -, -, -, -, -, -, ⟨hone, -⟩, -⟩
  exact absurd (hone "m").2 (by decide +kernel)

end AdaptiveLlm
