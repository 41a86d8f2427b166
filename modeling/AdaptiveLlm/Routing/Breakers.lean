import AdaptiveLlm.Evaluation.Stats
import AdaptiveLlm.Python.Float
import Mathlib.Data.List.AList
import Mathlib.Tactic.NormNum

set_option autoImplicit false

/-! # Circuit breakers

`routing/breakers.py`: one sliding window per deployment, process-local and bounded. A window is
`closed`, trips to `open` when its recent samples cross a threshold, becomes `half_open` once the
cooldown is over and is then closed or reopened by the next record.

Times, rates and latencies are the doubles of the source: a value is the rational it stands for, and
the result of each operation on such values is rounded as Python rounds it (`Python.double`; the
quotient of two integers, `Python.float`). `now` is the value `self.clock()` returns inside the call;
every method runs under the object's lock, so a call is one atomic step. The `breaker_state` gauge
(`_publish`) is an output only and has no counterpart here.

The order of the calls is free: `available` asks without asking for anything, `acquire` asks and
takes the probe if there is one to take, `record` ends an attempt. Each has a lemma about the
deployment it is called for and one that the others are left alone. What holds of whole runs is in
`Routing/BreakerRuns.lean` and `Routing/BreakerWindows.lean`. -/

namespace AdaptiveLlm

/-- `BreakerState`. -/
inductive BreakerState where
  | closed
  | «open»
  | halfOpen
  deriving DecidableEq, Repr

/-! The defaults of the thresholds are within the bounds. -/

namespace BreakerThresholds

theorem default_window : (0 : ℚ) < 60 ∧ (60 : ℚ) ≤ 3600 := by norm_num

theorem default_minimum : 1 ≤ 5 ∧ 5 ≤ 1000 := by decide

theorem default_rate : (0 : ℚ) < 1 / 2 ∧ (1 / 2 : ℚ) ≤ 1 := by norm_num

theorem default_latency : (0 : ℚ) < 5000 := by norm_num

theorem default_cooldown : (0 : ℚ) < 30 ∧ (30 : ℚ) ≤ 3600 := by norm_num

end BreakerThresholds

/-- `BreakerThresholds` with the bounds its fields are declared with. -/
structure BreakerThresholds where
  windowSeconds : ℚ := 60
  minimumSamples : ℕ := 5
  errorRate : ℚ := 1 / 2
  validationFailureRate : ℚ := 1 / 2
  p95LatencyMs : ℚ := 5000
  cooldownSeconds : ℚ := 30
  window_bounds : 0 < windowSeconds ∧ windowSeconds ≤ 3600 := by
    first | exact BreakerThresholds.default_window | norm_num
  minimum_bounds : 1 ≤ minimumSamples ∧ minimumSamples ≤ 1000 := by
    first | exact BreakerThresholds.default_minimum | decide
  error_bounds : 0 < errorRate ∧ errorRate ≤ 1 := by
    first | exact BreakerThresholds.default_rate | norm_num
  validation_bounds : 0 < validationFailureRate ∧ validationFailureRate ≤ 1 := by
    first | exact BreakerThresholds.default_rate | norm_num
  latency_pos : 0 < p95LatencyMs := by
    first | exact BreakerThresholds.default_latency | norm_num
  cooldown_bounds : 0 < cooldownSeconds ∧ cooldownSeconds ≤ 3600 := by
    first | exact BreakerThresholds.default_cooldown | norm_num

/-- One entry of `Window.samples`: time, error, validation failure, latency. -/
structure Sample where
  time : ℚ
  error : Bool
  validationFailure : Bool
  latencyMs : ℚ
  deriving DecidableEq, Repr

/-- `Window`; `samples` has its oldest entry first. -/
structure Window where
  samples : List Sample := []
  state : BreakerState := .closed
  openedAt : ℚ := 0
  probing : Bool := false
  deriving DecidableEq, Repr

/-- `deque(maxlen=1000).append`: a full deque drops its oldest entry. -/
def appendSample (samples : List Sample) (s : Sample) : List Sample :=
  (samples ++ [s]).drop (samples.length + 1 - 1000)

/-- `_advance`: an open window whose cooldown is over becomes half-open. -/
def Window.advance (w : Window) (th : BreakerThresholds) (now : ℚ) : Window :=
  if w.state = .open ∧ Python.double (now - w.openedAt) ≥ th.cooldownSeconds then
    { w with state := .halfOpen }
  else w

/-- The trip test of `record` over the samples that are still in the window. -/
def trips (samples : List Sample) (th : BreakerThresholds) : Bool :=
  let count := samples.length
  count ≥ th.minimumSamples &&
    (Python.float ((samples.countP (·.error) : ℚ) / count) ≥ th.errorRate ||
      Python.float ((samples.countP (·.validationFailure) : ℚ) / count) ≥ th.validationFailureRate ||
      -- `count ≥ minimumSamples ≥ 1` here, so `percentile` never takes its error path
      (roundedPercentile Python.double (samples.map (·.latencyMs)) (Python.double (95 / 100))).any
        (· > th.p95LatencyMs))

-- the exact percentile of these latencies is the threshold itself, the double is above it
example : trips ((List.replicate 18 100 ++ [4500, 14500]).map fun latencyMs => ⟨0, false,
    false, latencyMs⟩) {} = true := by decide +kernel

/-- The window part of `record`. -/
def Window.record (w : Window) (th : BreakerThresholds) (now : ℚ) (error validationFailure : Bool)
    (latencyMs : ℚ) : Window :=
  let bad := error || validationFailure || decide (latencyMs > th.p95LatencyMs)
  match w.state with
  | .halfOpen =>
    { samples := [], state := if bad then .open else .closed, openedAt := now, probing := false }
  | .closed =>
    let samples := (appendSample w.samples ⟨now, error, validationFailure, latencyMs⟩).dropWhile
      (fun s => s.time < Python.double (now - th.windowSeconds))
    if trips samples th then { w with samples := samples, state := .open, openedAt := now }
    else { w with samples := samples }
  | .open => w

/-- `CircuitBreakers._windows`. -/
structure CircuitBreakers where
  windows : AList (fun _ : String => Window) := ∅

namespace CircuitBreakers

variable (b : CircuitBreakers)

/-- The window stored for a deployment, if any. -/
def get (deployment : String) : Option Window :=
  b.windows.lookup deployment

/-- Writes a window back after a method has changed it in place. -/
def set (deployment : String) (w : Window) : CircuitBreakers :=
  { windows := b.windows.insert deployment w }

/-- `_window`: the deployment's window, a fresh one while fewer than 64 are held, else refused. -/
def window (deployment : String) : Option Window :=
  match b.get deployment with
  | some w => some w
  | none => if b.windows.keys.length ≥ 64 then none else some {}

/-- `available`. -/
def available (deployment : String) (th : BreakerThresholds) (now : ℚ) :
    Bool × CircuitBreakers :=
  match b.window deployment with
  | none => (false, b)
  | some w =>
    let w := w.advance th now
    (w.state ≠ .open && !w.probing, b.set deployment w)

/-- `acquire`: admission of one attempt; the one admitted in `half_open` is the probe. -/
def acquire (deployment : String) (th : BreakerThresholds) (now : ℚ) : Bool × CircuitBreakers :=
  match b.window deployment with
  | none => (false, b)
  | some w =>
    let w := w.advance th now
    if w.state = .open ∨ w.probing then (false, b.set deployment w)
    else if w.state = .halfOpen then (true, b.set deployment { w with probing := true })
    else (true, b.set deployment w)

/-- `record`: the end of one attempt. -/
def record (deployment : String) (th : BreakerThresholds) (now : ℚ)
    (error validationFailure : Bool) (latencyMs : ℚ) : CircuitBreakers :=
  match b.window deployment with
  | none => b
  | some w => b.set deployment (w.record th now error validationFailure latencyMs)

/-! ## Lookups after a call -/

@[simp] theorem get_empty (d : String) : ({} : CircuitBreakers).get d = none := rfl

@[simp] theorem get_set_self (d : String) (w : Window) : (b.set d w).get d = some w := by
  simp [get, set]

@[simp] theorem get_set_of_ne {d d' : String} (h : d' ≠ d) (w : Window) :
    (b.set d w).get d' = b.get d' := by
  simp [get, set, AList.lookup_insert_ne h]

@[simp] theorem set_set (d : String) (w w' : Window) : (b.set d w).set d w' = b.set d w' := by
  simp [set]

theorem window_of_get {d : String} {w : Window} (h : b.get d = some w) : b.window d = some w := by
  simp [window, h]

/-- A window that `_window` hands out is the stored one, or a fresh closed one. -/
theorem window_cases {d : String} {w : Window} (h : b.window d = some w) :
    b.get d = some w ∨ b.get d = none ∧ w = {} := by
  unfold window at h
  split at h
  · next w' hw => exact Or.inl (hw.trans h)
  · next hw =>
    split at h
    · exact absurd h (by simp)
    · exact Or.inr ⟨hw, (Option.some.inj h).symm⟩

/-- The ways an `acquire` can go: no room for a window, refused, admitted as the probe of a
    half-open breaker, admitted by a closed one. -/
theorem acquire_cases (d : String) (th : BreakerThresholds) (now : ℚ) :
    b.window d = none ∧ b.acquire d th now = (false, b) ∨
    ∃ w, b.window d = some w ∧
      (((w.advance th now).state = .open ∨ (w.advance th now).probing = true) ∧
          b.acquire d th now = (false, b.set d (w.advance th now)) ∨
        (w.advance th now).probing = false ∧ (w.advance th now).state = .halfOpen ∧
          b.acquire d th now = (true, b.set d { w.advance th now with probing := true }) ∨
        (w.advance th now).probing = false ∧ (w.advance th now).state = .closed ∧
          b.acquire d th now = (true, b.set d (w.advance th now))) := by
  cases hw : b.window d with
  | none => exact Or.inl ⟨rfl, by simp [acquire, hw]⟩
  | some w =>
    refine Or.inr ⟨w, rfl, ?_⟩
    by_cases hrefused : (w.advance th now).state = .open ∨ (w.advance th now).probing = true
    · exact Or.inl ⟨hrefused, by simp only [acquire, hw, if_pos hrefused]⟩
    · have hfree : (w.advance th now).probing = false := by
        simpa using fun hp => hrefused (Or.inr hp)
      refine Or.inr ?_
      cases hst : (w.advance th now).state with
      | closed =>
        exact Or.inr ⟨hfree, rfl, by simp [acquire, hw, hst, hfree]⟩
      | «open» => exact absurd (Or.inl hst) hrefused
      | halfOpen => exact Or.inl ⟨hfree, rfl, by simp [acquire, hw, hst, hfree]⟩

end CircuitBreakers

/-! ## What a call does to a window -/

namespace Window

variable (w : Window) (th : BreakerThresholds) (now : ℚ)

@[simp] theorem advance_probing : (w.advance th now).probing = w.probing := by
  unfold advance; split <;> rfl

@[simp] theorem advance_samples : (w.advance th now).samples = w.samples := by
  unfold advance; split <;> rfl

theorem advance_halfOpen (h : w.state = .halfOpen) : w.advance th now = w := by
  simp [advance, h]

variable (error validationFailure : Bool) (latencyMs : ℚ)

/-- Every record made in `half_open` ends it and clears the probe mark. -/
theorem record_halfOpen (h : w.state = .halfOpen) :
    (w.record th now error validationFailure latencyMs).state ≠ .halfOpen ∧
      (w.record th now error validationFailure latencyMs).probing = false := by
  simp only [record, h]
  split <;> simp

/-- Outside `half_open` a record neither enters it nor touches the probe mark. -/
theorem record_of_ne_halfOpen (h : w.state ≠ .halfOpen) :
    (w.record th now error validationFailure latencyMs).state ≠ .halfOpen ∧
      (w.record th now error validationFailure latencyMs).probing = w.probing := by
  unfold record
  cases hs : w.state with
  | closed => dsimp only; split <;> simp
  | «open» => simp [hs]
  | halfOpen => exact absurd hs h

end Window

/-! ## Half-open breakers under the other calls -/

namespace CircuitBreakers

variable (b : CircuitBreakers) {d : String} {w : Window} (d₀ : String) (th : BreakerThresholds)
  (now : ℚ)

/-- `available` leaves a half-open breaker as it is. -/
theorem get_available_halfOpen (hget : b.get d = some w) (hst : w.state = .halfOpen) :
    (b.available d₀ th now).2.get d = some w := by
  unfold available
  cases hw : b.window d₀ with
  | none => exact hget
  | some w₀ =>
    by_cases hd : d = d₀
    · subst hd
      obtain rfl : w = w₀ := Option.some.inj ((b.window_of_get hget).symm.trans hw)
      simp [w.advance_halfOpen th now hst]
    · simpa [get_set_of_ne _ hd] using hget

/-- `acquire` can only mark a half-open breaker as probing. -/
theorem get_acquire_halfOpen (hget : b.get d = some w) (hst : w.state = .halfOpen) :
    (b.acquire d₀ th now).2.get d = some w ∨
      (b.acquire d₀ th now).2.get d = some { w with probing := true } := by
  rcases b.acquire_cases d₀ th now with ⟨-, heq⟩ | ⟨w₀, hw, hcase⟩
  · exact Or.inl (by rw [heq]; exact hget)
  by_cases hd : d = d₀
  · subst hd
    obtain rfl : w = w₀ := Option.some.inj ((b.window_of_get hget).symm.trans hw)
    rw [w.advance_halfOpen th now hst] at hcase
    rcases hcase with ⟨-, heq⟩ | ⟨-, -, heq⟩ | ⟨-, -, heq⟩ <;> simp [heq]
  · rcases hcase with ⟨-, heq⟩ | ⟨-, -, heq⟩ | ⟨-, -, heq⟩ <;>
      exact Or.inl (by rw [heq]; simpa [get_set_of_ne _ hd] using hget)

theorem get_record_of_ne (hd : d ≠ d₀) (error validationFailure : Bool) (latencyMs : ℚ) :
    (b.record d₀ th now error validationFailure latencyMs).get d = b.get d := by
  unfold record
  split
  · rfl
  · simp [get_set_of_ne _ hd]

end CircuitBreakers

end AdaptiveLlm
