import AdaptiveLlm.Lib.Grouping
import Mathlib.Algebra.BigOperators.Ring.Finset
import Mathlib.Algebra.Order.BigOperators.Group.List
import Mathlib.Algebra.Order.Floor.Ring
import Mathlib.Data.Rat.Floor
import Mathlib.Tactic.Linarith
import Mathlib.Tactic.Positivity
import Mathlib.Tactic.NormNum

set_option autoImplicit false

/-! # Calibration error

`ece` of `routing/model.py`, in exact arithmetic.

The error is the average distance between confidence and outcome over ten bins, weighted by how many
samples a bin has. A probability on an edge belongs to the upper bin, and 1 to the last. The bound
needs probabilities and labels between 0 and 1, of one number and not none, and no more. -/

namespace AdaptiveLlm.RouterModel

variable {K : Type} [Field K] [LinearOrder K] [FloorRing K]

/-- An exception of the router's model: a `GatewayError`, one of Python's own, or the one that `check`
    raises. -/
inductive RouterException where
  | gateway (statusCode : ℕ) (code : String)
  | python (exception : String)
  | interrupted
  deriving DecidableEq

/-- `fmean` of what there is at least one of. -/
def average (values : List K) : K := values.sum / values.length

/-- `int`, which cuts off the fraction. -/
def truncate (x : K) : ℤ := if 0 ≤ x then ⌊x⌋ else ⌈x⌉

/-- The bin of a probability. -/
def bin (p : K) : ℤ := min 9 (truncate (p * 10))

/-- The samples in a bin. -/
def binned (samples : List (K × K)) (index : ℕ) : List (K × K) := samples.filter fun s => bin s.1 = index

/-- `ece`. -/
def ece (probabilities labels : List K) : Except RouterException K :=
  if probabilities = [] ∨ probabilities.length ≠ labels.length then .error (.python "ValueError")
  else
    .ok <| (List.range 10).foldl (fun result index =>
      let pairs := binned (probabilities.zip labels) index
      if pairs = [] then result
      else result + pairs.length / labels.length *
        |average (pairs.map (·.1)) - average (pairs.map (·.2))|) 0

/-! ## Bins -/

section Bins

variable [IsStrictOrderedRing K]

theorem bin_range {p : K} (h : 0 ≤ p) : 0 ≤ bin p ∧ bin p ≤ 9 := by
  have hfloor : 0 ≤ truncate (p * 10) := by
    rw [truncate, if_pos (by positivity)]
    exact Int.floor_nonneg.2 (by positivity)
  exact ⟨le_min (by norm_num) hfloor, min_le_left _ _⟩

/-- **Every probability is in exactly one bin**, also at the edges. -/
theorem existsUnique_bin {p : K} (h : 0 ≤ p) : ∃! index : ℕ, index < 10 ∧ bin p = index := by
  obtain ⟨hlow, hhigh⟩ := bin_range h
  refine ⟨(bin p).toNat, ⟨by omega, by omega⟩, fun index hindex => ?_⟩
  omega

/-- The bins hold all samples between them. -/
theorem sum_length_binned {samples : List (K × K)} (h : ∀ s ∈ samples, 0 ≤ s.1) :
    ((List.range 10).map fun index => (binned samples index).length).sum = samples.length := by
  have hkey : ∀ s ∈ samples, (bin s.1).toNat ∈ List.range 10 := by
    intro s hs
    have hrange := bin_range (h s hs)
    rw [List.mem_range]
    omega
  rw [← Grouping.sum_length_filter List.nodup_range hkey]
  refine congrArg List.sum (List.map_congr_left fun index _ => congrArg List.length ?_)
  refine List.filter_congr fun s hs => ?_
  have hrange := bin_range (h s hs)
  rw [decide_eq_decide]
  omega

/-! ## The error -/

theorem average_range {values : List K} (hne : values ≠ []) (h : ∀ v ∈ values, 0 ≤ v ∧ v ≤ 1) :
    0 ≤ average values ∧ average values ≤ 1 := by
  have hpos : (0 : K) < values.length := by exact_mod_cast List.length_pos_iff.2 hne
  have hsum : values.sum ≤ values.length := by
    have hle := List.sum_le_card_nsmul values 1 fun v hv => (h v hv).2
    rwa [nsmul_one] at hle
  exact ⟨div_nonneg (List.sum_nonneg fun v hv => (h v hv).1) hpos.le, (div_le_one hpos).2 hsum⟩

/-- What a bin adds. -/
def binError (samples : List (K × K)) (index : ℕ) : K :=
  let pairs := binned samples index
  pairs.length / samples.length * |average (pairs.map (·.1)) - average (pairs.map (·.2))|

omit [IsStrictOrderedRing K] in
theorem ece_eq {probabilities labels : List K} (hne : probabilities ≠ [])
    (hlength : probabilities.length = labels.length) :
    ece probabilities labels =
      .ok ((List.range 10).map (binError (probabilities.zip labels))).sum := by
  have hsize : (probabilities.zip labels).length = labels.length := by
    rw [List.length_zip, hlength, min_self]
  have hloop : ∀ (indices : List ℕ) (start : K), indices.foldl (fun result index =>
      let pairs := binned (probabilities.zip labels) index
      if pairs = [] then result
      else result + pairs.length / labels.length *
        |average (pairs.map (·.1)) - average (pairs.map (·.2))|) start =
      start + (indices.map (binError (probabilities.zip labels))).sum := by
    intro indices
    induction indices with
    | nil => simp
    | cons index indices ih =>
      intro start
      rw [List.foldl_cons, ih, List.map_cons, List.sum_cons, ← add_assoc]
      congr 1
      by_cases hnone : binned (probabilities.zip labels) index = []
      · simp [binError, hnone]
      · simp [binError, hnone, hsize]
  rw [ece, if_neg (by simp [hne, hlength]), hloop, zero_add]

theorem binError_range {samples : List (K × K)} (hp : ∀ s ∈ samples, 0 ≤ s.1 ∧ s.1 ≤ 1)
    (hy : ∀ s ∈ samples, 0 ≤ s.2 ∧ s.2 ≤ 1) (index : ℕ) :
    0 ≤ binError samples index ∧
      binError samples index ≤ (binned samples index).length / samples.length := by
  have hweight : (0 : K) ≤ (binned samples index).length / samples.length := by positivity
  refine ⟨mul_nonneg hweight (abs_nonneg _), ?_⟩
  refine mul_le_of_le_one_right hweight ?_
  by_cases hnone : binned samples index = []
  · simp [hnone, average]
  · have hmem : ∀ s ∈ binned samples index, s ∈ samples := fun s hs => List.mem_of_mem_filter hs
    have hleft : ∀ v ∈ (binned samples index).map (·.1), 0 ≤ v ∧ v ≤ 1 := by
      intro v hv
      obtain ⟨s, hs, rfl⟩ := List.mem_map.1 hv
      exact hp s (hmem s hs)
    have hright : ∀ v ∈ (binned samples index).map (·.2), 0 ≤ v ∧ v ≤ 1 := by
      intro v hv
      obtain ⟨s, hs, rfl⟩ := List.mem_map.1 hv
      exact hy s (hmem s hs)
    have hmean := average_range (by simpa using hnone) hleft
    have hmean' := average_range (by simpa using hnone) hright
    rw [abs_le]
    constructor <;> linarith [hmean.1, hmean.2, hmean'.1, hmean'.2]

/-- **The calibration error is in range.** -/
theorem ece_range {probabilities labels : List K} (hne : probabilities ≠ [])
    (hlength : probabilities.length = labels.length) (hp : ∀ p ∈ probabilities, 0 ≤ p ∧ p ≤ 1)
    (hy : ∀ y ∈ labels, 0 ≤ y ∧ y ≤ 1) :
    ∃ e, ece probabilities labels = .ok e ∧ 0 ≤ e ∧ e ≤ 1 := by
  have hsamples : ∀ s ∈ probabilities.zip labels, s.1 ∈ probabilities ∧ s.2 ∈ labels :=
    fun s hs => List.of_mem_zip hs
  have hbin := binError_range (fun s hs => hp s.1 (hsamples s hs).1) fun s hs => hy s.2 (hsamples s hs).2
  have hpos : (0 : K) < (probabilities.zip labels).length := by
    rw [List.length_zip, hlength, min_self, ← hlength]
    exact_mod_cast List.length_pos_iff.2 hne
  refine ⟨_, ece_eq hne hlength, List.sum_nonneg fun x hx => ?_, ?_⟩
  · obtain ⟨index, -, rfl⟩ := List.mem_map.1 hx
    exact (hbin index).1
  · have hcount : ((List.range 10).map fun index =>
        ((binned (probabilities.zip labels) index).length : K)).sum =
            (probabilities.zip labels).length := by
      rw [← sum_length_binned fun s hs => (hp s.1 (hsamples s hs).1).1, Nat.cast_list_sum, List.map_map]
      rfl
    calc ((List.range 10).map (binError (probabilities.zip labels))).sum
        ≤ ((List.range 10).map fun index => ((binned (probabilities.zip labels) index).length : K) /
            (probabilities.zip labels).length).sum := List.sum_le_sum fun index _ => (hbin index).2
      _ = 1 := by
          simp only [div_eq_mul_inv]
          rw [List.sum_map_mul_right, hcount, mul_inv_cancel₀ hpos.ne']

end Bins

end AdaptiveLlm.RouterModel
