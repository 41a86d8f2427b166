import Mathlib.Data.Rat.Floor
import Mathlib.Data.List.Sort
import Mathlib.Tactic.Linarith

set_option autoImplicit false

/-! # Sample statistics

`evaluation/stats.py`, in exact rationals, and with operations that round.

`percentile` is the exact interpolation between two order statistics, which the bootstrap of an
evaluation uses. `roundedPercentile` is the same with every operation rounded; the breakers and the
canary monitor use it with the rounding of Python's doubles. Neither depends on the order of its
values. -/

namespace AdaptiveLlm

/-- `percentile`: linear interpolation between the two closest order statistics. `none` is the
    `ValueError("invalid_percentile")`. -/
def percentile (values : List ℚ) (probability : ℚ) : Option ℚ :=
  if values = [] ∨ ¬ (0 ≤ probability ∧ probability ≤ 1) then none
  else
    let ordered := values.insertionSort (· ≤ ·)
    let position := ((ordered.length - 1 : ℕ) : ℚ) * probability
    let lower := ⌊position⌋.toNat
    let upper := ⌈position⌉.toNat
    some (ordered.getD lower 0 + (ordered.getD upper 0 - ordered.getD lower 0) * (position - lower))

theorem percentile_isSome {values : List ℚ} {probability : ℚ} (hne : values ≠ [])
    (h0 : 0 ≤ probability) (h1 : probability ≤ 1) : (percentile values probability).isSome := by
  simp [percentile, hne, h0, h1]

/-- `percentile` with the result of every operation rounded. -/
def roundedPercentile (round : ℚ → ℚ) (values : List ℚ) (probability : ℚ) : Option ℚ :=
  if values = [] ∨ ¬ (0 ≤ probability ∧ probability ≤ 1) then none
  else
    let ordered := values.insertionSort (· ≤ ·)
    let position := round (((ordered.length - 1 : ℕ) : ℚ) * probability)
    let lower := ⌊position⌋.toNat
    let upper := ⌈position⌉.toNat
    some (round (ordered.getD lower 0 +
      round (round (ordered.getD upper 0 - ordered.getD lower 0) * round (position - lower))))

theorem roundedPercentile_perm (round : ℚ → ℚ) {values values' : List ℚ} (h : values.Perm values')
    (probability : ℚ) :
    roundedPercentile round values probability = roundedPercentile round values' probability := by
  have hsort : values.insertionSort (· ≤ ·) = values'.insertionSort (· ≤ ·) :=
    ((List.perm_insertionSort _ values).trans (h.trans (List.perm_insertionSort
      _ values').symm)).eq_of_pairwise
      (fun _ _ _ _ hab hba => le_antisymm hab hba)
      (List.pairwise_insertionSort _ values) (List.pairwise_insertionSort _ values')
  have hnil : values = [] ↔ values' = [] := by
    rw [← List.length_eq_zero_iff, ← List.length_eq_zero_iff, h.length_eq]
  unfold roundedPercentile
  rw [hsort]
  simp only [hnil]

end AdaptiveLlm
