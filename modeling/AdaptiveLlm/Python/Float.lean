import Mathlib.Data.Int.Log
import Mathlib.Data.Rat.Floor
import Mathlib.Tactic.Linarith

set_option autoImplicit false

/-! # Floats

The quotient of two Python integers is the double next to the exact one, on a tie the even one, and so
is the result of an operation on doubles. The numbers here are rates, times and ratios of costs, so the
exponent range is not modelled.

`float` is the nearest multiple of the unit in the last place, which is that of 53 bits below the
leading one of the number; `double` extends it to negative numbers. Rounding is monotone and keeps a
sign, and no more is used of it: the results about thresholds and percentiles are about values that
were rounded after each operation, in the order of the source. -/

namespace Python

/-- The integer next to a number, on a tie the even one. -/
def roundHalfEven (q : ℚ) : ℤ :=
  let rest := q - ⌊q⌋
  if rest > 1 / 2 ∨ rest = 1 / 2 ∧ ⌊q⌋ % 2 = 1 then ⌊q⌋ + 1 else ⌊q⌋

/-- The distance of the doubles around a number. -/
def ulp (q : ℚ) : ℚ := 2 ^ (Int.log 2 q - 52)

/-- A fraction as a double. -/
def float (q : ℚ) : ℚ := roundHalfEven (q / ulp q) * ulp q

/-- A number of either sign as a double. -/
def double (q : ℚ) : ℚ := if q < 0 then -float (-q) else float q

@[simp] theorem float_zero : float 0 = 0 := by
  simp [float, roundHalfEven]

/-! ## Rounding keeps the order

Rounding to the nearest double is monotone, across the powers of two where the spacing changes too.
Two numbers that are each rounded once thus compare as before, or become equal. -/

theorem floor_le_roundHalfEven (q : ℚ) : ⌊q⌋ ≤ roundHalfEven q := by
  unfold roundHalfEven
  dsimp only
  split <;> omega

theorem roundHalfEven_le (q : ℚ) : roundHalfEven q ≤ ⌊q⌋ + 1 := by
  unfold roundHalfEven
  dsimp only
  split <;> omega

@[simp] theorem roundHalfEven_intCast (n : ℤ) : roundHalfEven n = n := by
  simp [roundHalfEven]

theorem roundHalfEven_mono {q q' : ℚ} (h : q ≤ q') : roundHalfEven q ≤ roundHalfEven q' := by
  rcases (Int.floor_mono h).lt_or_eq with hlt | heq
  · calc roundHalfEven q ≤ ⌊q⌋ + 1 := roundHalfEven_le q
      _ ≤ ⌊q'⌋ := hlt
      _ ≤ roundHalfEven q' := floor_le_roundHalfEven q'
  · -- between the same two integers the larger number is rounded up if the smaller one is
    unfold roundHalfEven
    dsimp only
    rw [← heq]
    split
    · rename_i hup
      rw [if_pos]
      rcases hup with hup | ⟨hup, hodd⟩
      · exact .inl (by linarith)
      · rcases h.lt_or_eq with hlt | rfl
        · exact .inl (by linarith)
        · exact .inr ⟨hup, hodd⟩
    · split <;> omega

theorem ulp_pos (q : ℚ) : 0 < ulp q := zpow_pos (by norm_num) _

theorem float_nonneg {q : ℚ} (h : 0 ≤ q) : 0 ≤ float q := by
  have hround : 0 ≤ roundHalfEven (q / ulp q) := by
    rw [← roundHalfEven_intCast 0]
    exact roundHalfEven_mono (by simpa using div_nonneg h (ulp_pos q).le)
  exact mul_nonneg (by exact_mod_cast hround) (ulp_pos q).le

theorem two_zpow_eq (e : ℤ) (n : ℕ) : (2 : ℚ) ^ (e + n) = ((2 ^ n : ℤ) : ℚ) * 2 ^ e := by
  rw [zpow_add₀ two_ne_zero, zpow_natCast, mul_comm]
  norm_num

/-- The double next to a number is not above the next power of two, -/
theorem float_le (q : ℚ) : float q ≤ 2 ^ (Int.log 2 q + 1) := by
  have hlog : q < 2 ^ (Int.log 2 q + 1) := by
    exact_mod_cast Int.lt_zpow_succ_log_self (b := 2) (by norm_num) q
  have hexponent : Int.log 2 q - 52 + (53 : ℕ) = Int.log 2 q + 1 := by omega
  have hq : q / ulp q ≤ ((2 ^ 53 : ℤ) : ℚ) := by
    rw [div_le_iff₀ (ulp_pos q), ulp, ← two_zpow_eq, hexponent]
    exact hlog.le
  have hround : roundHalfEven (q / ulp q) ≤ 2 ^ 53 := by
    rw [← roundHalfEven_intCast (2 ^ 53)]
    exact roundHalfEven_mono hq
  calc float q ≤ ((2 ^ 53 : ℤ) : ℚ) * ulp q :=
        mul_le_mul_of_nonneg_right (by exact_mod_cast hround) (ulp_pos q).le
    _ = 2 ^ (Int.log 2 q + 1) := by rw [ulp, ← two_zpow_eq, hexponent]

/-- and not below the one before. -/
theorem le_float {q : ℚ} (hpos : 0 < q) : (2 : ℚ) ^ Int.log 2 q ≤ float q := by
  have hlog : (2 : ℚ) ^ Int.log 2 q ≤ q := by
    exact_mod_cast Int.zpow_log_le_self (b := 2) (by norm_num) hpos
  have hexponent : Int.log 2 q - 52 + (52 : ℕ) = Int.log 2 q := by omega
  have hq : ((2 ^ 52 : ℤ) : ℚ) ≤ q / ulp q := by
    rw [le_div_iff₀ (ulp_pos q), ulp, ← two_zpow_eq, hexponent]
    exact hlog
  have hround : 2 ^ 52 ≤ roundHalfEven (q / ulp q) := by
    rw [← roundHalfEven_intCast (2 ^ 52)]
    exact roundHalfEven_mono hq
  calc (2 : ℚ) ^ Int.log 2 q = ((2 ^ 52 : ℤ) : ℚ) * ulp q := by rw [ulp, ← two_zpow_eq, hexponent]
    _ ≤ float q := mul_le_mul_of_nonneg_right (by exact_mod_cast hround) (ulp_pos q).le

theorem float_mono {q q' : ℚ} (hpos : 0 < q) (h : q ≤ q') : float q ≤ float q' := by
  rcases (Int.log_mono_right (b := 2) hpos h).lt_or_eq with hlt | heq
  · calc float q ≤ 2 ^ (Int.log 2 q + 1) := float_le q
      _ ≤ 2 ^ Int.log 2 q' := zpow_le_zpow_right₀ (by norm_num) hlt
      _ ≤ float q' := le_float (hpos.trans_le h)
  · have hulp : ulp q = ulp q' := by rw [ulp, ulp, heq]
    rw [float, float, hulp]
    refine mul_le_mul_of_nonneg_right ?_ (ulp_pos q').le
    exact_mod_cast roundHalfEven_mono (div_le_div_of_nonneg_right h (ulp_pos q').le)

theorem double_mono {q q' : ℚ} (h : q ≤ q') : double q ≤ double q' := by
  unfold double
  by_cases hneg : q < 0
  · rw [if_pos hneg]
    by_cases hneg' : q' < 0
    · rw [if_pos hneg']
      exact neg_le_neg (float_mono (neg_pos.2 hneg') (neg_le_neg h))
    · rw [if_neg hneg']
      have hbelow := float_nonneg (neg_nonneg.2 hneg.le)
      have habove := float_nonneg (not_lt.1 hneg')
      linarith
  · rw [if_neg hneg, if_neg (not_lt.2 ((not_lt.1 hneg).trans h))]
    rcases (not_lt.1 hneg).lt_or_eq with hpos | rfl
    · exact float_mono hpos h
    · rw [float_zero]
      exact float_nonneg h

end Python
