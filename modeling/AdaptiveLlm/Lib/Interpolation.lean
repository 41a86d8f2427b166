import Mathlib.Algebra.Order.Floor.Semiring
import Mathlib.Algebra.Order.Field.Basic
import Mathlib.Tactic.Linarith
import Mathlib.Tactic.Ring

set_option autoImplicit false

/-! # Linear interpolation

Between the values at `0, …, n`, which grow.

The values are those of a list at its positions, and a position between two of them has the value on
the line through its neighbours. Beyond the last position there is nothing to interpolate. The
results are used of percentiles: a larger share of a sample has a larger percentile, and the
percentile of the negated sample from the other end is the negated one. -/

namespace Interpolation

variable {K : Type*} [Field K] [LinearOrder K] [IsStrictOrderedRing K] [FloorSemiring K]

/-- The value at `x`, between those at the two integers next to it. -/
def interpolate (o : ℕ → K) (x : K) : K := o ⌊x⌋₊ + (o ⌈x⌉₊ - o ⌊x⌋₊) * (x - ⌊x⌋₊)

variable {o : ℕ → K} {n : ℕ} {x y : K}

theorem interpolate_natCast (o : ℕ → K) (k : ℕ) : interpolate o (k : K) = o k := by
  simp [interpolate]

theorem interpolate_congr {o' : ℕ → K} (h : ∀ k ≤ n, o k = o' k) (hn : x ≤ n) :
    interpolate o x = interpolate o' x := by
  rw [interpolate, interpolate, h _ (Nat.floor_le_of_le hn), h _ (Nat.ceil_le.2 hn)]

/-- It lies between the values at the two integers. -/
theorem floor_le_interpolate (hmono : ∀ i j, i ≤ j → j ≤ n → o i ≤ o j) (h0 : 0 ≤ x) (hn : x ≤ n) :
    o ⌊x⌋₊ ≤ interpolate o x := by
  have hstep : o ⌊x⌋₊ ≤ o ⌈x⌉₊ := hmono _ _ (Nat.floor_le_ceil x) (Nat.ceil_le.2 hn)
  have hpart : 0 ≤ x - ⌊x⌋₊ := sub_nonneg.2 (Nat.floor_le h0)
  have hproduct := mul_nonneg (sub_nonneg.2 hstep) hpart
  unfold interpolate
  linarith

theorem interpolate_le_ceil (hmono : ∀ i j, i ≤ j → j ≤ n → o i ≤ o j) (hn : x ≤ n) :
    interpolate o x ≤ o ⌈x⌉₊ := by
  have hstep : o ⌊x⌋₊ ≤ o ⌈x⌉₊ := hmono _ _ (Nat.floor_le_ceil x) (Nat.ceil_le.2 hn)
  have hpart : x - ⌊x⌋₊ ≤ 1 := by
    have hlt := Nat.lt_floor_add_one x
    linarith
  have hproduct := mul_le_mul_of_nonneg_left hpart (sub_nonneg.2 hstep)
  unfold interpolate
  linarith

/-- **Interpolation is monotone.** -/
theorem interpolate_mono (hmono : ∀ i j, i ≤ j → j ≤ n → o i ≤ o j) (h0 : 0 ≤ x) (hxy : x ≤ y)
    (hn : y ≤ n) : interpolate o x ≤ interpolate o y := by
  have hxn : x ≤ n := hxy.trans hn
  rcases (Nat.floor_mono hxy).eq_or_lt with hsame | hlt
  · -- within one step
    by_cases hx : x = ⌊x⌋₊
    · rw [hx, interpolate_natCast, hsame]
      exact floor_le_interpolate hmono (h0.trans hxy) hn
    · have hceil : ⌈x⌉₊ = ⌊x⌋₊ + 1 := by
        refine le_antisymm (Nat.ceil_le_floor_add_one x) (Nat.lt_ceil.2 ?_)
        exact lt_of_le_of_ne (Nat.floor_le h0) (Ne.symm hx)
      have hceil' : ⌈y⌉₊ = ⌊x⌋₊ + 1 := by
        refine le_antisymm ?_ (hceil ▸ Nat.ceil_mono hxy)
        rw [hsame]
        exact Nat.ceil_le_floor_add_one y
      have hstep : o ⌊x⌋₊ ≤ o (⌊x⌋₊ + 1) :=
        hmono _ _ (Nat.le_succ _) (hceil ▸ Nat.ceil_le.2 hxn)
      have hproduct := mul_le_mul_of_nonneg_left (sub_le_sub_right hxy (⌊x⌋₊ : K))
        (sub_nonneg.2 hstep)
      unfold interpolate
      rw [hceil, hceil', ← hsame]
      linarith
  · have hceil : ⌈x⌉₊ ≤ ⌊y⌋₊ := (Nat.ceil_le_floor_add_one x).trans hlt
    calc interpolate o x
        ≤ o ⌈x⌉₊ := interpolate_le_ceil hmono hxn
      _ ≤ o ⌊y⌋₊ := hmono _ _ hceil ((Nat.floor_le_ceil y).trans (Nat.ceil_le.2 hn))
      _ ≤ interpolate o y := floor_le_interpolate hmono (h0.trans hxy) hn

theorem ceil_sub (h0 : 0 ≤ x) (hn : x ≤ n) : ⌈(n : K) - x⌉₊ = n - ⌊x⌋₊ := by
  have hfloor : ⌊x⌋₊ ≤ n := Nat.floor_le_of_le hn
  have hle := Nat.floor_le h0
  have hlt := Nat.lt_floor_add_one x
  rcases Nat.eq_zero_or_pos (n - ⌊x⌋₊) with hzero | hpos
  · rw [hzero, Nat.ceil_eq_zero]
    have hnfloor : (n : K) ≤ ⌊x⌋₊ := by exact_mod_cast (by omega : n ≤ ⌊x⌋₊)
    linarith
  · rw [Nat.ceil_eq_iff (by omega)]
    have hpred : ((n - ⌊x⌋₊ - 1 : ℕ) : K) = n - ⌊x⌋₊ - 1 := by
      rw [Nat.cast_sub hpos, Nat.cast_sub hfloor, Nat.cast_one]
    have hself : ((n - ⌊x⌋₊ : ℕ) : K) = n - ⌊x⌋₊ := Nat.cast_sub hfloor
    rw [hpred, hself]
    constructor <;> linarith

theorem floor_sub (h0 : 0 ≤ x) (hn : x ≤ n) : ⌊(n : K) - x⌋₊ = n - ⌈x⌉₊ := by
  have hceil : ⌈x⌉₊ ≤ n := Nat.ceil_le.2 hn
  have hle := Nat.le_ceil x
  have hlt := Nat.ceil_lt_add_one h0
  rw [Nat.floor_eq_iff (sub_nonneg.2 hn), Nat.cast_sub hceil]
  constructor <;> linarith

/-- **Interpolation from the other end** between the negated values. -/
theorem interpolate_neg (h0 : 0 ≤ x) (hn : x ≤ n) :
    interpolate (fun k => -o (n - k)) (n - x) = -interpolate o x := by
  have hfloor : ⌊x⌋₊ ≤ n := Nat.floor_le_of_le hn
  have hceil : ⌈x⌉₊ ≤ n := Nat.ceil_le.2 hn
  unfold interpolate
  rw [ceil_sub h0 hn, floor_sub h0 hn]
  dsimp only
  rw [Nat.sub_sub_self hfloor, Nat.sub_sub_self hceil, Nat.cast_sub hceil]
  by_cases hx : x = ⌊x⌋₊
  · have hsame : ⌈x⌉₊ = ⌊x⌋₊ := by
      rw [hx]
      simp
    rw [hsame, ← hx]
    ring
  · have hnext : ⌈x⌉₊ = ⌊x⌋₊ + 1 := by
      refine le_antisymm (Nat.ceil_le_floor_add_one x) (Nat.lt_ceil.2 ?_)
      exact lt_of_le_of_ne (Nat.floor_le h0) (Ne.symm hx)
    rw [hnext]
    push_cast
    ring

end Interpolation
