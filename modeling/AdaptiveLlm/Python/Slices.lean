import Mathlib.Data.Int.Notation
import Mathlib.Data.List.Basic

set_option autoImplicit false

/-! # Slices

`xs[i:]` and `xs[:i]`. A bound below zero counts from the end, and a bound beyond an end is that end;
`-0` is no bound below zero, so `xs[-0:]` is all of `xs`.

Bounds are integers, as they are in the source, where they may be computed. `List.take` and
`List.drop` are what a slice is when the sign of its bound is known; the lemmas have one case
each. -/

namespace Python

variable {α : Type*}

/-- The position that a bound of a slice stands for. -/
def sliceBound (length : ℕ) (i : ℤ) : ℕ := if i < 0 then (length + i).toNat else min i.toNat length

/-- `xs[i:]`. -/
def sliceFrom (xs : List α) (i : ℤ) : List α := xs.drop (sliceBound xs.length i)

/-- `xs[:i]`. -/
def sliceTo (xs : List α) (i : ℤ) : List α := xs.take (sliceBound xs.length i)

/-- `xs[i:j]`. -/
def slice (xs : List α) (i j : ℤ) : List α :=
  (xs.take (sliceBound xs.length j)).drop (sliceBound xs.length i)

@[simp] theorem sliceFrom_nil (i : ℤ) : sliceFrom ([] : List α) i = [] := List.drop_nil

@[simp] theorem sliceTo_nil (i : ℤ) : sliceTo ([] : List α) i = [] := List.take_nil

theorem sliceFrom_natCast (xs : List α) (n : ℕ) : sliceFrom xs n = xs.drop n := by
  rw [sliceFrom, sliceBound, if_neg (by omega), Int.toNat_natCast]
  rcases Nat.le_total n xs.length with h | h
  · rw [Nat.min_eq_left h]
  · rw [Nat.min_eq_right h, List.drop_length, List.drop_of_length_le h]

theorem sliceTo_natCast (xs : List α) (n : ℕ) : sliceTo xs n = xs.take n := by
  rw [sliceTo, sliceBound, if_neg (by omega), Int.toNat_natCast, ← List.take_eq_take_min]

/-- The last `n` elements, where these are not none. -/
theorem sliceFrom_neg (xs : List α) {n : ℕ} (h : 0 < n) : sliceFrom xs (-n) = xs.drop (xs.length - n) := by
  rw [sliceFrom, sliceBound, if_pos (by omega)]
  congr 1
  omega

/-- What is between a text in front and one that is not empty at the end. -/
theorem slice_between (front xs : List α) {back : List α} (h : back ≠ []) :
    slice (front ++ xs ++ back) front.length (-back.length) = xs := by
  have hpos := List.length_pos_iff.2 h
  have hfront : sliceBound (front ++ xs ++ back).length front.length = front.length := by
    rw [sliceBound, if_neg (by omega), Int.toNat_natCast, List.length_append, List.length_append]
    omega
  have hback : sliceBound (front ++ xs ++ back).length (-back.length) = (front ++ xs).length := by
    rw [sliceBound, if_pos (by omega), @List.length_append _ (front ++ xs) back]
    omega
  rw [slice, hfront, hback, List.take_left, List.drop_left]

example : sliceFrom [1, 2, 3] (-0) = [1, 2, 3] := rfl

end Python
