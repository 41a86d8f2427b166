import Mathlib.Algebra.BigOperators.Group.List.Basic
import Mathlib.Algebra.GroupWithZero.Nat
import Mathlib.Data.Nat.Basic
import Mathlib.Order.Basic
import Mathlib.Order.Monotone.Basic

set_option autoImplicit false

/-! # Positions in consecutive blocks

Numbers cut into consecutive blocks: `start q` is the first number of the block `q`, and a number of
the block is `start q + r`. Blocks of one length are the digits of a positional system, blocks of
listed lengths are the months of a year. In all of them numbers compare as their blocks do, and within
a block as the rests do.

`compare_add` is stated for any monotone sequence of starts, so that both kinds of blocks are
instances of it. `locate` finds the block of a number among blocks of listed lengths, by going along
the list; with it the month of a day of the year is found, and positions are divided into quotient
and rest. -/

namespace Blocks

/-- **Positions.** Two numbers compare by their blocks first. -/
theorem compare_add {start : ℕ → ℕ} (hstart : Monotone start) {q q' r r' : ℕ}
    (hr : start q + r < start (q + 1)) (hr' : start q' + r' < start (q' + 1)) :
    compare (start q + r) (start q' + r') = (compare q q').then (compare r r') := by
  rcases Nat.lt_trichotomy q q' with h | rfl | h
  · have hlt : start (q + 1) ≤ start q' := hstart h
    rw [Nat.compare_eq_lt.2 h, Nat.compare_eq_lt.2 (by omega), Ordering.lt_then]
  · rw [Nat.compare_eq_eq.2 rfl, Ordering.eq_then]
    simp only [Nat.compare_eq_ite_lt]
    simp
  · have hlt : start (q' + 1) ≤ start q := hstart h
    rw [Nat.compare_eq_gt.2 h, Nat.compare_eq_gt.2 (by omega), Ordering.gt_then]

/-- Blocks of one length. -/
theorem compare_radix {b q q' r r' : ℕ} (hr : r < b) (hr' : r' < b) :
    compare (b * q + r) (b * q' + r') = (compare q q').then (compare r r') :=
  @compare_add (fun q => b * q) (fun _ _ h => Nat.mul_le_mul_left b h) q q' r r'
    (by rw [Nat.mul_succ]; omega) (by rw [Nat.mul_succ]; omega)

/-! ## Blocks of listed lengths -/

/-- The first number of the block `i`. -/
def startOf (lengths : List ℕ) (i : ℕ) : ℕ := (lengths.take i).sum

theorem startOf_succ {lengths : List ℕ} {i : ℕ} (h : i < lengths.length) :
    startOf lengths (i + 1) = startOf lengths i + lengths[i] := by
  rw [startOf, startOf, List.take_add_one, List.getElem?_eq_getElem h, Option.toList_some, List.sum_append,
    List.sum_singleton]

theorem startOf_monotone (lengths : List ℕ) : Monotone (startOf lengths) := by
  refine monotone_nat_of_le_succ fun i => ?_
  rw [startOf, startOf, List.take_add_one, List.sum_append]
  exact Nat.le_add_right _ _

/-- The block of a number, and its place in it. -/
def locate : List ℕ → ℕ → ℕ × ℕ
  | [], n => (0, n)
  | l :: lengths, n =>
    if n < l then (0, n) else ((locate lengths (n - l)).1 + 1, (locate lengths (n - l)).2)

theorem locate_lt {lengths : List ℕ} {n : ℕ} (h : n < lengths.sum) :
    ∃ hi : (locate lengths n).1 < lengths.length, (locate lengths n).2 < lengths[(locate lengths n).1] := by
  induction lengths generalizing n with
  | nil => simp at h
  | cons l lengths ih =>
    rw [List.sum_cons] at h
    by_cases hn : n < l
    · simp [locate, hn]
    · obtain ⟨hi, hr⟩ := ih (n := n - l) (by omega)
      simp only [locate, if_neg hn, List.length_cons, List.getElem_cons_succ]
      exact ⟨by omega, hr⟩

theorem startOf_locate (lengths : List ℕ) (n : ℕ) :
    startOf lengths (locate lengths n).1 + (locate lengths n).2 = n := by
  induction lengths generalizing n with
  | nil => simp [startOf, locate]
  | cons l lengths ih =>
    by_cases hn : n < l
    · simp [startOf, locate, hn]
    · have hrest := ih (n - l)
      simp only [startOf] at hrest
      simp only [startOf, locate, if_neg hn, List.take_succ_cons, List.sum_cons]
      omega

end Blocks
