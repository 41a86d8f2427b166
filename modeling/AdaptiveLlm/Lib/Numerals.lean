import AdaptiveLlm.Lib.Blocks
import AdaptiveLlm.Lib.Bytes
import Mathlib.Data.List.Basic
import Mathlib.Tactic.IntervalCases

set_option autoImplicit false

/-! # Numerals of fixed width

Decimal numerals padded with zeros. Within its width a numeral has the length of the width, and
numerals of one width compare as the numbers do. Texts of equal length in front are compared first, so
a text of such numerals compares field by field; the UTF-8 bytes of ASCII texts compare as the
texts.

The comparison of texts is that of their characters one by one, the first difference deciding.
Therefore a field of fixed width is compared before all that follows, and equal fields leave the
decision to the rest. Dates and times in ISO notation are texts of this form. -/

theorem List.compare_append {α : Type*} [Ord α] {xs ys : List α} (h : xs.length = ys.length)
    (rest rest' : List α) :
    compare (xs ++ rest) (ys ++ rest') = (compare xs ys).then (compare rest rest') := by
  induction xs generalizing ys with
  | nil =>
    rw [List.length_nil, eq_comm, List.length_eq_zero_iff] at h
    simp [h]
  | cons x xs ih =>
    cases ys with
    | nil => simp at h
    | cons y ys =>
      have hlength : xs.length = ys.length := by simpa using h
      simp only [List.cons_append, List.compare_cons_cons, ih hlength, Ordering.then_assoc]

/-- Texts compare character by character. -/
theorem List.compare_eq_lt (xs ys : List Char) : compare xs ys = .lt ↔ xs < ys := by
  induction xs generalizing ys with
  | nil => cases ys <;> simp
  | cons x xs ih =>
    cases ys with
    | nil => simp
    | cons y ys =>
      rw [List.compare_cons_cons, Ordering.then_eq_lt, ih, List.cons_lt_cons_iff, Std.compare_eq_iff_eq]
      exact or_congr compareOfLessAndEq_eq_lt Iff.rfl

namespace Numerals

/-- `'%0{width}d' % n`. -/
def padded (width n : ℕ) : List Char := (Nat.toDigits 10 n).leftpad width '0'

theorem length_padded {width n : ℕ} (hwidth : 0 < width) (h : n < 10 ^ width) :
    (padded width n).length = width := by
  rw [padded, List.length_leftpad]
  exact Nat.max_eq_left ((Nat.length_toDigits_le_iff (by omega) hwidth).2 h)

theorem ascii_padded (width n : ℕ) : Bytes.Ascii (padded width n) := by
  intro c h
  rw [padded, List.leftpad, List.mem_append, List.mem_replicate] at h
  rcases h with ⟨-, rfl⟩ | h
  · decide
  · have hdigit := Nat.isDigit_of_mem_toDigits (by decide) (by decide) h
    simp only [Char.isDigit, Bool.and_eq_true, decide_eq_true_eq] at hdigit
    exact Nat.lt_of_le_of_lt hdigit.2 (by decide)

/-- The numeral ends with the last digit. -/
theorem padded_succ {width : ℕ} (hwidth : 0 < width) (n : ℕ) :
    padded (width + 1) n = padded width (n / 10) ++ [(n % 10).digitChar] := by
  unfold padded
  by_cases h : n < 10
  · have hzero : n / 10 = 0 := by omega
    obtain ⟨w, rfl⟩ : ∃ w, width = w + 1 := ⟨width - 1, by omega⟩
    rw [Nat.toDigits_of_lt_base h, hzero, Nat.toDigits_zero, Nat.mod_eq_of_lt h]
    simp [List.leftpad, List.replicate_succ']
  · rw [Nat.toDigits_of_base_le (by omega) (by omega)]
    simp [List.leftpad]

theorem compare_digitChar {d d' : ℕ} (h : d < 10) (h' : d' < 10) :
    compare d.digitChar d'.digitChar = compare d d' := by
  have hall : ∀ d < 10, ∀ d' < 10, compare (Nat.digitChar d) (Nat.digitChar d') = compare d d' := by decide
  exact hall d h d' h'

theorem compare_padded {width n n' : ℕ} (hwidth : 0 < width) (h : n < 10 ^ width) (h' : n' < 10 ^ width) :
    compare (padded width n) (padded width n') = compare n n' := by
  induction width, hwidth using Nat.le_induction generalizing n n' with
  | base =>
    rw [pow_one] at h h'
    simp [padded, Nat.toDigits_of_lt_base, h, h', List.leftpad, compare_digitChar]
  | succ width hwidth ih =>
    rw [pow_succ] at h h'
    have hlength : (padded width (n / 10)).length = (padded width (n' / 10)).length := by
      rw [length_padded hwidth (by omega), length_padded hwidth (by omega)]
    have hdigit : n % 10 < 10 := by omega
    have hdigit' : n' % 10 < 10 := by omega
    calc compare (padded (width + 1) n) (padded (width + 1) n')
        = (compare (n / 10) (n' / 10)).then (compare (n % 10) (n' % 10)) := by
          rw [padded_succ hwidth, padded_succ hwidth, List.compare_append hlength, ih (by omega) (by omega)]
          simp [compare_digitChar hdigit hdigit']
      _ = compare (10 * (n / 10) + n % 10) (10 * (n' / 10) + n' % 10) :=
          (Blocks.compare_radix hdigit hdigit').symm
      _ = compare n n' := by rw [Nat.div_add_mod, Nat.div_add_mod]

/-- **Fields.** Texts that begin with numerals of one width compare by the numbers first. -/
theorem compare_padded_append {width n n' : ℕ} (hwidth : 0 < width) (h : n < 10 ^ width)
    (h' : n' < 10 ^ width)
    (rest rest' : List Char) :
    compare (padded width n ++ rest) (padded width n' ++ rest') =
        (compare n n').then (compare rest rest') := by
  rw [List.compare_append (by rw [length_padded hwidth h, length_padded hwidth h']),
    compare_padded hwidth h h']

end Numerals
