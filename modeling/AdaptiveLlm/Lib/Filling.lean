import Mathlib.Algebra.Order.Group.Defs
import Mathlib.Algebra.BigOperators.Group.List.Basic
import Mathlib.Data.List.Basic

set_option autoImplicit false

/-! # Filling up to a target

Pieces taken one after the other, each with its size, until their total reaches a target.

Pieces have sizes, and where their sizes reach a target in total, one of them is the first to reach
it (`Crosses`). What stands before it is short of the target, so the target is overshot by less than
this one piece. Sizes are in any ordered field; nothing is said of the order of the pieces. -/

namespace Filling

variable {α K : Type*} [AddCommGroup K] (size : α → K)

/-- The total size. -/
def total (l : List α) : K := (l.map size).sum

@[simp]
theorem total_nil : total size [] = 0 := rfl

@[simp]
theorem total_cons (a : α) (l : List α) : total size (a :: l) = size a + total size l := by
  simp [total]

@[simp]
theorem total_append (l l' : List α) : total size (l ++ l') = total size l + total size l' := by
  simp [total]

variable [LinearOrder K]

/-- `c`, behind `before`, is the piece with which the total reaches the target. -/
structure Crosses (target : K) (l before : List α) (c : α) (after : List α) : Prop where
  eq : l = before ++ c :: after
  below : total size before < target
  reaches : target ≤ total size before + size c

variable [IsOrderedAddMonoid K] {size} {target : K} {l before after : List α} {c : α}

theorem total_nonneg (hsize : ∀ a, 0 ≤ size a) (l : List α) : 0 ≤ total size l := by
  induction l with
  | nil => exact le_rfl
  | cons a l ih =>
    rw [total_cons]
    exact add_nonneg (hsize a) ih

/-- The total overshoots the target by less than the size of that piece. -/
theorem Crosses.overshoot (h : Crosses size target l before c after) :
    total size (before ++ [c]) - target < size c := by
  rw [total_append, total_cons, total_nil, add_zero, sub_lt_iff_lt_add, add_comm]
  exact add_lt_add_right h.below _

theorem exists_crosses (h0 : 0 < target) (hl : target ≤ total size l) :
    ∃ before c after, Crosses size target l before c after := by
  induction l generalizing target with
  | nil => exact absurd (h0.trans_le hl) (lt_irrefl _)
  | cons a l ih =>
    by_cases ha : target ≤ size a
    · exact ⟨[], a, l, rfl, h0, by rwa [total_nil, zero_add]⟩
    · obtain ⟨before, c, after, heq, hbelow, hreaches⟩ :=
        ih (sub_pos.2 (not_le.1 ha)) (by rwa [sub_le_iff_le_add', ← total_cons])
      refine ⟨a :: before, c, after, by rw [heq, List.cons_append], ?_, ?_⟩
      · rw [total_cons]
        exact lt_sub_iff_add_lt'.1 hbelow
      · rw [total_cons, add_assoc]
        exact sub_le_iff_le_add'.1 hreaches

/-- **The first band.** Where a piece is in it exactly when the total before the piece is below the
    target, the band holds the pieces up to the one that crosses. -/
theorem Crosses.filter_eq (hsize : ∀ a, 0 ≤ size a) (h : Crosses size target l before c after)
    (band : α → Bool) (hband : ∀ b a d, l = b ++ a :: d → (band a = true ↔ total size b < target)) :
    l.filter band = before ++ [c] := by
  have hcut := h.eq
  have hbefore : before.filter band = before := by
    refine List.filter_eq_self.2 fun a ha => ?_
    obtain ⟨b, d, rfl⟩ := List.append_of_mem ha
    refine (hband b a (d ++ c :: after) (by rw [hcut, List.append_assoc, List.cons_append])).2 ?_
    refine lt_of_le_of_lt ?_ h.below
    rw [total_append]
    exact le_add_of_nonneg_right (total_nonneg hsize _)
  have hc : band c = true := (hband before c after hcut).2 h.below
  have hafter : after.filter band = [] := by
    refine List.filter_eq_nil_iff.2 fun a ha hin => ?_
    obtain ⟨b, d, rfl⟩ := List.append_of_mem ha
    have hlt := (hband (before ++ c :: b) a d (by rw [hcut, List.append_assoc, List.cons_append])).1 hin
    refine absurd (h.reaches.trans ?_) (not_le.2 hlt)
    rw [total_append, total_cons, ← add_assoc]
    exact le_add_of_nonneg_right (total_nonneg hsize _)
  rw [hcut, List.filter_append, List.filter_cons_of_pos hc, hbefore, hafter]

end Filling
