import Mathlib.Data.List.Sort

set_option autoImplicit false

/-! # The first elements of a sorted list

A list sorted by a total preorder and cut after `n` elements: where the order tells the elements apart,
an element is behind the cut exactly when `n` elements at least are strictly before it.

It is stated with the number of elements that come strictly before an element, which does not
mention the sorted list. So a table of which the greatest entries are kept, whatever the algorithm
that keeps them, can be compared with the cut. -/

namespace Greatest

variable {α : Type*} (r : α → α → Prop) [DecidableRel r]

/-- `a` is strictly before `b`. -/
def before (a b : α) : Bool := r a b && !r b a

/-- How many elements are strictly before one. -/
def rank (l : List α) (a : α) : ℕ := l.countP (before r · a)

variable {r} {l : List α} {a : α} {n : ℕ}

theorem rank_perm {l' : List α} (h : l.Perm l') : rank r l a = rank r l' a := h.countP_eq _

/-- Behind the cut, all of the first elements are strictly before. -/
theorem le_rank_of_mem_drop (hsorted : l.Pairwise r) (hnodup : l.Nodup)
    (hanti : ∀ a ∈ l, ∀ b ∈ l, r a b → r b a → a = b) (ha : a ∈ l.drop n) : n ≤ rank r l a := by
  have hlong : n < l.length := by
    by_contra hle
    rw [List.drop_eq_nil_of_le (Nat.le_of_not_lt hle)] at ha
    cases ha
  have hsplit := List.take_append_drop n l
  have hbefore : ∀ x ∈ l.take n, before r x a = true := by
    intro x hx
    rw [← hsplit, List.pairwise_append] at hsorted
    rw [← hsplit, List.nodup_append] at hnodup
    have hxa : r x a := hsorted.2.2 x hx a ha
    have hax : ¬r a x := fun hax =>
      hnodup.2.2 x hx a ha (hanti x (List.mem_of_mem_take hx) a (List.mem_of_mem_drop ha) hxa hax)
    simp [before, hxa, hax]
  calc n = (l.take n).length := by rw [List.length_take, Nat.min_eq_left hlong.le]
    _ = (l.take n).countP (before r · a) := (List.countP_eq_length.2 hbefore).symm
    _ ≤ rank r l a := (List.take_sublist n l).countP_le

/-- Before the cut, only other first elements are strictly before. -/
theorem rank_lt_of_mem_take (hsorted : l.Pairwise r) (ha : a ∈ l.take n) : rank r l a < n := by
  have hsplit := List.take_append_drop n l
  have hbehind : (l.drop n).countP (before r · a) = 0 := by
    rw [List.countP_eq_zero]
    intro x hx
    rw [← hsplit, List.pairwise_append] at hsorted
    simp [before, hsorted.2.2 a ha x hx]
  have hself : (l.take n).countP (before r · a) < (l.take n).length := by
    refine lt_of_le_of_ne List.countP_le_length fun hall => ?_
    have := List.countP_eq_length.1 hall a ha
    simp [before] at this
  calc rank r l a = (l.take n).countP (before r · a) := by
        rw [rank, ← hsplit, List.countP_append, hsplit, hbehind, Nat.add_zero]
    _ < (l.take n).length := hself
    _ ≤ n := List.length_take_le n l

variable [Std.Total r] [IsTrans α r]

/-- **The cut.** -/
theorem mem_drop_insertionSort (hnodup : l.Nodup)
    (hanti : ∀ a ∈ l, ∀ b ∈ l, r a b → r b a → a = b) :
    a ∈ (l.insertionSort r).drop n ↔ a ∈ l ∧ n ≤ rank r l a := by
  have hperm := List.perm_insertionSort r l
  have hsorted := List.pairwise_insertionSort r l
  constructor
  · intro ha
    refine ⟨hperm.mem_iff.1 (List.mem_of_mem_drop ha), ?_⟩
    rw [← rank_perm hperm]
    exact le_rank_of_mem_drop hsorted (hperm.nodup_iff.2 hnodup)
      (fun x hx y hy => hanti x (hperm.mem_iff.1 hx) y (hperm.mem_iff.1 hy)) ha
  · rintro ⟨ha, hrank⟩
    rw [← hperm.mem_iff, ← List.take_append_drop n (l.insertionSort r), List.mem_append] at ha
    rcases ha with htake | hdrop
    · rw [← rank_perm hperm] at hrank
      exact absurd (rank_lt_of_mem_take hsorted htake) (Nat.not_lt.2 hrank)
    · exact hdrop

/-- As many are left as the cut leaves. -/
theorem length_filter_rank (hnodup : l.Nodup)
    (hanti : ∀ a ∈ l, ∀ b ∈ l, r a b → r b a → a = b) :
    (l.filter fun a => rank r l a < n).length = min n l.length := by
  have hperm := List.perm_insertionSort r l
  have hsorted := hperm.nodup_iff.2 hnodup
  have hleft : (l.filter fun a => rank r l a < n).Perm ((l.insertionSort r).take n) := by
    rw [List.perm_ext_iff_of_nodup (hnodup.filter _) (hsorted.sublist (List.take_sublist n _))]
    intro a
    rw [List.mem_filter, decide_eq_true_eq]
    have hcut := @mem_drop_insertionSort α r _ l a n _ _ hnodup hanti
    constructor
    · rintro ⟨ha, hrank⟩
      rw [← hperm.mem_iff, ← List.take_append_drop n (l.insertionSort r), List.mem_append] at ha
      exact ha.resolve_right fun hdrop => Nat.not_lt.2 (hcut.1 hdrop).2 hrank
    · intro ha
      rw [← rank_perm hperm]
      exact ⟨hperm.mem_iff.1 (List.mem_of_mem_take ha),
        rank_lt_of_mem_take (List.pairwise_insertionSort r l) ha⟩
  rw [hleft.length_eq, List.length_take, List.length_insertionSort]

end Greatest
