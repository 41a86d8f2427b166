import Mathlib.Data.List.Basic
import Mathlib.Order.Basic
import Mathlib.Order.Lattice

set_option autoImplicit false

/-! # Sliding windows

A queue that holds at most `n` entries and drops from its front those before a cutoff, where the keys of
the entries and the cutoffs only grow. What it holds is what the last `n` of all entries have at or past
the cutoff.

The reference keeps all entries. A queue that drops lazily, only when something is pushed, has at
any time some more entries in front than are in the window; these lie before the cutoff, so they
make no difference once the cutoff is applied to both. -/

namespace SlidingWindow

variable {α κ : Type*}

/-- The last `n` entries. -/
def lastOf (n : ℕ) (l : List α) : List α := l.drop (l.length - n)

theorem lastOf_of_length_le {n : ℕ} {l : List α} (h : l.length ≤ n) : lastOf n l = l := by
  rw [lastOf, Nat.sub_eq_zero_of_le h, List.drop_zero]

theorem length_lastOf (n : ℕ) (l : List α) : (lastOf n l).length = min n l.length := by
  rw [lastOf, List.length_drop]
  omega

theorem sublist_lastOf (n : ℕ) (l : List α) : (lastOf n l).Sublist l := List.drop_sublist _ _

/-- A full queue loses its first entry. -/
theorem lastOf_concat {n : ℕ} {l : List α} (h : n ≤ l.length) (hn : 0 < n) (x : α) :
    lastOf n (l ++ [x]) = (lastOf n l).tail ++ [x] := by
  have hdrop : l.length + 1 - n = l.length - n + 1 := by omega
  rw [lastOf, lastOf, List.length_append, List.length_singleton, hdrop, List.tail_drop,
    List.drop_append_of_le_length (by omega)]

variable [LinearOrder κ] (key : α → κ)

/-- Dropping from the front of a list with growing keys. -/
theorem dropWhile_eq_filter {l : List α} (h : l.Pairwise fun a b => key a ≤ key b) (cutoff : κ) :
    l.dropWhile (fun a => key a < cutoff) = l.filter fun a => cutoff ≤ key a := by
  induction l with
  | nil => rfl
  | cons a l ih =>
    obtain ⟨hfirst, hrest⟩ := List.pairwise_cons.1 h
    by_cases ha : key a < cutoff
    · rw [List.dropWhile_cons_of_pos (by simpa using ha), ih hrest,
        List.filter_cons_of_neg (by simpa using ha)]
    · have hall : ∀ b ∈ a :: l, cutoff ≤ key b := by
        intro b hb
        rcases List.mem_cons.1 hb with rfl | hb
        · exact le_of_not_gt ha
        · exact (le_of_not_gt ha).trans (hfirst b hb)
      rw [List.dropWhile_cons_of_neg (by simpa using ha), List.filter_eq_self.2 (by simpa using hall)]

/-- **The queue.** It takes one entry more, and then drops what is before a later cutoff. -/
theorem push_eq {n : ℕ} (hn : 0 < n) {recorded : List α} {x : α} {cutoff cutoff' : κ}
    (hcutoff : cutoff ≤ cutoff') (hsorted : (recorded ++ [x]).Pairwise fun a b => key a ≤ key b) :
    (lastOf n ((lastOf n recorded).filter (fun a => cutoff ≤ key a) ++ [x])).dropWhile
        (fun a => key a < cutoff') =
      (lastOf n (recorded ++ [x])).filter fun a => cutoff' ≤ key a := by
  have hlater : ∀ l : List α, (l.filter fun a => cutoff ≤ key a).filter (fun a => cutoff' ≤ key a) =
      l.filter fun a => cutoff' ≤ key a := by
    intro l
    rw [List.filter_filter]
    refine List.filter_congr fun a _ => ?_
    by_cases ha : cutoff' ≤ key a
    · simp [ha, hcutoff.trans ha]
    · simp [ha]
  have hheld : (lastOf n ((lastOf n recorded).filter (fun a => cutoff ≤ key a) ++ [x])).Sublist
      (recorded ++ [x]) :=
    (sublist_lastOf n _).trans ((List.filter_sublist.trans (sublist_lastOf n recorded)).append_right [x])
  rw [dropWhile_eq_filter key (hsorted.sublist hheld)]
  by_cases hfull : n ≤ recorded.length
  · rw [lastOf_concat hfull hn]
    have hlength : (lastOf n recorded).length = n := by
      rw [length_lastOf]
      omega
    obtain ⟨a, rest, hlast⟩ := List.exists_cons_of_length_pos (hlength ▸ hn)
    rw [hlast] at hlength ⊢
    have hrest : rest.length + 1 = n := hlength
    by_cases ha : cutoff ≤ key a
    · -- nothing has been dropped yet, so the first entry goes
      have hsub : (a :: rest).Pairwise fun a b => key a ≤ key b :=
        (List.pairwise_append.1 hsorted).1.sublist (hlast ▸ sublist_lastOf n recorded)
      have hall : ∀ b ∈ a :: rest, cutoff ≤ key b := by
        intro b hb
        rcases List.mem_cons.1 hb with rfl | hb
        · exact ha
        · exact ha.trans (List.rel_of_pairwise_cons hsub hb)
      have hself : (a :: rest).filter (fun a => cutoff ≤ key a) = a :: rest :=
        List.filter_eq_self.2 fun b hb => decide_eq_true (hall b hb)
      rw [hself, lastOf_concat (Nat.le_of_eq hlength.symm) hn, lastOf_of_length_le (Nat.le_of_eq hlength)]
    · have hshort : (rest.filter fun a => cutoff ≤ key a).length ≤ rest.length := List.length_filter_le _ _
      rw [List.filter_cons_of_neg (by simpa using ha), lastOf_of_length_le
        (by rw [List.length_append, List.length_singleton]; omega), List.tail_cons, List.filter_append,
        hlater, List.filter_append]
  · have hall : lastOf n recorded = recorded := lastOf_of_length_le (by omega)
    have hshort : (recorded.filter fun a => cutoff ≤ key a).length ≤ recorded.length :=
      List.length_filter_le _ _
    rw [hall, lastOf_of_length_le (by rw [List.length_append, List.length_singleton]; omega),
      lastOf_of_length_le (by rw [List.length_append, List.length_singleton]; omega), List.filter_append,
      hlater, List.filter_append]

end SlidingWindow
