import Mathlib.Algebra.BigOperators.Group.List.Basic
import Mathlib.Algebra.GroupWithZero.Nat
import Mathlib.Logic.Relation

set_option autoImplicit false

/-! # Worklists

A stack of pending items. The one on top is taken off and tested, and its parts are put on for it. Where the
parts of an item are together smaller than the item the loop ends, and it has then tested all that is in the
items it began with, at any depth.

The items are of any type with a size, and the parts of an item any list. The order in which pending
items are taken makes no difference to the result, only that each is taken once; the stack of the
source is the one that is executed. -/

namespace Worklist

variable {α : Type*} (ok : α → Bool) (parts : α → List α)

/-- The loop in `n` iterations: whether all tests passed. It is `none` where that takes more of them. -/
def run : ℕ → List α → Option Bool
  | _, [] => some true
  | 0, _ :: _ => none
  | n + 1, item :: pending => if ok item then run n (parts item ++ pending) else some false

/-- Something is in an item: it is the item, or in one of its parts. -/
def Within : α → α → Prop := Relation.ReflTransGen fun a b => b ∈ parts a

variable {ok parts} {pending : List α} {n : ℕ}

/-- More iterations change nothing. -/
theorem run_of_le {result : Bool} (h : run ok parts n pending = some result) {m : ℕ} (hle : n ≤ m) :
    run ok parts m pending = some result := by
  induction n generalizing m pending with
  | zero =>
    cases pending with
    | nil => cases m <;> exact h
    | cons item pending => cases h
  | succ n ih =>
    obtain ⟨m, rfl⟩ := Nat.exists_eq_add_of_le' (Nat.le_trans (Nat.le_add_left 1 n) hle)
    cases pending with
    | nil => exact h
    | cons item pending =>
      rw [run] at h ⊢
      split_ifs at h ⊢ with hok
      · exact ih h (Nat.le_of_succ_le_succ hle)
      · exact h

/-- **Termination.** The loop takes at most as many iterations as the size of the items. -/
theorem run_isSome (size : α → ℕ) (hsize : ∀ a, ((parts a).map size).sum < size a)
    (h : (pending.map size).sum ≤ n) : (run ok parts n pending).isSome = true := by
  induction n generalizing pending with
  | zero =>
    cases pending with
    | nil => rfl
    | cons item pending =>
      have hpos := hsize item
      rw [List.map_cons, List.sum_cons] at h
      omega
  | succ n ih =>
    cases pending with
    | nil => rfl
    | cons item pending =>
      rw [run]
      split_ifs
      · refine ih ?_
        have hparts := hsize item
        rw [List.map_cons, List.sum_cons] at h
        rw [List.map_append, List.sum_append]
        omega
      · rfl

/-- **Completeness.** A loop that ends well has tested all that is in its items. -/
theorem ok_of_run (h : run ok parts n pending = some true) :
    ∀ a ∈ pending, ∀ b, Within parts a b → ok b = true := by
  induction n generalizing pending with
  | zero =>
    cases pending with
    | nil => exact fun a ha => absurd ha List.not_mem_nil
    | cons item pending => cases h
  | succ n ih =>
    cases pending with
    | nil => exact fun a ha => absurd ha List.not_mem_nil
    | cons item pending =>
      rw [run] at h
      split_ifs at h with hok
      · intro a ha b hb
        rcases List.mem_cons.1 ha with rfl | ha
        · rcases Relation.ReflTransGen.cases_head hb with rfl | ⟨c, hc, hb⟩
          · exact hok
          · exact ih h c (List.mem_append_left _ hc) b hb
        · exact ih h a (List.mem_append_right _ ha) b hb
      · cases h

/-- **Soundness.** A loop that ends badly has found something in its items that fails the test. -/
theorem exists_of_run (h : run ok parts n pending = some false) :
    ∃ a ∈ pending, ∃ b, Within parts a b ∧ ok b = false := by
  induction n generalizing pending with
  | zero => cases pending <;> cases h
  | succ n ih =>
    cases pending with
    | nil => cases h
    | cons item pending =>
      rw [run] at h
      split_ifs at h with hok
      · obtain ⟨a, ha, b, hb, hfails⟩ := ih h
        rcases List.mem_append.1 ha with ha | ha
        · exact ⟨item, List.mem_cons_self, b, .head ha hb, hfails⟩
        · exact ⟨a, List.mem_cons_of_mem _ ha, b, hb, hfails⟩
      · exact ⟨item, List.mem_cons_self, item, .refl, Bool.not_eq_true _ ▸ hok⟩

/-- **Worklist rule.** The loop ends, and well exactly when all that is in its items passes the test. -/
theorem run_eq (size : α → ℕ) (hsize : ∀ a, ((parts a).map size).sum < size a) (pending : List α) :
    ∃ result, (∀ m ≥ (pending.map size).sum, run ok parts m pending = some result) ∧
      (∀ m r, run ok parts m pending = some r → r = result) ∧
      (result = true ↔ ∀ a ∈ pending, ∀ b, Within parts a b → ok b = true) := by
  obtain ⟨result, hresult⟩ :=
    Option.isSome_iff_exists.1 (@run_isSome α ok parts pending _ size hsize (Nat.le_refl _))
  refine ⟨result, fun m hm => run_of_le hresult hm, fun m r hr => ?_, fun htrue => ?_, fun hall => ?_⟩
  · have hleft := run_of_le hr (Nat.le_add_right m (pending.map size).sum)
    have hright := run_of_le hresult (Nat.le_add_left (pending.map size).sum m)
    exact Option.some.inj (hleft.symm.trans hright)
  · rw [htrue] at hresult
    exact ok_of_run hresult
  · cases result with
    | true => rfl
    | false =>
      obtain ⟨a, ha, b, hb, hfails⟩ := exists_of_run hresult
      rw [hall a ha b hb] at hfails
      cases hfails

end Worklist
