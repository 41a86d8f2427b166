import Mathlib.Algebra.BigOperators.Group.List.Basic
import Mathlib.Algebra.Group.Action.Defs
import Mathlib.Tactic.Ring

set_option autoImplicit false

/-! # Dealing a list in turn

`deal items count` hands out `count` items, one after the other and from the start again when they have all
had their turn: the `i`-th is `items[i % items.length]`. It is so many full rounds and the beginning of one
more (`deal_eq`), so no item is handed out more than once more often than another.

The order of the items is kept within a round. With `countP_deal` any share of the items turns into
a share of what is dealt, up to one round. -/

namespace RoundRobin

variable {α β : Type*}

/-- The first `count` of the items, dealt in turn. -/
def deal (items : List α) (count : ℕ) : List α :=
  (List.range count).filterMap fun i => items[i % items.length]?

@[simp] theorem deal_zero (items : List α) : deal items 0 = [] := rfl

theorem deal_succ (items : List α) (count : ℕ) :
    deal items (count + 1) = deal items count ++ (items[count % items.length]?).toList := by
  rw [deal, List.range_succ, List.filterMap_append, deal]
  cases h : items[count % items.length]? with
  | none => simp [h]
  | some a => simp [h]

theorem deal_of_le {items : List α} {count : ℕ} (h : count ≤ items.length) :
    deal items count = items.take count := by
  induction count with
  | zero => rfl
  | succ count ih =>
    rw [deal_succ, ih (by omega), Nat.mod_eq_of_lt (by omega), List.take_add_one]

/-- A full round comes before the rest. -/
theorem deal_length_add (items : List α) (count : ℕ) :
    deal items (items.length + count) = items ++ deal items count := by
  induction count with
  | zero => rw [Nat.add_zero, deal_of_le le_rfl, List.take_length, deal_zero, List.append_nil]
  | succ count ih => rw [← Nat.add_assoc, deal_succ, ih, Nat.add_mod_left, deal_succ, List.append_assoc]

theorem deal_rounds_add (items : List α) (rounds count : ℕ) :
    deal items (rounds * items.length + count) = (List.replicate rounds items).flatten ++
        deal items count := by
  induction rounds with
  | zero => simp
  | succ rounds ih =>
    have hlength : (rounds + 1) * items.length + count = items.length +
      (rounds * items.length + count) := by ring
    rw [hlength, deal_length_add, ih, List.replicate_succ, List.flatten_cons, List.append_assoc]

/-- **Dealing is full rounds and the beginning of one more.** -/
theorem deal_eq {items : List α} (hne : items ≠ []) (count : ℕ) :
    deal items count =
      (List.replicate (count / items.length) items).flatten ++ items.take (count % items.length) := by
  have hrest : count % items.length < items.length := Nat.mod_lt count (List.length_pos_iff.2 hne)
  calc deal items count
      = deal items (count / items.length * items.length + count % items.length) := by rw [Nat.div_add_mod']
    _ = (List.replicate (count / items.length) items).flatten ++ deal items (count % items.length) :=
        deal_rounds_add items _ _
    _ = _ := by rw [deal_of_le hrest.le]

theorem mem_of_mem_deal {items : List α} {count : ℕ} {a : α} (h : a ∈ deal items count) : a ∈ items := by
  obtain ⟨i, -, hi⟩ := List.mem_filterMap.1 h
  exact List.mem_of_getElem? hi

/-- **Everyone has a turn** if there are at least as many turns. -/
theorem mem_deal {items : List α} {count : ℕ} (hcount : items.length ≤ count) {a : α} (ha : a ∈ items) :
    a ∈ deal items count := by
  obtain ⟨rest, rfl⟩ := Nat.exists_eq_add_of_le hcount
  rw [deal_length_add]
  exact List.mem_append_left _ ha

/-- **How often an item is dealt.** Those with some property get `count / n` times their number, and
    those at the beginning one turn more. -/
theorem countP_deal (p : α → Bool) (items : List α) (count : ℕ) :
    (deal items count).countP p =
      count / items.length * items.countP p + (items.take (count % items.length)).countP p := by
  cases items with
  | nil => simp [deal]
  | cons a items =>
    rw [deal_eq (List.cons_ne_nil a items), List.countP_append, List.countP_flatten, List.map_replicate,
      List.sum_replicate, smul_eq_mul]

/-- What was made of the items that were dealt. -/
theorem map_eq_map_deal {γ : Type*} {items : List α} {count : ℕ} {made : List γ} {f : α → β} {g : γ → β}
    (h : List.Forall₂ (fun i b => ∃ a, items[i % items.length]? = some a ∧
      g b = f a) (List.range count) made) :
    made.map g = (deal items count).map f := by
  unfold deal
  generalize List.range count = turns at h ⊢
  induction h with
  | nil => rfl
  | cons hb _ ih =>
    obtain ⟨a, ha, hab⟩ := hb
    rw [List.map_cons, hab, ih, List.filterMap_cons, ha, List.map_cons]

end RoundRobin
