import Mathlib.Data.Finset.Card
import Mathlib.Data.Finset.Lattice.Lemmas

set_option autoImplicit false

/-! # Bounded inventories

An inventory takes a value on its first use, as long as it has a free slot, and refuses it otherwise. Two
inventories are compared, of which one has had some uses more than the other, and an inventory with what
later uses make of it.

An inventory has a bound and never frees a slot, so the values in it are the first ones that were
used. `Grows` is the order of an inventory and one later in the same run; `Fewer` compares two runs
of which one leaves out some uses. What is used in the smaller run is admitted in the larger one
unless its slot was taken by a use that the smaller run does not have. -/

namespace Inventory

variable {α : Type*} [DecidableEq α] {cap : ℕ} {held held' named : Finset α} {v : α}

/-- The value has a slot, or gets one. -/
def Admits (cap : ℕ) (held : Finset α) (v : α) : Prop := v ∈ held ∨ held.card < cap

instance (cap : ℕ) (held : Finset α) (v : α) : Decidable (Admits cap held v) :=
  inferInstanceAs (Decidable (_ ∨ _))

/-- The inventory after a use. -/
def use (cap : ℕ) (held : Finset α) (v : α) : Finset α := if Admits cap held v then insert v held else held

/-- The inventory `held'` has had the uses of the values `named`, and `held` these and others. -/
structure Fewer (cap : ℕ) (named held held' : Finset α) : Prop where
  bounded : held.card ≤ cap
  settled : ∀ x ∈ named, Admits cap held x → x ∈ held
  eq : held' = held ∩ named

theorem Fewer.empty (cap : ℕ) : Fewer cap (∅ : Finset α) ∅ ∅ where
  bounded := Nat.zero_le _
  settled := nofun
  eq := rfl

theorem card_use (h : held.card ≤ cap) : (use cap held v).card ≤ cap := by
  unfold use
  split_ifs with hv
  · rcases hv with hv | hv
    · rwa [Finset.insert_eq_of_mem hv]
    · exact (Finset.card_insert_le _ _).trans hv
  · exact h

theorem subset_use : held ⊆ use cap held v := by
  unfold use
  split_ifs
  · exact Finset.subset_insert _ _
  · exact subset_rfl

/-- With more in it an inventory admits no more. -/
theorem Admits.of_use {x : α} (h : Admits cap (use cap held v) x) (hx : x ∉ use cap held v) :
    Admits cap held x :=
  .inr (lt_of_le_of_lt (Finset.card_le_card subset_use) (h.resolve_left hx))

theorem Fewer.settled_use (h : Fewer cap named held held') {x : α} (hx : x ∈ named)
    (hadmits : Admits cap (use cap held v) x) : x ∈ use cap held v := by
  by_contra hnot
  exact hnot (subset_use (h.settled x hx (hadmits.of_use hnot)))

/-- **A use of the other inventory only.** -/
theorem Fewer.skip (h : Fewer cap named held held') (v : α) : Fewer cap named (use cap held v) held' where
  bounded := card_use h.bounded
  settled _ hx := h.settled_use hx
  eq := by
    rw [h.eq]
    unfold use
    split_ifs with hv
    · by_cases hnamed : v ∈ named
      · rw [Finset.insert_eq_of_mem (h.settled v hnamed hv)]
      · rw [Finset.insert_inter_of_notMem hnamed]
    · rfl

/-- A value that is admitted, or that is refused by the slots of `named` alone, fares alike in both. -/
theorem Fewer.admits_iff (h : Fewer cap named held held')
    (hv : Admits cap held v ∨ cap ≤ (held ∩ named).card) : Admits cap held v ↔ Admits cap held' v := by
  rw [h.eq]
  by_cases hfull : cap ≤ (held ∩ named).card
  · have hall : held ∩ named = held :=
      Finset.eq_of_subset_of_card_le Finset.inter_subset_left (h.bounded.trans hfull)
    rw [hall]
  · exact ⟨fun _ => .inr (not_le.1 hfull), fun _ => hv.resolve_right hfull⟩

/-- **A use of both inventories.** -/
theorem Fewer.keep (h : Fewer cap named held held')
    (hv : Admits cap held v ∨ cap ≤ (held ∩ named).card) :
    Fewer cap (insert v named) (use cap held v) (use cap held' v) where
  bounded := card_use h.bounded
  settled x hx hadmits := by
    rcases Finset.mem_insert.1 hx with rfl | hx
    · by_contra hnot
      have hbefore := hadmits.of_use hnot
      exact hnot (by rw [use, if_pos hbefore]; exact Finset.mem_insert_self _ _)
    · exact h.settled_use hx hadmits
  eq := by
    have hiff := h.admits_iff hv
    unfold use
    by_cases hadmits : Admits cap held v
    · rw [if_pos hadmits, if_pos (hiff.1 hadmits), h.eq, Finset.insert_inter_distrib]
    · have hnot : v ∉ held := fun hmem => hadmits (.inl hmem)
      rw [if_neg hadmits, if_neg (fun h' => hadmits (hiff.2 h')), h.eq, Finset.inter_insert_of_notMem hnot]

/-! ## Later uses -/

/-- What later uses make of the inventory `held`. -/
structure Grows (cap : ℕ) (held held' : Finset α) : Prop where
  subset : held ⊆ held'
  full : cap ≤ held.card → held' = held

omit [DecidableEq α] in
theorem Grows.refl (cap : ℕ) (held : Finset α) : Grows cap held held where
  subset := subset_rfl
  full _ := rfl

omit [DecidableEq α] in
theorem Grows.trans {held'' : Finset α} (h : Grows cap held held') (h' : Grows cap held' held'') :
    Grows cap held held'' where
  subset := h.subset.trans h'.subset
  full hfull := by
    have hsame := h.full hfull
    rw [h'.full (hsame ▸ hfull), hsame]

theorem Grows.use (cap : ℕ) (held : Finset α) (v : α) : Grows cap held (use cap held v) where
  subset := subset_use
  full hfull := by
    unfold Inventory.use
    split_ifs with hv
    · -- A full inventory admits only what it holds.
      exact Finset.insert_eq_of_mem (hv.resolve_right (not_lt.2 hfull))
    · rfl

/-- **A use decides for good**: a value is admitted where it is still held after any later uses. -/
theorem Grows.admits_iff (h : Grows cap (Inventory.use cap held v) held') :
    Admits cap held v ↔ v ∈ held' := by
  constructor
  · intro hadmits
    apply h.subset
    rw [Inventory.use, if_pos hadmits]
    exact Finset.mem_insert_self _ _
  · intro hmem
    by_contra hrefused
    rw [Inventory.use, if_neg hrefused] at h
    obtain ⟨hnot, hfull⟩ := not_or.1 hrefused
    rw [h.full (not_lt.1 hfull)] at hmem
    exact hnot hmem

end Inventory
