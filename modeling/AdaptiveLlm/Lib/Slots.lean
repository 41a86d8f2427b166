import AdaptiveLlm.Lib.Runs
import Mathlib.Logic.Function.Basic

set_option autoImplicit false

/-! # Slots with a spare

Items belong to slots, and a slot has at most one active item. A slot remembers the item that was
last made active in it, and as a spare the one before, so that the two can be swapped back. Items may
also be retired or withdrawn one by one, which the slot is not told of.

`Valid` is what holds all the same: an active item is the current one of its slot, and a spare is
another item, out of use.

The steps are few: an item is registered, moves on by itself, is the first to become active in its
slot, or takes the place of the current one. Each has its guard, and `Valid.step` goes through them
once. A system with slots of its own relates its transactions to runs of these steps and has the
uniqueness of the active item from here. -/

namespace Slots

/-- Where an item stands. -/
inductive Phase where
  | staged
  | active
  | retired
  | withdrawn
  deriving DecidableEq, Repr

/-- A slot with what is in it and what was in it before. -/
structure Slot (V : Type*) where
  current : V
  spare : Option V

/-- The items with their slot and phase, and the slots. -/
structure Fleet (V D : Type*) where
  item : V → Option (D × Phase)
  slot : D → Option (Slot V)

/-- The changes of a single item that leave its slot alone. -/
inductive Moves : Phase → Phase → Prop
  | stage : Moves .staged .staged
  | retire : Moves .active .retired
  | withdraw {p : Phase} : p ≠ .withdrawn → Moves p .withdrawn

variable {V D : Type*}

section Items

variable [DecidableEq V] (f : Fleet V D) (v w : V) (d : D) (p : Phase)

/-- An item gets a slot and a phase. -/
def Fleet.setItem : Fleet V D :=
  { f with item := Function.update f.item v (some (d, p)) }

@[simp] theorem Fleet.setItem_item : (f.setItem v d p).item w =
    if w = v then some (d, p) else f.item w := by
  simp [setItem, Function.update_apply]

@[simp] theorem Fleet.setItem_slot : (f.setItem v d p).slot = f.slot := rfl

variable {v w} in
theorem Fleet.setItem_comm (hne : v ≠ w) (e : D) (q : Phase) :
    (f.setItem v d p).setItem w e q = (f.setItem w e q).setItem v d p := by
  unfold setItem
  rw [Function.update_comm hne]

end Items

section Slots

variable [DecidableEq D] (f : Fleet V D) (d e : D) (s : Slot V)

/-- A slot gets a new content. -/
def Fleet.setSlot : Fleet V D :=
  { f with slot := Function.update f.slot d (some s) }

@[simp] theorem Fleet.setSlot_item : (f.setSlot d s).item = f.item := rfl

@[simp] theorem Fleet.setSlot_slot : (f.setSlot d s).slot e =
    if e = d then some s else f.slot e := by
  simp [setSlot, Function.update_apply]

end Slots

/-- One item is registered, put into its slot, taken out, or put back. -/
inductive Step [DecidableEq V] [DecidableEq D] : Fleet V D → Fleet V D → Prop
  | register {f : Fleet V D} {v : V} {d : D} :
      f.item v = none → Step f (f.setItem v d .staged)
  | move {f : Fleet V D} {v : V} {d : D} {p p' : Phase} :
      f.item v = some (d, p) → Moves p p' → Step f (f.setItem v d p')
  | activate {f : Fleet V D} {v : V} {d : D} :
      f.item v = some (d, .staged) → f.slot d = none →
      Step f ((f.setItem v d .active).setSlot d ⟨v, none⟩)
  /-- a new item, or the spare, takes the place of the current one -/
  | exchange {f : Fleet V D} {v : V} {d : D} {p : Phase} {s : Slot V} :
      f.slot d = some s → f.item s.current = some (d, .active) → f.item v = some (d, p) →
      p = .staged ∨ p = .retired ∧ s.spare = some v →
      Step f (((f.setItem v d .active).setItem s.current d .retired).setSlot d
        ⟨v, some s.current⟩)

/-! ## The invariant

An item is staged, active, retired or withdrawn, and a slot knows its current and its spare item.
The invariant ties the two views together, and every move of an item keeps it together with what it
does to the item's slot. -/

/-- What is active is in its slot, and a slot holds what has been active, beside a spare that was put
    out. -/
structure Valid (f : Fleet V D) : Prop where
  active : ∀ v d, f.item v = some (d, .active) → ∃ s, f.slot d = some s ∧ s.current = v
  current : ∀ d s, f.slot d = some s → ∃ p, f.item s.current = some (d, p) ∧ p ≠ .staged
  spare : ∀ d s w, f.slot d = some s → s.spare = some w →
    w ≠ s.current ∧ ∃ p, f.item w = some (d, p) ∧ (p = .retired ∨ p = .withdrawn)

theorem Moves.target {p p' : Phase} (h : Moves p p') :
    p' ≠ .active ∧ (p' = .staged → p = .staged) ∧
      (p = .retired ∨ p = .withdrawn → p' = .retired ∨ p' = .withdrawn) := by
  cases h <;> simp

section Keep

variable {f : Fleet V D} {v w : V} {d : D} {p p' : Phase} {s : Slot V}

theorem valid_empty : Valid (⟨fun _ => none, fun _ => none⟩ : Fleet V D) := by
  constructor <;> simp

/-- **Uniqueness.** A slot has at most one active item. -/
theorem Valid.active_unique (h : Valid f) (hv : f.item v = some (d, .active))
    (hw : f.item w = some (d, .active)) : v = w := by
  obtain ⟨s, hs, rfl⟩ := h.active v d hv
  obtain ⟨t, ht, rfl⟩ := h.active w d hw
  obtain rfl : s = t := by simpa [hs] using ht
  rfl

/-- A staged item is neither current nor spare anywhere. -/
theorem Valid.staged_fresh (h : Valid f) (hv : f.item v = some (d, .staged)) {e : D}
    (hs : f.slot e = some s) : s.current ≠ v ∧ s.spare ≠ some v := by
  constructor
  · rintro rfl
    obtain ⟨p, hp, hstaged⟩ := h.current e s hs
    simp only [hv, Option.some.injEq, Prod.mk.injEq] at hp
    exact hstaged hp.2.symm
  · intro hspare
    obtain ⟨-, p, hp, hphase⟩ := h.spare e s v hs hspare
    simp only [hv, Option.some.injEq, Prod.mk.injEq] at hp
    rw [← hp.2] at hphase
    simp at hphase

variable [DecidableEq V]

theorem Valid.register (h : Valid f) (d : D) (hv : f.item v = none) :
    Valid (f.setItem v d .staged) where
  active := by
    intro w e hw
    rw [Fleet.setItem_item] at hw
    split at hw
    · simp at hw
    · exact h.active w e hw
  current := by
    intro e s hs
    obtain ⟨p, hp, hstaged⟩ := h.current e s hs
    have hne : s.current ≠ v := fun heq => by simp [heq, hv] at hp
    exact ⟨p, by simpa [hne] using hp, hstaged⟩
  spare := by
    intro e s w hs hw
    obtain ⟨hcurrent, p, hp, hphase⟩ := h.spare e s w hs hw
    have hne : w ≠ v := fun heq => by simp [heq, hv] at hp
    exact ⟨hcurrent, p, by simpa [hne] using hp, hphase⟩

theorem Valid.move (h : Valid f) (hv : f.item v = some (d, p)) (hmoves : Moves p p') :
    Valid (f.setItem v d p') where
  active := by
    intro w e hw
    rw [Fleet.setItem_item] at hw
    split at hw
    · simp [hmoves.target.1] at hw
    · exact h.active w e hw
  current := by
    intro e s hs
    obtain ⟨q, hq, hstaged⟩ := h.current e s hs
    by_cases heq : s.current = v
    · obtain ⟨rfl, rfl⟩ : d = e ∧ p = q := by simpa [heq, hv] using hq
      exact ⟨p', by simp [heq], fun hp => hstaged (hmoves.target.2.1 hp)⟩
    · exact ⟨q, by simpa [heq] using hq, hstaged⟩
  spare := by
    intro e s w hs hw
    obtain ⟨hcurrent, q, hq, hphase⟩ := h.spare e s w hs hw
    refine ⟨hcurrent, ?_⟩
    by_cases heq : w = v
    · obtain ⟨rfl, rfl⟩ : d = e ∧ p = q := by simpa [heq, hv] using hq
      exact ⟨p', by simp [heq], hmoves.target.2.2 hphase⟩
    · exact ⟨q, by simpa [heq] using hq, hphase⟩

variable [DecidableEq D]

theorem Valid.activate (h : Valid f) (hv : f.item v = some (d, .staged)) (hd : f.slot d = none) :
    Valid ((f.setItem v d .active).setSlot d ⟨v, none⟩) where
  active := by
    intro w e hw
    by_cases heq : w = v
    · obtain rfl : d = e := by simpa [heq] using hw
      exact ⟨⟨v, none⟩, by simp, heq.symm⟩
    · obtain ⟨s, hs, hcurrent⟩ := h.active w e (by simpa [heq] using hw)
      have hne : e ≠ d := fun hed => by simp [hed, hd] at hs
      exact ⟨s, by simpa [hne] using hs, hcurrent⟩
  current := by
    intro e s hs
    rw [Fleet.setSlot_slot] at hs
    split at hs
    · rename_i hed
      obtain rfl : ⟨v, none⟩ = s := by simpa using hs
      exact ⟨.active, by simp [hed], by simp⟩
    · obtain ⟨p, hp, hstaged⟩ := h.current e s hs
      have hne := (h.staged_fresh hv hs).1
      exact ⟨p, by simpa [hne] using hp, hstaged⟩
  spare := by
    intro e s w hs hw
    rw [Fleet.setSlot_slot] at hs
    split at hs
    · obtain rfl : ⟨v, none⟩ = s := by simpa using hs
      simp at hw
    · obtain ⟨hcurrent, p, hp, hphase⟩ := h.spare e s w hs hw
      have hne : w ≠ v := fun heq => (h.staged_fresh hv hs).2 (heq ▸ hw)
      exact ⟨hcurrent, p, by simpa [hne] using hp, hphase⟩

theorem Valid.exchange (h : Valid f) (hs : f.slot d = some s)
    (hcurrent : f.item s.current = some (d, .active)) (hv : f.item v = some (d, p))
    (hp : p ≠ .active) :
    Valid (((f.setItem v d .active).setItem s.current d .retired).setSlot d
      ⟨v, some s.current⟩) := by
  have hne : v ≠ s.current := by
    rintro rfl
    exact hp (by simpa [hv] using hcurrent)
  -- no other slot knows an item of this one
  have hother : ∀ e w q, e ≠ d → f.item w = some (e, q) → w ≠ v ∧ w ≠ s.current := by
    intro e w q hed hw
    constructor
    · rintro rfl
      exact hed (by simp only [hv, Option.some.injEq, Prod.mk.injEq] at hw; exact hw.1.symm)
    · rintro rfl
      exact hed (by simp only [hcurrent, Option.some.injEq, Prod.mk.injEq] at hw; exact hw.1.symm)
  constructor
  · intro w e hw
    by_cases hretired : w = s.current
    · simp [hretired] at hw
    by_cases heq : w = v
    · obtain rfl : d = e := by simpa [heq, hne] using hw
      exact ⟨⟨v, some s.current⟩, by simp, heq.symm⟩
    · obtain ⟨t, ht, htcurrent⟩ := h.active w e (by simpa [heq, hretired] using hw)
      have hed : e ≠ d := by
        rintro rfl
        obtain rfl : s = t := by simpa [hs] using ht
        exact hretired htcurrent.symm
      exact ⟨t, by simpa [hed] using ht, htcurrent⟩
  · intro e t ht
    by_cases hed : e = d
    · obtain rfl : ⟨v, some s.current⟩ = t := by simpa [hed] using ht
      exact ⟨.active, by simp [hne, hed], by simp⟩
    · obtain ⟨q, hq, hstaged⟩ := h.current e t (by simpa [hed] using ht)
      obtain ⟨hv', hcurrent'⟩ := hother e t.current q hed hq
      exact ⟨q, by simpa [hv', hcurrent'] using hq, hstaged⟩
  · intro e t w ht hw
    by_cases hed : e = d
    · obtain rfl : ⟨v, some s.current⟩ = t := by simpa [hed] using ht
      obtain rfl : s.current = w := by simpa using hw
      exact ⟨hne.symm, .retired, by simp [hed], .inl rfl⟩
    · obtain ⟨hspare, q, hq, hphase⟩ := h.spare e t w (by simpa [hed] using ht) hw
      obtain ⟨hv', hcurrent'⟩ := hother e w q hed hq
      exact ⟨hspare, q, by simpa [hv', hcurrent'] using hq, hphase⟩

/-- **Step lemma.** -/
theorem Valid.step {g : Fleet V D} (h : Valid f) (hstep : Step f g) : Valid g := by
  cases hstep with
  | register hv => exact h.register _ hv
  | move hv hmoves => exact h.move hv hmoves
  | activate hv hd => exact h.activate hv hd
  | exchange hs hcurrent hv hp =>
    refine h.exchange hs hcurrent hv ?_
    rcases hp with rfl | ⟨rfl, -⟩ <;> simp

end Keep

end Slots
