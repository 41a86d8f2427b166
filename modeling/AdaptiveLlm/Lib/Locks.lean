import Mathlib.Logic.Function.Basic

set_option autoImplicit false

/-! # Locks

Threads `τ`, each at a place `π` of its program, and a lock with at most one holder. The places that
need the lock are a predicate of places; `Guards` says that only the holder is at one. It is kept by
the steps that take the lock when it is free, release it on the way out, or move within a side.

There is one lemma for each way in which a step can touch the lock: it leaves the lock alone, takes
it, or releases it. Each keeps `Guards`, whatever else the step does to the state, since only the
places and the holder are mentioned. -/

namespace Locks

variable {τ π : Type*}

/-- Whoever is at a place of `critical` holds the lock. -/
def Guards (holder : Option τ) (critical : π → Bool) (pc : τ → π) : Prop :=
  ∀ t, critical (pc t) = true → holder = some t

variable {holder : Option τ} {critical : π → Bool} {pc : τ → π} {t t' : τ} {place : π}

/-- **Mutual exclusion.** -/
theorem Guards.unique (h : Guards holder critical pc) (ht : critical (pc t) = true)
    (ht' : critical (pc t') = true) : t = t' :=
  Option.some.inj ((h t ht).symm.trans (h t' ht'))

/-- Beside the holder no one is at a critical place. -/
theorem Guards.other (h : Guards holder critical pc) (ht : critical (pc t) = true) (hne : t' ≠ t) :
    critical (pc t') = false :=
  Bool.eq_false_iff.2 fun ht' => hne (h.unique ht' ht)

variable [DecidableEq τ]

theorem Guards.keep (h : Guards holder critical pc)
    (hplace : critical place = true → critical (pc t) = true) :
    Guards holder critical (Function.update pc t place) := by
  intro t' ht'
  by_cases heq : t' = t
  · subst heq
    rw [Function.update_self] at ht'
    exact h t' (hplace ht')
  · rw [Function.update_of_ne heq] at ht'
    exact h t' ht'

theorem Guards.acquire (h : Guards none critical pc) :
    Guards (some t) critical (Function.update pc t place) := by
  intro t' ht'
  by_cases heq : t' = t
  · rw [heq]
  · rw [Function.update_of_ne heq] at ht'
    cases h t' ht'

theorem Guards.release (h : Guards holder critical pc) (ht : critical (pc t) = true)
    (hplace : critical place = false) : Guards none critical (Function.update pc t place) := by
  intro t' ht'
  by_cases heq : t' = t
  · subst heq
    rw [Function.update_self, hplace] at ht'
    cases ht'
  · rw [Function.update_of_ne heq] at ht'
    exact absurd (h.unique ht' ht) heq

/-- A fact about every thread after one has moved. -/
theorem forall_update {P : τ → π → Prop} (hself : P t place) (hother : ∀ t', t' ≠ t → P t' (pc t')) :
    ∀ t', P t' (Function.update pc t place t') := by
  intro t'
  by_cases heq : t' = t
  · subst heq
    rwa [Function.update_self]
  · rw [Function.update_of_ne heq]
    exact hother t' heq

end Locks
