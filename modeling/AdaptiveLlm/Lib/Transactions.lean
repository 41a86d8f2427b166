import AdaptiveLlm.Lib.Locks
import AdaptiveLlm.Lib.Runs
import AdaptiveLlm.Lib.Serial
import Mathlib.Data.List.Nodup

set_option autoImplicit false

/-! # Transactions under a lock

Each of the threads runs one transaction on a store: it begins when nobody holds the lock, works on a
copy that the others do not see, and commits the copy, or rolls back at any point. While the lock is free
the store may change by `E` as well. `log` records the commits.

What such a system does is a serial history of the transactions that it logs.

The rule is proved once for any store, any transactions and any outside changes. Its invariant is
short, since a copy is made and worked on while the lock is held: inside a transaction the store is
still what it was at the beginning. So a commit puts the effect of the whole transaction on the
current store, and a rollback leaves nothing but the release of the lock. -/

namespace Transactions

variable {τ σ β : Type*}

/-- Where a transaction stands. -/
inductive Phase (σ β : Type*) where
  | waiting
  | begun (copy : σ)
  | worked (copy : σ) (result : β)
  | returned (result : β)
  | failed

/-- The thread holds the lock. -/
def Phase.inTransaction : Phase σ β → Bool
  | begun _ | worked _ _ => true
  | _ => false

/-- The store, who holds its lock, and where each thread stands. -/
structure System (τ σ β : Type*) where
  store : σ
  holder : Option τ := none
  phase : τ → Phase σ β := fun _ => .waiting
  log : List (τ × β) := []

/-- Nothing has begun. -/
structure Fresh (s : System τ σ β) : Prop where
  holder : s.holder = none
  phase : ∀ t, s.phase t = .waiting
  log : s.log = []

section Step

variable [DecidableEq τ] (R : τ → β → σ → σ → Prop) (E : σ → σ → Prop)

/-- One thread begins, works on its copy, commits or rolls back. -/
inductive Step : System τ σ β → System τ σ β → Prop
  | begin_ {s : System τ σ β} {t : τ} (waiting : s.phase t = .waiting) (free : s.holder = none) :
      Step s { s with holder := some t, phase := Function.update s.phase t (.begun s.store) }
  | work {s : System τ σ β} {t : τ} {copy copy' : σ} {b : β} (begun : s.phase t = .begun copy)
      (ran : R t b copy copy') :
      Step s { s with phase := Function.update s.phase t (.worked copy' b) }
  | commit {s : System τ σ β} {t : τ} {copy : σ} {b : β} (worked : s.phase t = .worked copy b) :
      Step s { s with
        store := copy
        holder := none
        phase := Function.update s.phase t (.returned b)
        log := s.log ++ [(t, b)] }
  | rollback {s : System τ σ β} {t : τ} (running : (s.phase t).inTransaction = true) :
      Step s { s with holder := none, phase := Function.update s.phase t .failed }
  /-- ended before the transaction -/
  | abandon {s : System τ σ β} {t : τ} (waiting : s.phase t = .waiting) :
      Step s { s with phase := Function.update s.phase t .failed }
  | other {s : System τ σ β} {store : σ} (free : s.holder = none) (change : E s.store store) :
      Step s { s with store }

variable {R E} {s : System τ σ β} {t : τ} {b : β}

/-- A transaction that nothing overlaps. -/
theorem Step.whole {store : σ} (waiting : s.phase t = .waiting) (free : s.holder = none)
    (ran : R t b s.store store) :
    Relation.ReflTransGen (Step R E) s { s with
      store
      holder := none
      phase := Function.update s.phase t (.returned b)
      log := s.log ++ [(t, b)] } := by
  have hbegun := Step.begin_ (R := R) (E := E) waiting free
  have hworked := Relation.ReflTransGen.single hbegun |>.tail (.work (Function.update_self ..) ran)
  have hcommitted := hworked.tail (.commit (Function.update_self ..))
  simpa only [Function.update_idem] using hcommitted

/-- A transaction that does nothing but fail. -/
theorem Step.failing (waiting : s.phase t = .waiting) (free : s.holder = none) :
    Relation.ReflTransGen (Step R E) s { s with phase := Function.update s.phase t .failed } := by
  have hbegun := Step.begin_ (R := R) (E := E) waiting free
  have hfailed := Relation.ReflTransGen.single hbegun
    |>.tail (.rollback (t := t) (by simp [Phase.inTransaction]))
  simpa only [Function.update_idem, free] using hfailed

end Step

/-! ## The invariant

A transaction works on a copy of the store that it took when it began, and no other can commit
before it ends. So the copy is current when it commits, and the store is what the committed
transactions make of it one after the other. -/

section Invariant

variable (R : τ → β → σ → σ → Prop) (E : σ → σ → Prop)

/-- Inside a transaction the store is what it was when the transaction began. -/
def PhaseInv (store : σ) (t : τ) : Phase σ β → Prop
  | .begun copy => copy = store
  | .worked copy b => R t b store copy
  | _ => True

/-- What holds after every step, for the store `store₀` at the start. -/
structure Inv (store₀ : σ) (s : System τ σ β) : Prop where
  guards : Locks.Guards s.holder Phase.inTransaction s.phase
  phases : ∀ t, PhaseInv R s.store t (s.phase t)
  nodup : (s.log.map Prod.fst).Nodup
  logged : ∀ t b, (t, b) ∈ s.log ↔ s.phase t = .returned b
  serial : Serial (fun e : τ × β => R e.1 e.2) E store₀ s.log s.store

variable {R E} {s s' : System τ σ β} {store₀ : σ}

theorem Inv.init (h : Fresh s) : Inv R E s.store s where
  guards t ht := by
    rw [h.phase t] at ht
    cases ht
  phases t := by
    rw [h.phase t]
    trivial
  nodup := by rw [h.log]; exact List.nodup_nil
  logged t b := by
    rw [h.log, h.phase t]
    exact iff_of_false List.not_mem_nil nofun
  serial := by rw [h.log]; exact .nil

/-- Outside a transaction nothing is said of the store. -/
theorem PhaseInv.of_outside {store : σ} {t : τ} {phase : Phase σ β}
    (h : phase.inTransaction = false) : PhaseInv R store t phase := by
  cases phase with
  | waiting | returned _ | failed => trivial
  | begun _ | worked _ _ => cases h

theorem Inv.other (h : Inv R E store₀ s) {store : σ} (free : s.holder = none)
    (change : E s.store store) : Inv R E store₀ { s with store } where
  guards := h.guards
  phases t := by
    refine .of_outside (Bool.eq_false_iff.2 fun ht => ?_)
    have hholder := h.guards t ht
    rw [free] at hholder
    cases hholder
  nodup := h.nodup
  logged := h.logged
  serial := h.serial.other change

variable [DecidableEq τ]

/-- A step that neither commits nor changes the store. -/
theorem Inv.move (h : Inv R E store₀ s) {t : τ} {phase : Phase σ β} {holder : Option τ}
    (hguards : Locks.Guards holder Phase.inTransaction (Function.update s.phase t phase))
    (hself : PhaseInv R s.store t phase) (hbefore : ∀ b, s.phase t ≠ .returned b)
    (hafter : ∀ b, phase ≠ .returned b) :
    Inv R E store₀ { s with holder, phase := Function.update s.phase t phase } where
  guards := hguards
  phases := Locks.forall_update hself fun t' _ => h.phases t'
  nodup := h.nodup
  logged t' b := by
    dsimp only
    rw [h.logged]
    by_cases heq : t' = t
    · subst heq
      rw [Function.update_self]
      exact iff_of_false (hbefore b) (hafter b)
    · rw [Function.update_of_ne heq]
  serial := h.serial

theorem Inv.commit (h : Inv R E store₀ s) {t : τ} {copy : σ} {b : β}
    (ht : s.phase t = .worked copy b) :
    Inv R E store₀ { s with
      store := copy
      holder := none
      phase := Function.update s.phase t (.returned b)
      log := s.log ++ [(t, b)] } := by
  have hcritical : (s.phase t).inTransaction = true := by rw [ht]; rfl
  have hran : R t b s.store copy := by
    have hinv := h.phases t
    rwa [ht] at hinv
  have hnew : t ∉ s.log.map Prod.fst := by
    intro hmem
    obtain ⟨⟨_, b'⟩, hlogged, rfl⟩ := List.mem_map.1 hmem
    rw [h.logged, ht] at hlogged
    cases hlogged
  constructor
  · exact h.guards.release hcritical rfl
  · exact Locks.forall_update trivial fun t' hne => .of_outside (h.guards.other hcritical hne)
  · rw [List.map_append, List.nodup_append']
    exact ⟨h.nodup, List.nodup_singleton _, by simpa using hnew⟩
  · intro t' b'
    dsimp only
    rw [List.mem_append, List.mem_singleton, h.logged]
    by_cases heq : t' = t
    · subst heq
      rw [Function.update_self, ht]
      simp [eq_comm]
    · rw [Function.update_of_ne heq]
      simp [heq]
  · exact h.serial.snoc hran

theorem Inv.step (h : Inv R E store₀ s) (hstep : Step R E s s') : Inv R E store₀ s' := by
  cases hstep with
  | @begin_ t waiting free =>
    have hguards := h.guards
    rw [free] at hguards
    exact h.move hguards.acquire rfl (by rw [waiting]; nofun) nofun
  | @work t copy copy' b begun ran =>
    have hcopy : copy = s.store := by
      have hinv := h.phases t
      rwa [begun] at hinv
    exact h.move (h.guards.keep fun _ => by rw [begun]; rfl) (hcopy ▸ ran) (by rw [begun]; nofun) nofun
  | commit worked => exact h.commit worked
  | @rollback t running =>
    refine h.move (h.guards.release running rfl) trivial (fun b hb => ?_) nofun
    rw [hb] at running
    cases running
  | @abandon t waiting => exact h.move (h.guards.keep nofun) trivial (by rw [waiting]; nofun) nofun
  | other free change => exact h.other free change

/-- **Serializability.** The store is what the logged transactions have left one after another. -/
theorem Inv.run (h₀ : Fresh s) (hrun : Relation.ReflTransGen (Step R E) s s') : Inv R E s.store s' := by
  have hkeep : ∀ t u, Inv R E s.store t → Step R E t u → Inv R E s.store u :=
    fun _ _ hinv hstep => hinv.step hstep
  exact Runs.reflTransGen_of_invariant hkeep (.init h₀) hrun

end Invariant

end Transactions
