import Mathlib.Data.List.Basic
import Mathlib.Logic.Relation
import Mathlib.Order.WellFounded

set_option autoImplicit false

/-! # Runs of a transition system

Three ways to run a system. A *deterministic* one is a function `step : σ → α → σ`, its run is the
list of labels it was given, and `EveryStep` says that a predicate of a state and the label taken
there holds at each step of the run. A *fallible* one is a loop `step : σ → α → Option σ` over a
list, which stops at the first label it fails on. A *relational* one is a relation `R : σ → σ → Prop`
of a state to the states that may follow it, its runs are `Relation.ReflTransGen R`; where it matters
when something happened, a run is the trace `ℕ → σ` of its states.

In each an invariant is proved once per step and carried along the run by the rules below. -/

namespace Runs

variable {σ α : Type*}

/-! ## Deterministic systems -/

section Deterministic

variable (step : σ → α → σ)

/-- `Q` holds of every state of the run together with the label that is taken there. -/
def EveryStep (Q : σ → α → Prop) : σ → List α → Prop
  | _, [] => True
  | s, a :: as => Q s a ∧ EveryStep Q (step s a) as

variable {step}

/-- **Run rule.** Where an invariant makes `P` and `ok` agree at every step, and `ok` steps keep the
    invariant, a run shows `P` at each of its steps exactly when it is `ok` at each of them. -/
theorem everyStep_iff_of_invariant {Inv : σ → Prop} {ok P : σ → α → Prop}
    (keep : ∀ s a, Inv s → ok s a → Inv (step s a))
    (agree : ∀ s a, Inv s → (P s a ↔ ok s a)) {s : σ} {as : List α} (hs : Inv s) :
    EveryStep step P s as ↔ EveryStep step ok s as := by
  induction as generalizing s with
  | nil => exact Iff.rfl
  | cons a as ih =>
    simp only [EveryStep, agree s a hs]
    exact and_congr_right fun hok => ih (keep s a hs hok)

end Deterministic

/-! ## Fallible loops -/

theorem foldlM_append_of_invariant {f : σ → α → Option σ} {Inv : List α → σ → Prop}
    (done as : List α)
    (keep : ∀ done, ∀ a ∈ as, ∀ s, Inv done s → ∃ s', f s a = some s' ∧ Inv (done ++ [a]) s')
    {s : σ} (hs : Inv done s) : ∃ s', as.foldlM f s = some s' ∧ Inv (done ++ as) s' := by
  induction as generalizing done s with
  | nil => exact ⟨s, rfl, by simpa using hs⟩
  | cons a as ih =>
    obtain ⟨s', hstep, hs'⟩ := keep done a List.mem_cons_self s hs
    obtain ⟨s'', hrun, hs''⟩ := ih (done ++ [a])
      (fun done' b hb => keep done' b (List.mem_cons_of_mem _ hb)) hs'
    refine ⟨s'', ?_, by simpa using hs''⟩
    rw [List.foldlM_cons, hstep]
    exact hrun

/-- **Loop rule.** An invariant of the labels done so far, under which no label fails, is kept to the
    end of the loop, and the loop does not fail. -/
theorem foldlM_of_invariant {f : σ → α → Option σ} (Inv : List α → σ → Prop) (as : List α)
    (keep : ∀ done, ∀ a ∈ as, ∀ s, Inv done s → ∃ s', f s a = some s' ∧ Inv (done ++ [a]) s')
    {s : σ} (hs : Inv [] s) : ∃ s', as.foldlM f s = some s' ∧ Inv as s' :=
  foldlM_append_of_invariant [] as keep hs

/-- **Loop rule, between two loops.** Where a relation of the states is kept step by step, and the
    fallible step does not fail on related states, the two loops end in related states. -/
theorem foldlM_simulates {τ : Type*} {f : σ → α → Option σ} {g : τ → α → τ} {R : σ → τ → Prop}
    (keep : ∀ s t a, R s t → ∃ s', f s a = some s' ∧ R s' (g t a)) (as : List α) {s : σ} {t : τ}
    (h : R s t) : ∃ s', as.foldlM f s = some s' ∧ R s' (as.foldl g t) := by
  induction as generalizing s t with
  | nil => exact ⟨s, rfl, h⟩
  | cons a as ih =>
    obtain ⟨s', hstep, hrel⟩ := keep s t a h
    rw [List.foldlM_cons, hstep]
    exact ih hrel

/-! ## Relational systems -/

section Relational

variable {R : σ → σ → Prop}

/-- **Run rule.** An invariant that every step keeps holds at the end of every run. -/
theorem reflTransGen_of_invariant {Inv : σ → Prop} (keep : ∀ s t, Inv s → R s t → Inv t) {s t : σ}
    (hs : Inv s) (hrun : Relation.ReflTransGen R s t) : Inv t := by
  induction hrun with
  | refl => exact hs
  | tail _ hstep ih => exact keep _ _ ih hstep

/-- **Run rule, with a view.** Where the steps keep an invariant and relate what a partial `view`
    shows before and after them, a reflexive and transitive `Q` relates what it shows at the two ends
    of a run. -/
theorem reflTransGen_view {ν : Type*} {Inv : σ → Prop} {Q : ν → ν → Prop} (view : σ → Option ν)
    (refl : ∀ v, Q v v) (trans : ∀ u v w, Q u v → Q v w → Q u w)
    (keep : ∀ s t, Inv s → R s t →
      Inv t ∧ ∀ v, view s = some v → ∃ w, view t = some w ∧ Q v w) {s t : σ} {v : ν}
    (hs : Inv s) (hv : view s = some v) (hrun : Relation.ReflTransGen R s t) :
    Inv t ∧ ∃ w, view t = some w ∧ Q v w := by
  induction hrun with
  | refl => exact ⟨hs, v, hv, refl v⟩
  | tail _ hstep ih =>
    obtain ⟨hinv, w, hw, hQ⟩ := ih
    obtain ⟨hinv', hview⟩ := keep _ _ hinv hstep
    obtain ⟨w', hw', hQ'⟩ := hview w hw
    exact ⟨hinv', w', hw', trans v w w' hQ hQ'⟩

/-- What every step keeps holds all along a trace. -/
theorem trace_of_invariant {Inv : σ → Prop} (keep : ∀ s t, Inv s → R s t → Inv t) {run : ℕ → σ}
    {n : ℕ} (hrun : ∀ i < n, R (run i) (run (i + 1))) (h₀ : Inv (run 0)) : ∀ i ≤ n, Inv (run i) := by
  intro i
  induction i with
  | zero => exact fun _ => h₀
  | succ i ih =>
    intro hi
    exact keep _ _ (ih (Nat.le_of_lt hi)) (hrun i hi)

/-- What holds at the end of a trace and not at its start is brought about by one of its steps. -/
theorem exists_step_of_trace {P : σ → Prop} {run : ℕ → σ} {n : ℕ}
    (hrun : ∀ i < n, R (run i) (run (i + 1))) (h₀ : ¬P (run 0)) (hn : P (run n)) :
    ∃ i < n, R (run i) (run (i + 1)) ∧ ¬P (run i) ∧ P (run (i + 1)) := by
  induction n with
  | zero => exact absurd hn h₀
  | succ n ih =>
    by_cases hlast : P (run n)
    · obtain ⟨i, hi, hstep⟩ := ih (fun i hi => hrun i (Nat.lt_succ_of_lt hi)) hlast
      exact ⟨i, Nat.lt_succ_of_lt hi, hstep⟩
    · exact ⟨n, Nat.lt_succ_self n, hrun n (Nat.lt_succ_self n), hlast, hn⟩

/-- **Termination.** Where no step raises a measure and the steps of `P` lower it, every infinite run
    has only finitely many steps of `P`. -/
theorem eventually_not {ν : Type*} [LinearOrder ν] [WellFoundedLT ν] (measure : σ → ν)
    {P : σ → σ → Prop} (le : ∀ s t, R s t → measure t ≤ measure s)
    (lt : ∀ s t, R s t → P s t → measure t < measure s) {run : ℕ → σ}
    (hrun : ∀ n, R (run n) (run (n + 1))) : ∃ N, ∀ n ≥ N, ¬P (run n) (run (n + 1)) := by
  -- from where the measure is least on, no step lowers it
  obtain ⟨_, ⟨N, rfl⟩, hleast⟩ :=
    WellFounded.has_min (wellFounded_lt (α := ν)) (Set.range fun n => measure (run n)) ⟨_, 0, rfl⟩
  have hle : ∀ n ≥ N, measure (run n) ≤ measure (run N) := by
    intro n hn
    induction n, hn using Nat.le_induction with
    | base => exact le_refl _
    | succ n _ ih => exact (le _ _ (hrun n)).trans ih
  refine ⟨N, fun n hn hP => hleast _ ⟨n + 1, rfl⟩ ?_⟩
  exact (lt _ _ (hrun n) hP).trans_le (hle n hn)

end Relational

end Runs
