import Mathlib.Data.List.Basic

set_option autoImplicit false

/-! # Serial histories

Transactions that run one after another, each whole: `Serial R E s ts t` says that the transactions
`ts` lead from `s` to `t` in this order, with changes `E` of other kinds between them. A system whose
transactions overlap is related to such a history; what holds along the history is proved here by the
rules below.

`of_invariant` carries what every transaction and every change keep from one end to the other, and
`split` cuts a history at one of its transactions, so that something can be said of the state in
which that transaction ran. The transactions are labels, which may have their results with them. -/

variable {τ σ : Type*} {R : τ → σ → σ → Prop} {E : σ → σ → Prop}

/-- A run of which the steps of `ts` come in this order, with others between them. -/
inductive Serial (R : τ → σ → σ → Prop) (E : σ → σ → Prop) (s : σ) : List τ → σ → Prop
  | nil : Serial R E s [] s
  | other {ts : List τ} {t u : σ} : Serial R E s ts t → E t u → Serial R E s ts u
  | snoc {ts : List τ} {x : τ} {t u : σ} : Serial R E s ts t → R x t u → Serial R E s (ts ++ [x]) u

namespace Serial

variable {s t u : σ} {ts : List τ}

/-- What every step keeps holds at the end of a history, with what was run before. -/
theorem of_invariant (Inv : List τ → σ → Prop) (h : Serial R E s ts t)
    (other : ∀ ts t u, Inv ts t → E t u → Inv ts u)
    (step : ∀ ts x t u, Inv ts t → R x t u → Inv (ts ++ [x]) u) (hs : Inv [] s) : Inv ts t := by
  induction h with
  | nil => exact hs
  | other _ hchange ih => exact other _ _ _ ih hchange
  | snoc _ hrun ih => exact step _ _ _ _ ih hrun

/-- A history is cut at any of its transactions. -/
theorem split (h : Serial R E s ts u) :
    ∀ {before after : List τ} {x : τ}, ts = before ++ x :: after →
      ∃ t t', Serial R E s before t ∧ R x t t' ∧ Serial R E t' after u := by
  induction h with
  | nil =>
    intro before after x heq
    exact absurd heq.symm (by simp)
  | other _ hchange ih =>
    intro before after x heq
    obtain ⟨t, t', hbefore, hrun, hafter⟩ := ih heq
    exact ⟨t, t', hbefore, hrun, hafter.other hchange⟩
  | snoc hprefix hlast ih =>
    intro before after x heq
    rcases List.eq_nil_or_concat after with rfl | ⟨more, y, rfl⟩
    · obtain ⟨rfl, hx⟩ := List.append_inj' heq rfl
      cases hx
      exact ⟨_, _, hprefix, hlast, .nil⟩
    · rw [List.concat_eq_append, ← List.cons_append, ← List.append_assoc] at heq
      obtain ⟨rfl, hy⟩ := List.append_inj' heq rfl
      cases hy
      obtain ⟨t, t', hbefore, hrun, hafter⟩ := ih rfl
      refine ⟨t, t', hbefore, hrun, ?_⟩
      rw [List.concat_eq_append]
      exact hafter.snoc hlast

end Serial
