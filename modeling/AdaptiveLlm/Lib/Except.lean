import Mathlib.Data.List.Forall2
import Mathlib.Logic.Relation

set_option autoImplicit false

/-! # Fallible computations

A `do` block in `Except` that succeeded is taken apart call by call with `bind_eq_ok`, and a loop that
succeeded carries an invariant of the elements still to come. What it collected stands beside its
elements, one by one.

Two styles are served. `bind_eq_ok` and its relatives turn the hypothesis that a block has succeeded
into the values that its calls returned. `Ensures` goes the other way, from what holds before to
what holds of whatever is returned, with a rule for each way to put computations together; it suits
numerical code, where every call has a postcondition and none of them is looked into. -/

namespace List.Forall₂

variable {α β : Type} {R : α → β → Prop} {as : List α} {bs : List β}

theorem exists_of_mem_left (h : List.Forall₂ R as bs) {a : α} (ha : a ∈ as) : ∃ b ∈ bs, R a b := by
  induction h with
  | nil => cases ha
  | cons hab _ ih =>
    rcases List.mem_cons.1 ha with rfl | ha
    · exact ⟨_, List.mem_cons_self, hab⟩
    · obtain ⟨b, hb, hR⟩ := ih ha
      exact ⟨b, List.mem_cons_of_mem _ hb, hR⟩

theorem exists_of_mem_right (h : List.Forall₂ R as bs) {b : β} (hb : b ∈ bs) : ∃ a ∈ as, R a b :=
  h.flip.exists_of_mem_left hb

theorem comp {γ : Type} {S : β → γ → Prop} {T : α → γ → Prop} {cs : List γ}
    (htrans : ∀ a b c, R a b → S b c → T a c) (h : List.Forall₂ R as bs) (h' : List.Forall₂ S bs cs) :
    List.Forall₂ T as cs := by
  induction h generalizing cs with
  | nil =>
    cases h'
    exact .nil
  | cons hab _ ih =>
    obtain _ | ⟨hbc, h'⟩ := h'
    exact .cons (htrans _ _ _ hab hbc) (ih h')

/-- Lists that agree element by element after two maps are equal after them. -/
theorem map_eq {γ : Type} {f : α → γ} {g : β → γ} (h : List.Forall₂ (fun a b => f a = g b) as bs) :
    as.map f = bs.map g := by
  induction h with
  | nil => rfl
  | cons hab _ ih => rw [List.map_cons, List.map_cons, hab, ih]

end List.Forall₂

namespace Except

variable {ε α β : Type}

theorem bind_eq_ok {x : Except ε α} {f : α → Except ε β} {b : β} :
    (x >>= f) = .ok b ↔ ∃ a, x = .ok a ∧ f a = .ok b := by
  cases x with
  | error e =>
    constructor
    · intro h; cases h
    · rintro ⟨a, h, _⟩; cases h
  | ok a =>
    constructor
    · intro h; exact ⟨a, rfl, h⟩
    · rintro ⟨a', h, hf⟩; cases h; exact hf

@[simp] theorem ok_bind (a : α) (f : α → Except ε β) : ((.ok a : Except ε α) >>= f) = f a := rfl

theorem map_eq_ok {x : Except ε α} {f : α → β} {b : β} :
    x.map f = .ok b ↔ ∃ a, x = .ok a ∧ f a = b := by
  cases x <;> simp [Except.map]

theorem mapError_eq_ok {ε' : Type} {x : Except ε α} {f : ε → ε'} {a : α} :
    x.mapError f = .ok a ↔ x = .ok a := by
  cases x <;> simp [Except.mapError]

/-- A loop that succeeded called its elements one by one. -/
theorem forall₂_of_mapM_eq_ok {f : α → Except ε β} {as : List α} {bs : List β}
    (h : as.mapM f = .ok bs) : List.Forall₂ (fun a b => f a = .ok b) as bs := by
  induction as generalizing bs with
  | nil =>
    cases h
    exact .nil
  | cons a as ih =>
    rw [List.mapM_cons] at h
    obtain ⟨b, hhead, h⟩ := bind_eq_ok.1 h
    obtain ⟨bs', htail, h⟩ := bind_eq_ok.1 h
    cases h
    exact .cons hhead (ih htail)

theorem mapM_eq_ok_of_forall₂ {f : α → Except ε β} {as : List α} {bs : List β}
    (h : List.Forall₂ (fun a b => f a = .ok b) as bs) : as.mapM f = .ok bs := by
  induction h with
  | nil => rfl
  | cons hhead _ ih =>
    rw [List.mapM_cons, hhead, ih]
    rfl

/-- A loop whose calls are numbered. -/
theorem forall₂_of_zipIdx_mapM_eq_ok {f : ℕ → α → Except ε β} {as : List α} {bs : List β}
    (h : (as.zipIdx.mapM fun p => f p.2 p.1) = .ok bs) :
    List.Forall₂ (fun a b => ∃ i, f i a = .ok b) as bs := by
  have hcalls : List.Forall₂ (fun p b => ∃ i, f i (Prod.fst p) = .ok b) as.zipIdx bs :=
    (forall₂_of_mapM_eq_ok h).imp fun p b hp => ⟨p.2, hp⟩
  rw [← List.forall₂_map_left_iff (R := fun a b => ∃ i, f i a = .ok b), List.zipIdx_map_fst] at hcalls
  exact hcalls

/-- What a loop that succeeded has collected came from its elements. -/
theorem mem_of_mapM_eq_ok {f : α → Except ε β} {as : List α} {bs : List β}
    (h : as.mapM f = .ok bs) {b : β} (hb : b ∈ bs) : ∃ a ∈ as, f a = .ok b := by
  induction as generalizing bs with
  | nil =>
    cases h
    cases hb
  | cons a as ih =>
    rw [List.mapM_cons] at h
    obtain ⟨b', hhead, h⟩ := bind_eq_ok.1 h
    obtain ⟨bs', htail, h⟩ := bind_eq_ok.1 h
    cases h
    obtain rfl | hb := List.mem_cons.1 hb
    · exact ⟨a, List.mem_cons_self, hhead⟩
    · obtain ⟨a', ha', hf⟩ := ih htail hb
      exact ⟨a', List.mem_cons_of_mem _ ha', hf⟩

/-- A loop every call of which succeeds collects the results. -/
theorem mapM_eq_ok_map {f : α → Except ε β} {g : α → β} {as : List α}
    (h : ∀ a ∈ as, f a = .ok (g a)) : as.mapM f = .ok (as.map g) := by
  induction as with
  | nil => rfl
  | cons a as ih =>
    rw [List.mapM_cons, h a List.mem_cons_self, ih fun b hb => h b (List.mem_cons_of_mem a hb)]
    rfl

/-- **Loop rule.** What holds of the elements still to come, and is kept by each call that succeeds,
    holds at the end of a loop that succeeds. -/
theorem foldlM_of_invariant {σ : Type} {f : σ → α → Except ε σ} (Inv : List α → σ → Prop)
    (keep : ∀ a as s s', Inv (a :: as) s → f s a = .ok s' → Inv as s') (as : List α) {s s' : σ}
    (hs : Inv as s) (h : as.foldlM f s = .ok s') : Inv [] s' := by
  induction as generalizing s with
  | nil =>
    cases h
    exact hs
  | cons a as ih =>
    rw [List.foldlM_cons] at h
    obtain ⟨s₁, hstep, h⟩ := bind_eq_ok.1 h
    exact ih (keep a as s s₁ hs hstep) h

/-- A loop whose calls each run a transition system runs it. -/
theorem foldlM_reflTransGen {σ : Type} {f : σ → α → Except ε σ} {R : σ → σ → Prop} (as : List α)
    (step : ∀ a ∈ as, ∀ s s', f s a = .ok s' → Relation.ReflTransGen R s s') {s s' : σ}
    (h : as.foldlM f s = .ok s') : Relation.ReflTransGen R s s' := by
  refine (foldlM_of_invariant
    (fun rest t => (∀ a ∈ rest, a ∈ as) ∧ Relation.ReflTransGen R s t) ?_ as
    ⟨fun _ h => h, .refl⟩ h).2
  rintro a rest t t' ⟨hrest, hrun⟩ hstep
  exact ⟨fun b hb => hrest b (List.mem_cons_of_mem _ hb),
    hrun.trans (step a (hrest a List.mem_cons_self) t t' hstep)⟩

/-! ## Postconditions

`Ensures` is a judgement on computations that may fail: what a value satisfies, and what an error
can be. It composes over binds, and a loop keeps an invariant that each of its turns keeps. -/

/-- Where the computation ends well its value is of `post`, and else its error is of `allowed`. -/
def Ensures (allowed : ε → Prop) (post : α → Prop) : Except ε α → Prop
  | .ok a => post a
  | .error e => allowed e

namespace Ensures

variable {allowed : ε → Prop} {post post' : α → Prop} {x : Except ε α}

theorem mono (h : Ensures allowed post x) (hpost : ∀ a, post a → post' a) : Ensures allowed post' x := by
  cases x with
  | ok a => exact hpost a h
  | error e => exact h

theorem bind {Q : β → Prop} {f : α → Except ε β} (h : Ensures allowed post x)
    (hf : ∀ a, post a → Ensures allowed Q (f a)) : Ensures allowed Q (x >>= f) := by
  cases x with
  | ok a => exact hf a h
  | error e => exact h

/-- **Loop rule.** -/
theorem foldlM {σ : Type} {f : σ → α → Except ε σ} (Inv : σ → Prop) {as : List α}
    (keep : ∀ a ∈ as, ∀ s, Inv s → Ensures allowed Inv (f s a)) {s : σ} (hs : Inv s) :
    Ensures allowed Inv (as.foldlM f s) := by
  induction as generalizing s with
  | nil => exact hs
  | cons a as ih =>
    rw [List.foldlM_cons]
    exact (keep a List.mem_cons_self s hs).bind fun s' hs' =>
      ih (fun b hb => keep b (List.mem_cons_of_mem a hb)) hs'

/-- The results of a loop, one for each element. -/
theorem mapM {P : β → Prop} {f : α → Except ε β} {as : List α} (h : ∀ a ∈ as, Ensures allowed P (f a)) :
    Ensures allowed (fun bs => bs.length = as.length ∧ ∀ b ∈ bs, P b) (as.mapM f) := by
  induction as with
  | nil => exact ⟨rfl, List.forall_mem_nil _⟩
  | cons a as ih =>
    rw [List.mapM_cons]
    refine (h a List.mem_cons_self).bind fun b hb => ?_
    refine (ih fun c hc => h c (List.mem_cons_of_mem a hc)).bind fun bs ⟨hlength, hbs⟩ => ?_
    exact ⟨congrArg (· + 1) hlength, List.forall_mem_cons.2 ⟨hb, hbs⟩⟩

/-- A computation that is allowed no error ends well. -/
theorem exists_ok (h : Ensures (fun _ => False) post x) : ∃ a, x = .ok a ∧ post a := by
  cases x with
  | ok a => exact ⟨a, rfl, h⟩
  | error e => exact h.elim

end Ensures

end Except

namespace Option

variable {α β : Type}

/-- A loop every call of which succeeds collects the results. -/
theorem mapM_eq_some_map {f : α → Option β} {g : α → β} {as : List α}
    (h : ∀ a ∈ as, f a = some (g a)) : as.mapM f = some (as.map g) := by
  induction as with
  | nil => rfl
  | cons a as ih =>
    rw [List.mapM_cons, h a List.mem_cons_self, ih fun b hb => h b (List.mem_cons_of_mem a hb)]
    rfl

/-- A loop the calls of which succeed where a condition holds. -/
theorem mapM_eq_ite {f : α → Option β} {p : α → Prop} [DecidablePred p] {g : α → β} {as : List α}
    (h : ∀ a ∈ as, f a = if p a then some (g a) else none) :
    as.mapM f = if ∀ a ∈ as, p a then some (as.map g) else none := by
  induction as with
  | nil => rfl
  | cons a as ih =>
    rw [List.mapM_cons, h a List.mem_cons_self, ih fun b hb => h b (List.mem_cons_of_mem a hb)]
    by_cases ha : p a
    · by_cases has : ∀ b ∈ as, p b
      · rw [if_pos ha, if_pos has, if_pos (List.forall_mem_cons.2 ⟨ha, has⟩)]
        rfl
      · rw [if_pos ha, if_neg has, if_neg fun hall => has (List.forall_mem_cons.1 hall).2]
        rfl
    · rw [if_neg ha, if_neg fun hall => ha (List.forall_mem_cons.1 hall).1]
      rfl

/-- A loop no call of which fails, with what is known of the results. -/
theorem exists_mapM_eq_some {f : α → Option β} {R : α → β → Prop} {as : List α}
    (h : ∀ a ∈ as, ∃ b, f a = some b ∧ R a b) :
    ∃ bs, as.mapM f = some bs ∧ List.Forall₂ R as bs := by
  induction as with
  | nil => exact ⟨[], rfl, .nil⟩
  | cons a as ih =>
    obtain ⟨b, hb, hR⟩ := h a List.mem_cons_self
    obtain ⟨bs, hbs, hall⟩ := ih fun c hc => h c (List.mem_cons_of_mem a hc)
    refine ⟨b :: bs, ?_, .cons hR hall⟩
    rw [List.mapM_cons, hb, hbs]
    rfl

theorem forall₂_of_mapM_eq_some {f : α → Option β} {as : List α} {bs : List β}
    (h : as.mapM f = some bs) : List.Forall₂ (fun a b => f a = some b) as bs := by
  induction as generalizing bs with
  | nil =>
    cases h
    exact .nil
  | cons a as ih =>
    rw [List.mapM_cons] at h
    obtain ⟨b, hhead, h⟩ := Option.bind_eq_some_iff.1 h
    obtain ⟨bs', htail, h⟩ := Option.bind_eq_some_iff.1 h
    cases h
    exact .cons hhead (ih htail)

end Option
