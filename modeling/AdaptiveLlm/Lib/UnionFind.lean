import Mathlib.Data.Fintype.Card
import Mathlib.Logic.Function.Iterate
import Mathlib.Logic.Relation

set_option autoImplicit false

/-! # Union-find with path halving

A forest over a finite type is its parent function, a root its own parent. `find` walks up and
halves the path as it goes; `union` links the root of one element below the root of the other,
without ranks. `find` takes fuel, and the number of elements is enough of it (`find_eq`).

What a client sees is the relation `SameRoot`: `find` keeps it, and `union x y` turns it into the
equivalence generated by it and the pair `(x, y)` (`sameRoot_union`).

A parent function is a forest when every element has a root, which one reaches by going up
(`IsForest`). Halving a path and linking two roots keep this, so `find` ends and the functions lead
from forests to forests. No statement about roots mentions paths, sizes or the order of the
calls. -/

namespace UnionFind

variable {α : Type*} [DecidableEq α]

/-! ## Roots

An element's root is found by going up until nothing changes. In a forest every way up ends, and it
takes fewer steps than there are elements, so a bounded search finds the root. -/

/-- `r` is a root, at most `k` steps above `i`. -/
inductive RootIn (p : α → α) : ℕ → α → α → Prop
  | here {k : ℕ} {i : α} : p i = i → RootIn p k i i
  | up {k : ℕ} {i r : α} : RootIn p k (p i) r → RootIn p (k + 1) i r

/-- `r` is the root above `i`. -/
def RootOf (p : α → α) (i r : α) : Prop := ∃ k, RootIn p k i r

/-- Every path ends in a root. -/
def IsForest (p : α → α) : Prop := ∀ i, ∃ r, RootOf p i r

/-- The two elements are in one tree. -/
def SameRoot (p : α → α) (i j : α) : Prop := ∃ r, RootOf p i r ∧ RootOf p j r

omit [DecidableEq α] in
theorem isForest_id : IsForest (id : α → α) := fun i => ⟨i, 0, .here rfl⟩

section Roots

variable {p : α → α}

omit [DecidableEq α]

theorem RootIn.mono {k m : ℕ} {i r : α} (h : RootIn p k i r) (hkm : k ≤ m) : RootIn p m i r := by
  induction h generalizing m with
  | here hi => exact .here hi
  | up _ ih =>
    obtain ⟨m, rfl⟩ : ∃ n, m = n + 1 := ⟨m - 1, by omega⟩
    exact .up (ih (by omega))

theorem RootIn.isRoot {k : ℕ} {i r : α} (h : RootIn p k i r) : p r = r := by
  induction h with
  | here hi => exact hi
  | up _ ih => exact ih

theorem RootIn.of_root {k : ℕ} {i r : α} (h : RootIn p k i r) (hi : p i = i) : r = i := by
  induction h with
  | here _ => rfl
  | up _ ih => rw [hi] at ih; exact ih hi

theorem RootIn.unique {k m : ℕ} {i r r' : α} (h : RootIn p k i r) (h' : RootIn p m i r') :
    r = r' := by
  induction h generalizing m with
  | here hi => exact (h'.of_root hi).symm
  | up hup ih =>
    cases h' with
    | here hi => exact (RootIn.up hup).of_root hi
    | up h' => exact ih h'

theorem RootOf.isRoot {i r : α} (h : RootOf p i r) : p r = r := h.choose_spec.isRoot

theorem RootOf.unique {i r r' : α} (h : RootOf p i r) (h' : RootOf p i r') : r = r' :=
  h.choose_spec.unique h'.choose_spec

theorem RootOf.self {i : α} (h : p i = i) : RootOf p i i := ⟨0, .here h⟩

theorem RootOf.up {i r : α} (h : RootOf p (p i) r) : RootOf p i r :=
  ⟨h.choose + 1, .up h.choose_spec⟩

theorem SameRoot.symm {i j : α} (h : SameRoot p i j) : SameRoot p j i :=
  let ⟨r, hi, hj⟩ := h; ⟨r, hj, hi⟩

theorem SameRoot.trans {i j k : α} (h : SameRoot p i j) (h' : SameRoot p j k) : SameRoot p i k := by
  obtain ⟨r, hi, hj⟩ := h
  obtain ⟨r', hj', hk⟩ := h'
  obtain rfl := hj.unique hj'
  exact ⟨r, hi, hk⟩

theorem IsForest.sameRoot_equivalence (h : IsForest p) : Equivalence (SameRoot p) where
  refl i := let ⟨r, hr⟩ := h i; ⟨r, hr, hr⟩
  symm := .symm
  trans := .trans

/-- An equivalence that holds of the pairs of `R` holds of all that `R` generates. -/
theorem eqvGen_le {R S : α → α → Prop} (hS : Equivalence S) (h : ∀ u v, R u v → S u v) {i j : α}
    (hij : Relation.EqvGen R i j) : S i j :=
  hS.eqvGen_iff.1 (Relation.EqvGen.mono h _ _ hij)

theorem rootIn_iterate {k : ℕ} {i : α} (h : p (p^[k] i) = p^[k] i) : RootIn p k i (p^[k] i) := by
  induction k generalizing i with
  | zero => exact .here h
  | succ k ih => exact .up (ih h)

theorem RootIn.exists_iterate {k : ℕ} {i r : α} (h : RootIn p k i r) : ∃ m, p^[m] i = r := by
  induction h with
  | here _ => exact ⟨0, rfl⟩
  | up _ ih =>
    obtain ⟨m, hm⟩ := ih
    exact ⟨m + 1, hm⟩

/-- In a forest of `n` elements a root is fewer than `n` steps away: the elements on the way up to
    the first fixed point are distinct. -/
theorem RootOf.rootIn_card [Fintype α] {i r : α} (h : RootOf p i r) :
    RootIn p (Fintype.card α - 1) i r := by
  classical
  have hex : ∃ m, p (p^[m] i) = p^[m] i := by
    obtain ⟨m, hm⟩ := h.choose_spec.exists_iterate
    exact ⟨m, by rw [hm]; exact h.isRoot⟩
  set d := Nat.find hex with hd
  have hfix : p (p^[d] i) = p^[d] i := Nat.find_spec hex
  have hinj : Set.InjOn (fun m => p^[m] i) (Finset.range (d + 1)) := by
    -- a repetition before the fixed point would bring the fixed point forward
    have key : ∀ a b, a < b → b ≤ d → p^[a] i ≠ p^[b] i := by
      intro a b hab hbd heq
      have hearly : p^[d - b + a] i = p^[d] i := by
        rw [Function.iterate_add_apply, heq, ← Function.iterate_add_apply, Nat.sub_add_cancel hbd]
      exact Nat.find_min hex (show d - b + a < d by omega) (by rw [hearly]; exact hfix)
    intro a ha b hb heq
    simp only [Finset.coe_range, Set.mem_Iio] at ha hb
    rcases Nat.lt_trichotomy a b with hab | hab | hab
    · exact absurd heq (key a b hab (by omega))
    · exact hab
    · exact absurd heq.symm (key b a hab (by omega))
  have hcard : d + 1 ≤ Fintype.card α := by
    simpa using Finset.card_le_card_of_injOn (t := Finset.univ) _ (fun _ _ => Finset.mem_univ _) hinj
  have hroot := rootIn_iterate hfix
  rw [h.choose_spec.unique hroot]
  exact hroot.mono (by omega)

end Roots

/-! ## Path halving -/

/-- The parent function with `i` moved to its grandparent. -/
def halve (p : α → α) (i : α) : α → α := Function.update p i (p (p i))

theorem RootIn.halve {p : α → α} {k : ℕ} {j r : α} (h : RootIn p k j r) (i : α) :
    RootIn (halve p i) k j r := by
  induction h with
  | @here k j hj =>
    refine .here ?_
    by_cases hji : j = i
    · subst hji; simp [UnionFind.halve, hj]
    · simpa [UnionFind.halve, hji] using hj
  | @up k j r _ ih =>
    by_cases hji : j = i
    · subst hji
      by_cases hj : p j = j
      · rw [hj] at ih
        exact ih.mono (Nat.le_succ k)
      · -- one step of the halved path is two steps of the old one
        have hp : UnionFind.halve p j (p j) = p (p j) := by
          simp [UnionFind.halve, Function.update_of_ne hj]
        refine .up ?_
        rw [show UnionFind.halve p j j = p (p j) by simp [UnionFind.halve]]
        cases ih with
        | here hroot => rw [← hp, hroot]; exact .here hroot
        | up hup => rw [hp] at hup; exact hup.mono (Nat.le_succ _)
    · refine .up ?_
      rwa [show UnionFind.halve p i j = p j by simp [UnionFind.halve, hji]]

theorem rootOf_halve {p : α → α} (hp : IsForest p) (i j r : α) :
    RootOf (halve p i) j r ↔ RootOf p j r := by
  constructor
  · intro h
    obtain ⟨r', hr'⟩ := hp j
    have hr'' : RootOf (halve p i) j r' := ⟨_, hr'.choose_spec.halve i⟩
    rwa [h.unique hr'']
  · rintro ⟨k, hk⟩
    exact ⟨k, hk.halve i⟩

theorem IsForest.halve {p : α → α} (hp : IsForest p) (i : α) : IsForest (halve p i) :=
  fun j => let ⟨r, hr⟩ := hp j; ⟨r, (rootOf_halve hp i j r).2 hr⟩

/-! ## Find -/

/-- The root above `i`, halving the path to it: `none` when the fuel is out. -/
def find : ℕ → (α → α) → α → Option ((α → α) × α)
  | 0, _, _ => none
  | fuel + 1, p, i =>
    if p i = i then some (p, i)
    else
      let p := halve p i
      find fuel p (p i)

/-- Within `k + 1` rounds `find` reaches a root that is at most `k` steps away; it keeps the forest
    and all of its roots. -/
theorem find_of_rootIn {p : α → α} {k : ℕ} {i r : α} (hp : IsForest p) (h : RootIn p k i r) :
    ∃ p', find (k + 1) p i = some (p', r) ∧ IsForest p' ∧ ∀ j s, RootOf p' j s ↔ RootOf p j s := by
  induction k generalizing p i with
  | zero =>
    cases h with
    | here hi => exact ⟨p, by simp [find, hi], hp, fun _ _ => Iff.rfl⟩
  | succ k ih =>
    by_cases hi : p i = i
    · rw [h.of_root hi]
      exact ⟨p, by simp [find, hi], hp, fun _ _ => Iff.rfl⟩
    · cases h with
      | here hi' => exact absurd hi' hi
      | up hup =>
        have hgrand : RootIn (halve p i) k (halve p i i) r := by
          rw [show halve p i i = p (p i) by simp [halve]]
          refine RootIn.halve ?_ i
          cases hup with
          | here hroot => rw [hroot]; exact .here hroot
          | up hup => exact hup.mono (Nat.le_succ _)
        obtain ⟨p', hfind, hforest, hroots⟩ := ih (hp.halve i) hgrand
        refine ⟨p', ?_, hforest, fun j s => (hroots j s).trans (rootOf_halve hp i j s)⟩
        rw [find, if_neg hi]
        exact hfind

variable [Fintype α]

/-- `find` with as much fuel as there are elements returns the root of a forest's element. -/
theorem find_eq {p : α → α} (hp : IsForest p) {i r : α} (h : RootOf p i r) :
    ∃ p', find (Fintype.card α) p i = some (p', r) ∧ IsForest p' ∧
      ∀ j s, RootOf p' j s ↔ RootOf p j s := by
  have hcard : 0 < Fintype.card α := Fintype.card_pos_iff.2 ⟨i⟩
  have hfind := find_of_rootIn hp h.rootIn_card
  rwa [Nat.sub_add_cancel hcard] at hfind

/-! ## Union

Linking two roots joins their classes and no others. Since `find` keeps all roots, `union` of any
two elements is that, up to the shape of the forest. -/

omit [Fintype α] in
/-- Putting the root `a` below the root `b` sends the elements of `a`'s tree to `b` and no others
    anywhere else. -/
theorem RootOf.link {p : α → α} {a b : α} (ha : p a = a) (hb : p b = b) {j r : α}
    (h : RootOf p j r) :
    RootOf (Function.update p a b) j (if r = a then b else r) := by
  have hroot_b : RootOf (Function.update p a b) b b := .self (by
    by_cases hba : b = a
    · subst hba; simp
    · rw [Function.update_of_ne hba]; exact hb)
  have hroot_a : RootOf (Function.update p a b) a b := .up (by simpa using hroot_b)
  obtain ⟨k, hk⟩ := h
  induction hk with
  | @here k j hj =>
    by_cases hja : j = a
    · subst hja; simpa using hroot_a
    · rw [if_neg hja]
      exact .self (by rwa [Function.update_of_ne hja])
  | @up k j r hup ih =>
    by_cases hja : j = a
    · rw [hja, ha] at ih
      rwa [hja]
    · refine .up ?_
      rwa [Function.update_of_ne hja]

/-- `union x y`: find the root of `y`, then that of `x`, and link the second below the first. -/
def union (fuel : ℕ) (p : α → α) (x y : α) : Option (α → α) := do
  let (p, b) ← find fuel p y
  let (p, a) ← find fuel p x
  some (Function.update p a b)

/-- `union x y` succeeds, and puts two elements in one tree exactly when they are related by the
    equivalence that the old trees and the pair `(x, y)` generate. -/
theorem union_eq {p : α → α} (hp : IsForest p) (x y : α) :
    ∃ p', union (Fintype.card α) p x y = some p' ∧ IsForest p' ∧
      ∀ i j, SameRoot p' i j ↔ Relation.EqvGen (fun u v => SameRoot p u v ∨ u = x ∧ v = y) i j := by
  obtain ⟨b, hb⟩ := hp y
  obtain ⟨p₁, hfind₁, hp₁, hroots₁⟩ := find_eq hp hb
  obtain ⟨a, ha⟩ := hp₁ x
  obtain ⟨p₂, hfind₂, hp₂, hroots₂⟩ := find_eq hp₁ ha
  have hroots : ∀ j s, RootOf p₂ j s ↔ RootOf p j s := fun j s =>
    (hroots₂ j s).trans (hroots₁ j s)
  have haa : p₂ a = a := ((hroots₂ x a).2 ha).isRoot
  have hbb : p₂ b = b := ((hroots y b).2 hb).isRoot
  have hxa : RootOf p x a := (hroots₁ x a).1 ha
  have hlink : ∀ j r, RootOf p j r → RootOf (Function.update p₂ a b) j (if r = a then b else r) :=
    fun j r hr => RootOf.link haa hbb ((hroots j r).2 hr)
  refine ⟨Function.update p₂ a b, ?_, fun j => ?_, fun i j => ⟨?_, ?_⟩⟩
  · simp [union, hfind₁, hfind₂]
  · obtain ⟨r, hr⟩ := hp j
    exact ⟨_, hlink j r hr⟩
  · rintro ⟨s, hsi, hsj⟩
    obtain ⟨ri, hri⟩ := hp i
    obtain ⟨rj, hrj⟩ := hp j
    have hi := hsi.unique (hlink i ri hri)
    have hj := hsj.unique (hlink j rj hrj)
    have hjoin : ∀ {u r}, RootOf p u r → Relation.EqvGen (fun u v => SameRoot p u v ∨ u = x ∧ v = y)
        u (if r = a then y else u) := by
      intro u r hr
      split_ifs with hra
      · subst hra
        exact .trans _ x _ (.rel _ _ (Or.inl ⟨_, hr, hxa⟩)) (.rel _ _ (Or.inr ⟨rfl, rfl⟩))
      · exact .refl _
    -- move each of the two from `a`'s tree to `y`; there the old roots agree
    refine .trans _ _ _ (hjoin hri) (.trans _ _ _ (.rel _ _ (Or.inl ?_)) (.symm _ _ (hjoin hrj)))
    have hmoved : ∀ {u r}, RootOf p u r → RootOf p (if r = a then y else u)
        (if r = a then b else r) := by
      intro u r hr
      split_ifs
      · exact hb
      · exact hr
    refine ⟨s, ?_, ?_⟩
    · rw [hi]; exact hmoved hri
    · rw [hj]; exact hmoved hrj
  · have hforest : IsForest (Function.update p₂ a b) := fun j =>
      let ⟨r, hr⟩ := hp j; ⟨_, hlink j r hr⟩
    refine eqvGen_le hforest.sameRoot_equivalence ?_
    rintro u v (⟨r, hu, hv⟩ | ⟨rfl, rfl⟩)
    · exact ⟨_, hlink u r hu, hlink v r hv⟩
    · refine ⟨b, by simpa using hlink u a hxa, ?_⟩
      have hy := hlink v b hb
      simpa using hy

end UnionFind
