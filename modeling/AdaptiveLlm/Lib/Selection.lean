import Mathlib.Algebra.BigOperators.Group.List.Basic
import Mathlib.Data.List.GetD
import Mathlib.Data.List.Range

set_option autoImplicit false

/-! # Index selection

Positions that are retained of a range, blocks of consecutive positions, and sums over what is retained.

`retain n removed` are the positions below `n` that are not removed, in order. Blocks are the
positions of a head or of a group within a flat dimension; to retain blocks is to retain all the
positions in them. The sum rule is the bridge to semantics: leaving an index out of a sum is the
same as having zero there. -/

namespace Selection

/-! ## What is retained -/

/-- The positions below `n` that are not removed. -/
def retain (n : ℕ) (removed : List ℕ) : List ℕ := (List.range n).filter (· ∉ removed)

theorem mem_retain {n i : ℕ} {removed : List ℕ} : i ∈ retain n removed ↔ i < n ∧ i ∉ removed := by
  simp [retain]

/-- Where distinct positions of the range are removed, the others are retained. -/
theorem length_retain {n : ℕ} {removed : List ℕ} (hnodup : removed.Nodup) (hlt : ∀ i ∈ removed, i < n) :
    (retain n removed).length = n - removed.length := by
  have hperm : ((List.range n).filter (· ∈ removed)).Perm removed := by
    refine (List.perm_ext_iff_of_nodup (List.nodup_range.filter _) hnodup).2 fun i => ?_
    simp only [List.mem_filter, List.mem_range, decide_eq_true_eq, and_iff_right_iff_imp]
    exact hlt i
  have htotal := List.length_eq_length_filter_add (l := List.range n) fun i => decide (i ∈ removed)
  have hretain : retain n removed = (List.range n).filter fun i => !decide (i ∈ removed) := by
    simp [retain]
  rw [hretain]
  rw [List.length_range, hperm.length_eq] at htotal
  omega

/-- A list is its positions read. -/
theorem map_getD_range (is : List ℕ) : (List.range is.length).map (is.getD · 0) = is := by
  refine List.ext_getElem (by simp) fun j hj hj' => ?_
  rw [List.getElem_map, List.getElem_range, List.getD_eq_getElem _ _ hj']

/-- **A sum over what is retained** is the sum over all with zero for what is removed. -/
theorem sum_retain {M : Type*} [AddCommMonoid M] (n : ℕ) (removed : List ℕ) (f : ℕ → M) :
    ((List.range (retain n removed).length).map fun j => f ((retain n removed).getD j 0)).sum =
      ((List.range n).map fun i => if i ∈ removed then 0 else f i).sum := by
  have hread : ((List.range (retain n removed).length).map fun j => f ((retain n removed).getD j 0)) =
      (retain n removed).map f := by
    conv_rhs => rw [← map_getD_range (retain n removed), List.map_map]
    rfl
  have hfilter : ∀ is : List ℕ, ((is.filter (· ∉ removed)).map f).sum =
      (is.map fun i => if i ∈ removed then 0 else f i).sum := by
    intro is
    induction is with
    | nil => rfl
    | cons i is ih =>
      rw [List.filter_cons, List.map_cons, List.sum_cons]
      by_cases h : i ∈ removed
      · rw [if_neg (by simpa using h), if_pos h, zero_add, ih]
      · rw [if_pos (by simpa using h), if_neg h, List.map_cons, List.sum_cons, ih]
  rw [hread]
  exact hfilter _

/-! ## Blocks -/

/-- The positions of the blocks of `d`. -/
def blocks (d : ℕ) (bs : List ℕ) : List ℕ := bs.flatMap fun b => (List.range d).map (b * d + ·)

theorem length_blocks (d : ℕ) (bs : List ℕ) : (blocks d bs).length = bs.length * d := by
  induction bs with
  | nil => simp [blocks]
  | cons b bs ih =>
    rw [blocks, List.flatMap_cons, List.length_append, ← blocks, ih]
    simp [Nat.succ_mul, Nat.add_comm]

theorem lt_of_mem_blocks {d n : ℕ} {bs : List ℕ} (hbs : ∀ b ∈ bs, b < n) {i : ℕ} (hi : i ∈ blocks d bs) :
    i < n * d := by
  obtain ⟨b, hb, hi⟩ := List.mem_flatMap.1 hi
  obtain ⟨e, he, rfl⟩ := List.mem_map.1 hi
  calc b * d + e < b * d + d := Nat.add_lt_add_left (List.mem_range.1 he) _
    _ = (b + 1) * d := (Nat.succ_mul b d).symm
    _ ≤ n * d := Nat.mul_le_mul_right d (hbs b hb)

theorem getD_blocks {d : ℕ} {bs : List ℕ} {j e : ℕ} (hj : j < bs.length) (he : e < d) :
    (blocks d bs).getD (j * d + e) 0 = bs.getD j 0 * d + e := by
  induction bs generalizing j with
  | nil => simp at hj
  | cons b bs ih =>
    have hblock : ((List.range d).map (b * d + ·)).length = d := by simp
    rw [blocks, List.flatMap_cons, ← blocks]
    cases j with
    | zero =>
      rw [List.getD_append _ _ _ _ (by simpa using he), List.getD_eq_getElem _ _ (by simpa using he)]
      simp
    | succ j =>
      have hshift : (j + 1) * d + e - d = j * d + e := by
        rw [Nat.succ_mul]
        omega
      rw [List.getD_append_right _ _ _ _ (by rw [hblock, Nat.succ_mul]; omega), hblock, hshift,
        ih (by simpa using hj)]
      rfl

end Selection
