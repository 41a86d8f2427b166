import Mathlib.Data.Finset.Sort
import Mathlib.Data.Finset.Union

set_option autoImplicit false

/-! # Inverted index

For every key the positions of the items that have it. A scan for an item with some property needs to
look at the candidates alone, when an item has the property only if it shares a key with the query:
`anyAt_candidates`.

`Indexes` is the invariant of an index over the items so far: under each key stand the positions of
exactly the items with it. Adding an item keeps it. The scan rule then needs no more than that the
property of a match implies a shared key. -/

namespace InvertedIndex

variable {κ α β : Type*}

/-! ## Reading items by position -/

/-- Whether one of the items at the positions passes; it stops at the first that does, and fails on a
    position with no item before it. -/
def anyAt (items : List α) (test : α → Bool) (positions : List ℕ) : Option Bool :=
  positions.anyM fun i => (items[i]?).map test

/-- A scan by position fails on no position that has an item. -/
theorem anyAt_eq (items : List α) (test : α → Bool) {positions : List ℕ}
    (h : ∀ i ∈ positions, i < items.length) :
    anyAt items test positions = some (positions.any fun i => (items[i]?).any test) := by
  induction positions with
  | nil => rfl
  | cons i positions ih =>
    obtain ⟨item, hitem⟩ : ∃ item, items[i]? = some item :=
      ⟨_, List.getElem?_eq_getElem (h i List.mem_cons_self)⟩
    have hrest := ih fun j hj => h j (List.mem_cons_of_mem _ hj)
    unfold anyAt at hrest ⊢
    simp only [List.anyM, hitem, Option.map_some, Option.bind_eq_bind, Option.bind_some]
    cases htest : test item with
    | true => simp [hitem, htest]
    | false => simp [hitem, htest, hrest]

/-! ## The index -/

variable [DecidableEq κ]

/-- The index lists the positions of every key, and no others. -/
def Indexes (postings : κ → Finset ℕ) (items : List (Finset κ)) : Prop :=
  ∀ k i, i ∈ postings k ↔ ∃ item, items[i]? = some item ∧ k ∈ item

/-- A position under every key of its item. -/
def add (postings : κ → Finset ℕ) (position : ℕ) (item : Finset κ) : κ → Finset ℕ :=
  fun k => if k ∈ item then insert position (postings k) else postings k

/-- The positions listed under the keys of a query. -/
def candidates (postings : κ → Finset ℕ) (query : Finset κ) : Finset ℕ := query.biUnion postings

variable {postings : κ → Finset ℕ} {items : List (Finset κ)} {item query : Finset κ}

omit [DecidableEq κ] in
theorem Indexes.empty : Indexes (fun _ : κ => (∅ : Finset ℕ)) [] := by
  intro k i
  simp

/-- An item at the end, under its keys. -/
theorem Indexes.add (h : Indexes postings items) :
    Indexes (add postings items.length item) (items ++ [item]) := by
  intro k i
  have hold : i ∈ postings k → i < items.length := fun hi => by
    obtain ⟨old, hold, -⟩ := (h k i).1 hi
    exact (List.getElem?_eq_some_iff.1 hold).1
  obtain hlt | rfl | hgt := lt_trichotomy i items.length
  · rw [List.getElem?_append_left hlt, ← h k i, InvertedIndex.add]
    split
    · simp [hlt.ne]
    · rfl
  · simp only [List.getElem?_concat_length, Option.some.injEq, InvertedIndex.add]
    split
    · rename_i hk
      simp [hk]
    · rename_i hk
      simpa [hk] using fun hi => absurd (hold hi) (lt_irrefl _)
  · have hnone : (items ++ [item])[i]? = none := by simp; omega
    simp only [hnone, InvertedIndex.add]
    split
    · simpa [hgt.ne'] using fun hi => absurd (hold hi) hgt.not_gt
    · simpa using fun hi => absurd (hold hi) hgt.not_gt

/-- The candidates are the positions of the items that share a key with the query. -/
theorem Indexes.mem_candidates (h : Indexes postings items) {i : ℕ} :
    i ∈ candidates postings query ↔ ∃ item, items[i]? = some item ∧ (query ∩ item).Nonempty := by
  simp only [candidates, Finset.mem_biUnion, h _ _]
  constructor
  · rintro ⟨k, hk, item, hitem, hk'⟩
    exact ⟨item, hitem, k, Finset.mem_inter.2 ⟨hk, hk'⟩⟩
  · rintro ⟨item, hitem, k, hk⟩
    obtain ⟨hk, hk'⟩ := Finset.mem_inter.1 hk
    exact ⟨k, hk, item, hitem, hk'⟩

/-- **Scan rule.** Where an item passes only if it shares a key with the query, a scan of the
    candidates finds one exactly when a scan of all the items does. -/
theorem Indexes.anyAt_candidates (h : Indexes postings items) {test : Finset κ → Bool}
    (htest : ∀ item ∈ items, test item = true → (query ∩ item).Nonempty) :
    anyAt items test ((candidates postings query).sort (· ≤ ·)) = some (items.any test) := by
  have hmem : ∀ i ∈ (candidates postings query).sort (· ≤ ·),
      ∃ item, items[i]? = some item ∧ (query ∩ item).Nonempty :=
    fun i hi => h.mem_candidates.1 ((Finset.mem_sort _).1 hi)
  rw [anyAt_eq items test fun i hi => (List.getElem?_eq_some_iff.1 (hmem i hi).choose_spec.1).1]
  congr 1
  rw [Bool.eq_iff_iff, List.any_eq_true, List.any_eq_true]
  constructor
  · rintro ⟨i, hi, hpass⟩
    obtain ⟨item, hitem, -⟩ := hmem i hi
    rw [hitem] at hpass
    exact ⟨item, List.mem_of_getElem? hitem, hpass⟩
  · rintro ⟨item, hitem, hpass⟩
    obtain ⟨i, hi⟩ := List.mem_iff_getElem?.1 hitem
    refine ⟨i, (Finset.mem_sort _).2 (h.mem_candidates.2 ⟨item, hi, htest item hitem hpass⟩), ?_⟩
    rw [hi]
    exact hpass

end InvertedIndex
