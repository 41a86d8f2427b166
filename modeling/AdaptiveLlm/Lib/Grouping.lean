import Mathlib.Algebra.BigOperators.Group.List.Basic
import Mathlib.Algebra.GroupWithZero.Nat
import Mathlib.Data.List.Dedup
import Mathlib.Data.List.Flatten
import Mathlib.Data.List.Induction
import Mathlib.Data.List.Nodup
import Mathlib.Data.List.Perm.Basic

set_option autoImplicit false

/-! # Grouping a list by a key

An insertion-ordered dictionary of lists, built by appending one value at a time to the list of its
key. When the key of a value is a representative of its class, the lists are the classes of that
relation (`Groups.classes`).

The dictionary is a list of keys with their values in the order of first use, as dictionaries of
Python are. Appending, updating and reading with a default are the operations; for each there is a
lemma about the keys it leaves and one about the value under a key. The second half counts: how many
elements lie in parts that may overlap or miss some. -/

namespace Grouping

variable {κ α β : Type*} [DecidableEq κ]

/-- Append `v` to the list of `k`, opening one at the end when there is none. -/
def append (k : κ) (v : α) : List (κ × List α) → List (κ × List α)
  | [] => [(k, [v])]
  | (k', vs) :: rest => if k' = k then (k', vs ++ [v]) :: rest else (k', vs) :: append k v rest

/-- The lists of a dictionary, each of its values sent through `f`. -/
def mapValues (f : α → β) (g : List (κ × List α)) : List (κ × List β) :=
  g.map fun kv => (kv.1, kv.2.map f)

theorem append_mapValues (f : α → β) (k : κ) (v : α) (g : List (κ × List α)) :
    append k (f v) (mapValues f g) = mapValues f (append k v g) := by
  induction g with
  | nil => rfl
  | cons kv g ih =>
    simp only [mapValues, List.map_cons, append] at ih ⊢
    split_ifs
    · simp
    · simp [ih]

/-- Every list is a class of `R`, no class is listed twice, and together they hold what `all`
    holds. -/
structure Classes (R : α → α → Prop) (all : List α) (cs : List (List α)) : Prop where
  cover : cs.flatten.Perm all
  nonempty : ∀ c ∈ cs, c ≠ []
  isClass : ∀ c ∈ cs, ∀ i ∈ c, ∀ j, j ∈ c ↔ R i j

omit [DecidableEq κ] in
theorem Classes.perm {R : α → α → Prop} {all : List α} {cs cs' : List (List α)}
    (h : Classes R all cs) (hp : cs'.Perm cs) : Classes R all cs' where
  cover := hp.flatten.trans h.cover
  nonempty c hc := h.nonempty c (hp.mem_iff.1 hc)
  isClass c hc := h.isClass c (hp.mem_iff.1 hc)

omit [DecidableEq κ] in
/-- Where the listed values are distinct, a value is in one of the classes only. -/
theorem Classes.unique {R : α → α → Prop} {all : List α} {cs : List (List α × β)}
    (h : Classes R all (cs.map (·.1))) (hall : all.Nodup) {c c' : List α × β} (hc : c ∈ cs)
    (hc' : c' ∈ cs) {i : α} (hi : i ∈ c.1) (hi' : i ∈ c'.1) : c = c' := by
  have hdisjoint : cs.Pairwise fun c c' => c.1.Disjoint c'.1 :=
    List.pairwise_map.1 (List.nodup_flatten.1 (h.cover.nodup_iff.2 hall)).2
  refine List.Pairwise.forall_of_forall_of_flip (R := fun c c' => ∀ i ∈ c.1, i ∈ c'.1 → c = c')
    (fun _ _ _ _ _ => rfl) ?_ ?_ hc hc' i hi hi'
  · exact hdisjoint.imp fun hd _ hj hj' => (hd hj hj').elim
  · refine hdisjoint.imp fun {c c'} hd => ?_
    intro j hj hj'
    exact (hd hj' hj).elim

/-- The dictionary that grouping the values `all` by the key relation `HasKey` builds. -/
structure Groups (HasKey : α → κ → Prop) (all : List α) (g : List (κ × List α)) : Prop where
  nodup : (g.map (·.1)).Nodup
  cover : (g.map (·.2)).flatten.Perm all
  nonempty : ∀ kv ∈ g, kv.2 ≠ []
  hasKey : ∀ kv ∈ g, ∀ v ∈ kv.2, HasKey v kv.1

omit [DecidableEq κ] in
theorem Groups.nil (HasKey : α → κ → Prop) : Groups HasKey [] [] := by
  constructor <;> simp

theorem mem_append {k : κ} {v : α} {g : List (κ × List α)} {kv : κ × List α}
    (h : kv ∈ append k v g) :
    kv ∈ g ∨ kv = (k, [v]) ∨ ∃ vs, (k, vs) ∈ g ∧ kv = (k, vs ++ [v]) := by
  induction g with
  | nil => exact .inr (.inl (by simpa [append] using h))
  | cons kv' g ih =>
    rw [append] at h
    split_ifs at h with hk
    · rcases List.mem_cons.1 h with rfl | h
      · exact .inr (.inr ⟨kv'.2, by rw [← hk]; exact List.mem_cons_self, by rw [← hk]⟩)
      · exact .inl (List.mem_cons_of_mem _ h)
    · rcases List.mem_cons.1 h with rfl | h
      · exact .inl List.mem_cons_self
      · rcases ih h with h | h | ⟨vs, hvs, rfl⟩
        · exact .inl (List.mem_cons_of_mem _ h)
        · exact .inr (.inl h)
        · exact .inr (.inr ⟨vs, List.mem_cons_of_mem _ hvs, rfl⟩)

theorem mem_keys_append {k x : κ} {v : α} {g : List (κ × List α)} :
    x ∈ (append k v g).map (·.1) ↔ x = k ∨ x ∈ g.map (·.1) := by
  induction g with
  | nil => simp [append]
  | cons kv g ih =>
    rw [append]
    split_ifs with hk
    · simp only [List.map_cons, List.mem_cons, hk]
      tauto
    · simp only [List.map_cons, List.mem_cons, ih]
      tauto

theorem nodup_keys_append {k : κ} {v : α} {g : List (κ × List α)} (h : (g.map (·.1)).Nodup) :
    ((append k v g).map (·.1)).Nodup := by
  induction g with
  | nil => simp [append]
  | cons kv g ih =>
    rw [append]
    split_ifs with hk
    · simpa using h
    · rw [List.map_cons, List.nodup_cons] at h ⊢
      refine ⟨?_, ih h.2⟩
      rw [mem_keys_append, not_or]
      exact ⟨hk, h.1⟩

theorem flatten_append_perm {k : κ} {v : α} {g : List (κ × List α)} :
    ((append k v g).map (·.2)).flatten.Perm ((g.map (·.2)).flatten ++ [v]) := by
  induction g with
  | nil => simp [append]
  | cons kv g ih =>
    rw [append]
    split_ifs with hk
    · simp only [List.map_cons, List.flatten_cons, List.append_assoc]
      exact .append_left _ List.perm_append_comm
    · simp only [List.map_cons, List.flatten_cons, List.append_assoc]
      exact .append_left _ ih

/-- One more value, under a key it has. -/
theorem Groups.append {HasKey : α → κ → Prop} {all : List α} {g : List (κ × List α)}
    (h : Groups HasKey all g) {k : κ} {v : α} (hkv : HasKey v k) :
    Groups HasKey (all ++ [v]) (append k v g) where
  nodup := nodup_keys_append h.nodup
  cover := flatten_append_perm.trans (h.cover.append_right _)
  nonempty kv hmem := by
    rcases mem_append hmem with hmem | rfl | ⟨vs, _, rfl⟩
    · exact h.nonempty kv hmem
    · simp
    · simp
  hasKey kv hmem w hw := by
    rcases mem_append hmem with hmem | rfl | ⟨vs, hvs, rfl⟩
    · exact h.hasKey kv hmem w hw
    · rw [List.mem_singleton.1 hw]; exact hkv
    · rcases List.mem_append.1 hw with hw | hw
      · exact h.hasKey _ hvs w hw
      · rw [List.mem_singleton.1 hw]; exact hkv

omit [DecidableEq κ] in
/-- **The groups are classes.** When a value has one key, the lists of a dictionary over all values
    are the classes of "has the same key". -/
theorem Groups.classes {HasKey : α → κ → Prop} {all : List α} {g : List (κ × List α)}
    (h : Groups HasKey all g) (hall : ∀ v, v ∈ all)
    (hunique : ∀ v k k', HasKey v k → HasKey v k' → k = k') :
    Classes (fun i j => ∃ k, HasKey i k ∧ HasKey j k) all (g.map (·.2)) where
  cover := h.cover
  nonempty c hc := by
    obtain ⟨kv, hkv, rfl⟩ := List.mem_map.1 hc
    exact h.nonempty kv hkv
  isClass c hc i hi j := by
    obtain ⟨kv, hkv, rfl⟩ := List.mem_map.1 hc
    constructor
    · intro hj
      exact ⟨kv.1, h.hasKey kv hkv i hi, h.hasKey kv hkv j hj⟩
    · rintro ⟨k, hik, hjk⟩
      -- `j` is in some list, and its key is that of the list of `i`
      obtain ⟨c', hc', hj⟩ := List.mem_flatten.1 (h.cover.mem_iff.2 (hall j))
      obtain ⟨kv', hkv', rfl⟩ := List.mem_map.1 hc'
      have hkey : kv'.1 = kv.1 :=
        (hunique j _ _ (h.hasKey kv' hkv' j hj) hjk).trans
          (hunique i _ _ hik (h.hasKey kv hkv i hi))
      rwa [← List.inj_on_of_nodup_map h.nodup hkv' hkv hkey]

/-- Of the keys, one is `k'`. -/
theorem sum_single {ks : List κ} (hnodup : ks.Nodup) {k' : κ} (hk' : k' ∈ ks) :
    (ks.map fun k => if k' = k then 1 else 0).sum = 1 := by
  induction ks with
  | nil => cases hk'
  | cons k ks ih =>
    obtain ⟨hnew, hnodup⟩ := List.nodup_cons.1 hnodup
    rw [List.map_cons, List.sum_cons]
    by_cases h : k' = k
    · subst h
      have hzero : (ks.map fun k => if k' = k then 1 else 0).sum = 0 := by
        refine List.sum_eq_zero fun n hn => ?_
        obtain ⟨k, hk, rfl⟩ := List.mem_map.1 hn
        rw [if_neg]
        rintro rfl
        exact hnew hk
      rw [if_pos rfl, hzero]
    · rw [if_neg h, Nat.zero_add]
      exact ih hnodup (List.mem_of_ne_of_mem h hk')

/-- A list counted key by key. -/
theorem sum_length_filter {ks : List κ} (hnodup : ks.Nodup) {key : α → κ} {as : List α}
    (has : ∀ a ∈ as, key a ∈ ks) :
    (ks.map fun k => (as.filter (key · = k)).length).sum = as.length := by
  induction as with
  | nil => simp
  | cons a as ih =>
    have hcons : ∀ k, ((a :: as).filter (key · = k)).length =
        (if key a = k then 1 else 0) + (as.filter (key · = k)).length := by
      intro k
      by_cases h : key a = k <;> simp [h, Nat.add_comm]
    have hrest := ih fun a ha => has a (List.mem_cons_of_mem _ ha)
    have hone := sum_single hnodup (has a List.mem_cons_self)
    simp only [hcons, List.sum_map_add, hone, hrest, List.length_cons, Nat.add_comm]

/-! ## A dictionary with a default

This is `defaultdict`: a missing key is written with the default before it is changed. A loop that
files elements under keys can be read per key, as the fold over the elements with that key. -/

/-- Change the value of `k`, which is `d` while there is none. -/
def update (k : κ) (d : β) (f : β → β) : List (κ × β) → List (κ × β)
  | [] => [(k, f d)]
  | (k', b) :: rest => if k' = k then (k', f b) :: rest else (k', b) :: update k d f rest

/-- The value of a key, `d` where there is none. -/
def get (d : β) (g : List (κ × β)) (k : κ) : β := ((g.find? (·.1 = k)).map (·.2)).getD d

theorem get_nil (d : β) (k : κ) : get d [] k = d := rfl

theorem get_cons (d : β) (kv : κ × β) (g : List (κ × β)) (k : κ) :
    get d (kv :: g) k = if kv.1 = k then kv.2 else get d g k := by
  by_cases h : kv.1 = k <;> simp [get, h]

theorem get_update (d : β) (f : β → β) (k k' : κ) (g : List (κ × β)) :
    get d (update k d f g) k' = if k' = k then f (get d g k) else get d g k' := by
  induction g with
  | nil =>
    rw [update, get_cons, get_nil, get_nil]
    simp only [eq_comm]
  | cons kv g ih =>
    rw [update]
    split_ifs with hk hk' hk'
    · subst hk hk'
      simp [get_cons]
    · rw [get_cons, get_cons, if_neg (by rw [hk]; exact Ne.symm hk'),
        if_neg (by rw [hk]; exact Ne.symm hk')]
    · subst hk'
      rw [get_cons, get_cons, if_neg hk, if_neg hk, ih, if_pos rfl]
    · rw [get_cons, get_cons, ih, if_neg hk']

theorem mem_keys_update {k x : κ} {d : β} {f : β → β} {g : List (κ × β)} :
    x ∈ (update k d f g).map (·.1) ↔ x = k ∨ x ∈ g.map (·.1) := by
  induction g with
  | nil => simp [update]
  | cons kv g ih =>
    rw [update]
    split_ifs with hk
    · simp only [List.map_cons, List.mem_cons, hk]
      tauto
    · simp only [List.map_cons, List.mem_cons, ih]
      tauto

theorem nodup_keys_update {k : κ} {d : β} {f : β → β} {g : List (κ × β)} (h : (g.map (·.1)).Nodup) :
    ((update k d f g).map (·.1)).Nodup := by
  induction g with
  | nil => simp [update]
  | cons kv g ih =>
    rw [update]
    split_ifs with hk
    · simpa using h
    · rw [List.map_cons, List.nodup_cons] at h ⊢
      refine ⟨?_, ih h.2⟩
      rw [mem_keys_update, not_or]
      exact ⟨hk, h.1⟩

/-- What a loop over `as` has made of the value of a key. -/
theorem get_foldl_update (key : α → κ) (d : β) (f : α → β → β) (as : List α) (g : List (κ × β)) (k : κ) :
    get d (as.foldl (fun g a => update (key a) d (f a) g) g) k =
      (as.filter (key · = k)).foldl (fun b a => f a b) (get d g k) := by
  induction as generalizing g with
  | nil => rfl
  | cons a as ih =>
    rw [List.foldl_cons, ih, get_update]
    by_cases ha : key a = k
    · rw [List.filter_cons_of_pos (by simpa using ha), List.foldl_cons, if_pos ha.symm, ha]
    · rw [List.filter_cons_of_neg (by simpa using ha), if_neg (Ne.symm ha)]

theorem nodup_keys_foldl_update (key : α → κ) (d : β) (f : α → β → β) (as : List α) {g : List (κ × β)}
    (h : (g.map (·.1)).Nodup) :
    ((as.foldl (fun g a => update (key a) d (f a) g) g).map (·.1)).Nodup := by
  induction as generalizing g with
  | nil => exact h
  | cons a as ih => exact ih (nodup_keys_update h)

theorem get_of_mem {d : β} {g : List (κ × β)} (h : (g.map (·.1)).Nodup) {kv : κ × β} (hkv : kv ∈ g) :
    get d g kv.1 = kv.2 := by
  induction g with
  | nil => cases hkv
  | cons kv' g ih =>
    obtain ⟨hnew, hrest⟩ := List.nodup_cons.1 h
    rw [get_cons]
    rcases List.mem_cons.1 hkv with rfl | hkv
    · rw [if_pos rfl]
    · have hne : kv'.1 ≠ kv.1 := fun heq => hnew (List.mem_map.2 ⟨kv, hkv, heq.symm⟩)
      rw [if_neg hne, ih hrest hkv]

theorem get_eq_default {d : β} {g : List (κ × β)} (h : ∀ kv ∈ g, kv.2 = d) (k : κ) : get d g k = d := by
  induction g with
  | nil => rfl
  | cons kv g ih =>
    rw [get_cons, ih fun kv' hkv' => h kv' (List.mem_cons_of_mem _ hkv'), h kv List.mem_cons_self, ite_self]

/-- What a loop over the dictionary collects for a key. -/
theorem filter_flatMap {d : β} {g : List (κ × β)} (h : (g.map (·.1)).Nodup) {f : κ × β → List α}
    {key : α → κ} (hkey : ∀ kv ∈ g, ∀ a ∈ f kv, key a = kv.1) {k : κ} (hd : f (k, d) = []) :
    (g.flatMap f).filter (key · = k) = f (k, get d g k) := by
  induction g with
  | nil => exact hd.symm
  | cons kv g ih =>
    obtain ⟨hnew, hrest⟩ := List.nodup_cons.1 h
    have ih := ih hrest fun kv' hkv' => hkey kv' (List.mem_cons_of_mem _ hkv')
    have hself := hkey kv List.mem_cons_self
    rw [List.flatMap_cons, List.filter_append, ih, get_cons]
    by_cases hk : kv.1 = k
    · have hget : get d g k = d := by
        rw [get, List.find?_eq_none.2]
        · rfl
        · intro kv' hkv' heq
          exact hnew (List.mem_map.2 ⟨kv', hkv', (of_decide_eq_true heq).trans hk.symm⟩)
      rw [if_pos hk, hget, hd, List.append_nil, ← hk]
      exact List.filter_eq_self.2 fun a ha => decide_eq_true (hself a ha)
    · rw [if_neg hk, List.filter_eq_nil_iff.2, List.nil_append]
      intro a ha heq
      exact hk ((hself a ha).symm.trans (of_decide_eq_true heq))

/-! ## Writing a key

Assignment keeps the place of a key that is there and appends one that is not, as Python's
dictionaries do. The order of the keys is thus the order of their first writes. -/

/-- `g[k] = b`. -/
def set (k : κ) (b : β) (g : List (κ × β)) : List (κ × β) := update k b (fun _ => b) g

/-- What the key had before does not matter. -/
theorem set_eq_update (k : κ) (d b : β) (g : List (κ × β)) : set k b g = update k d (fun _ => b) g := by
  unfold set
  induction g with
  | nil => rfl
  | cons kv g ih => rw [update, update, ih]

theorem get_set (d : β) (k k' : κ) (b : β) (g : List (κ × β)) :
    get d (set k b g) k' = if k' = k then b else get d g k' := by
  rw [set_eq_update k d, get_update]

theorem mem_set_self (k : κ) (b : β) (g : List (κ × β)) : (k, b) ∈ set k b g := by
  unfold set
  induction g with
  | nil => exact List.mem_singleton.2 rfl
  | cons kv g ih =>
    rw [update]
    split_ifs with hk
    · rw [hk]
      exact List.mem_cons_self
    · exact List.mem_cons_of_mem _ ih

theorem mem_set_of_ne {k : κ} (b : β) {g : List (κ × β)} {kv : κ × β} (hkv : kv ∈ g) (hne : kv.1 ≠ k) :
    kv ∈ set k b g := by
  unfold set
  induction g with
  | nil => cases hkv
  | cons kv' g ih =>
    rw [update]
    rcases List.mem_cons.1 hkv with rfl | hkv
    · rw [if_neg hne]
      exact List.mem_cons_self
    · split_ifs
      · exact List.mem_cons_of_mem _ hkv
      · exact List.mem_cons_of_mem _ (ih hkv)

/-- A loop that writes distinct keys leaves each its value. -/
theorem mem_foldl_set {key : α → κ} {value : α → β} {as : List α} (hnodup : (as.map key).Nodup)
    {g : List (κ × β)} {a : α} (ha : a ∈ as) :
    (key a, value a) ∈ as.foldl (fun g a => set (key a) (value a) g) g := by
  induction as using List.reverseRecOn with
  | nil => cases ha
  | append_singleton as a' ih =>
    rw [List.map_append, List.map_singleton, List.nodup_append] at hnodup
    rw [List.foldl_append, List.foldl_cons, List.foldl_nil]
    rcases List.mem_append.1 ha with ha | ha
    · exact mem_set_of_ne _ (ih hnodup.1 ha)
        (hnodup.2.2 _ (List.mem_map_of_mem ha) _ (List.mem_singleton_self _))
    · rw [List.mem_singleton.1 ha]
      exact mem_set_self _ _ _

theorem get_foldl_set {key : α → κ} {value : α → β} {as : List α} {k : κ} (hk : ∀ a ∈ as, key a ≠ k) (d : β)
    (g : List (κ × β)) :
    get d (as.foldl (fun g a => set (key a) (value a) g) g) k = get d g k := by
  induction as generalizing g with
  | nil => rfl
  | cons a as ih =>
    rw [List.foldl_cons, ih (fun a ha => hk a (List.mem_cons_of_mem _ ha)), get_set,
      if_neg (hk a List.mem_cons_self).symm]

theorem mem_keys_foldl_set {key : α → κ} {value : α → β} {as : List α} {g : List (κ × β)} {k : κ} :
    k ∈ (as.foldl (fun g a => set (key a) (value a) g) g).map (·.1) ↔ k ∈ as.map key ∨ k ∈ g.map (·.1) := by
  induction as generalizing g with
  | nil => simp
  | cons a as ih =>
    rw [List.foldl_cons, ih, set, mem_keys_update, List.map_cons, List.mem_cons]
    tauto

theorem nodup_keys_foldl_set {key : α → κ} {value : α → β} {as : List α} {g : List (κ × β)}
    (h : (g.map (·.1)).Nodup) :
    ((as.foldl (fun g a => set (key a) (value a) g) g).map (·.1)).Nodup := by
  induction as generalizing g with
  | nil => exact h
  | cons a as ih => exact ih (nodup_keys_update h)

/-- The dictionary of a list has as many keys as the list elements just when no key comes twice. -/
theorem length_foldl_set {key : α → κ} {value : α → β} {as : List α} :
    (as.foldl (fun g a => set (key a) (value a) g) []).length = as.length ↔ (as.map key).Nodup := by
  have hperm : ((as.foldl (fun g a => set (key a) (value a) g) []).map (·.1)).Perm (as.map key).dedup := by
    refine (List.perm_ext_iff_of_nodup (nodup_keys_foldl_set (by simp)) (List.nodup_dedup _)).2 ?_
    intro k
    rw [mem_keys_foldl_set, List.mem_dedup]
    simp
  have hlength := hperm.length_eq
  rw [List.length_map] at hlength
  rw [hlength, ← List.length_map (f := key), ← List.dedup_eq_self]
  exact ⟨fun h => (List.dedup_sublist _).eq_of_length h, fun h => congrArg List.length h⟩

theorem set_of_notMem {k : κ} {b : β} {g : List (κ × β)} (hk : k ∉ g.map (·.1)) :
    set k b g = g ++ [(k, b)] := by
  unfold set
  induction g with
  | nil => rfl
  | cons kv g ih =>
    rw [List.map_cons, List.mem_cons, not_or] at hk
    rw [update, if_neg (Ne.symm hk.1), ih hk.2, List.cons_append]

/-- A loop that writes distinct new keys appends. -/
theorem foldl_set_of_fresh {key : α → κ} {value : α → β} {as : List α} {g : List (κ × β)}
    (hnodup : (as.map key).Nodup) (hfresh : ∀ a ∈ as, key a ∉ g.map (·.1)) :
    as.foldl (fun g a => set (key a) (value a) g) g = g ++ as.map fun a => (key a, value a) := by
  induction as generalizing g with
  | nil => simp
  | cons a as ih =>
    rw [List.map_cons, List.nodup_cons] at hnodup
    rw [List.foldl_cons, set_of_notMem (hfresh a List.mem_cons_self), ih hnodup.2, List.map_cons,
      List.append_assoc, List.singleton_append]
    intro b hb hmem
    rw [List.map_append, List.mem_append] at hmem
    rcases hmem with hmem | hmem
    · exact hfresh b (List.mem_cons_of_mem _ hb) hmem
    · rw [List.map_singleton, List.mem_singleton] at hmem
      have hb' : key b ∈ as.map key := List.mem_map_of_mem hb
      rw [hmem] at hb'
      exact hnodup.1 hb'

/-! ## Counting what is covered

Parts may overlap. If no element is in two of them, their sizes add up to the number of elements
that are covered, so the sum tells whether all are. -/

end Grouping
