import AdaptiveLlm.Datasets.Curation

set_option autoImplicit false

/-! # No leakage between the splits

The union-find loop of `splitExamples` keeps one fact about the keys it has visited (`Joined`): two
positions have one root exactly when a chain of shared keys links them. Grouping by root then gives
the classes of that relation, and the last loop places each class whole.

The proof goes along the loops of the source. The first keeps, with every key, the root of the last
example that had it, and joins; its invariant is about the positions visited so far, and the
induction is on them. The second collects the positions under their roots, where the library's
`Groups.classes` says what the lists are. The third only moves whole lists. No step of the argument
looks at more than one loop. -/

namespace AdaptiveLlm

open Relation (EqvGen)
open UnionFind (SameRoot RootOf IsForest)

/-- The examples share a family, or both have a subject and it is the same. -/
def BuiltExample.Shares (e e' : BuiltExample) : Prop :=
  (∃ f, f ∈ e.families ∧ f ∈ e'.families) ∨ ∃ s, e.subject = some s ∧ e'.subject = some s

theorem BuiltExample.mem_keys {e : BuiltExample} {k : GroupKey} :
    k ∈ e.keys ↔ (∃ f ∈ e.families, k = .family f) ∨ ∃ s, e.subject = some s ∧ k = .subject s := by
  cases h : e.subject with
  | none => simp [keys, h, eq_comm]
  | some s => simp [keys, h, eq_comm]

theorem BuiltExample.shares_iff {e e' : BuiltExample} :
    e.Shares e' ↔ ∃ k, k ∈ e.keys ∧ k ∈ e'.keys := by
  simp only [Shares, mem_keys]
  constructor
  · rintro (⟨f, hf, hf'⟩ | ⟨s, hs, hs'⟩)
    · exact ⟨.family f, .inl ⟨f, hf, rfl⟩, .inl ⟨f, hf', rfl⟩⟩
    · exact ⟨.subject s, .inr ⟨s, hs, rfl⟩, .inr ⟨s, hs', rfl⟩⟩
  · rintro ⟨k, ⟨f, hf, rfl⟩ | ⟨s, hs, rfl⟩, ⟨f', hf', hk⟩ | ⟨s', hs', hk⟩⟩
    · cases hk; exact .inl ⟨f, hf, hf'⟩
    · cases hk
    · cases hk
    · cases hk; exact .inr ⟨s, hs, hs'⟩

/-! ## The union-find loop

Two positions are linked when a chain of examples, each sharing a key with the next, leads from one
to the other. The loop meets the keys of a position one after the other and joins it with the last
one that had the key. -/

section Join

variable {n : ℕ}

/-- Both positions were visited with one key. -/
def ShareIn (visited : List (Fin n × GroupKey)) (i j : Fin n) : Prop :=
  ∃ k, (i, k) ∈ visited ∧ (j, k) ∈ visited

/-- What the loop keeps of the positions and keys it has visited. `seen` holds only one of the
    positions that had a key, which is enough to join the others through it. -/
structure Joined (visited : List (Fin n × GroupKey)) (st : JoinState n) : Prop where
  forest : IsForest st.parents
  sameRoot : ∀ i j, SameRoot st.parents i j ↔ EqvGen (ShareIn visited) i j
  seen_some : ∀ k i, st.seen k = some i → (i, k) ∈ visited
  seen_none : ∀ k, st.seen k = none → ∀ i, (i, k) ∉ visited

theorem Joined.init : Joined (n := n) [] {} where
  forest := UnionFind.isForest_id
  sameRoot i j := by
    constructor
    · rintro ⟨r, hi, hj⟩
      rw [← hi.unique (.self rfl), ← hj.unique (.self rfl)]
      exact .refl _
    · refine UnionFind.eqvGen_le UnionFind.isForest_id.sameRoot_equivalence ?_
      rintro u v ⟨_, h, _⟩
      exact absurd h List.not_mem_nil
  seen_some := by simp
  seen_none := by simp

theorem ShareIn.mono {visited : List (Fin n × GroupKey)} {x : Fin n × GroupKey} {i j : Fin n}
    (h : ShareIn visited i j) : ShareIn (visited ++ [x]) i j :=
  let ⟨k, hi, hj⟩ := h; ⟨k, List.mem_append_left _ hi, List.mem_append_left _ hj⟩

/-- Sharing a key after one more visit: before it, or by the key just visited. -/
theorem shareIn_concat {visited : List (Fin n × GroupKey)} {x i j : Fin n} {key : GroupKey}
    (h : ShareIn (visited ++ [(x, key)]) i j) :
    ShareIn visited i j ∨ i = j ∨ (i = x ∧ (j, key) ∈ visited) ∨ (j = x ∧ (i, key) ∈ visited) := by
  obtain ⟨k, hi, hj⟩ := h
  simp only [List.mem_append, List.mem_singleton, Prod.mk.injEq] at hi hj
  rcases hi with hi | ⟨rfl, rfl⟩
  · rcases hj with hj | ⟨rfl, rfl⟩
    · exact .inl ⟨k, hi, hj⟩
    · exact .inr (.inr (.inr ⟨rfl, hi⟩))
  · rcases hj with hj | ⟨rfl, _⟩
    · exact .inr (.inr (.inl ⟨rfl, hj⟩))
    · exact .inr (.inl rfl)

/-- One key of one example. -/
theorem Joined.visit {visited : List (Fin n × GroupKey)} {st : JoinState n} (h : Joined visited st)
    (x : Fin n) (key : GroupKey) :
    ∃ st', st.visit x key = some st' ∧ Joined (visited ++ [(x, key)]) st' := by
  have hseen : ∀ k i, Function.update st.seen key (some x) k = some i →
      (i, k) ∈ visited ++ [(x, key)] := by
    intro k i hi
    by_cases hk : k = key
    · subst hk
      rw [Function.update_self, Option.some.injEq] at hi
      simp [hi]
    · rw [Function.update_of_ne hk] at hi
      exact List.mem_append_left _ (h.seen_some k i hi)
  have hunseen : ∀ k, Function.update st.seen key (some x) k = none →
      ∀ i, (i, k) ∉ visited ++ [(x, key)] := by
    intro k hk i hmem
    by_cases hkey : k = key
    · subst hkey; simp at hk
    · rw [Function.update_of_ne hkey] at hk
      simp only [List.mem_append, List.mem_singleton, Prod.mk.injEq, hkey, and_false,
        or_false] at hmem
      exact h.seen_none k hk i hmem
  have hequiv := EqvGen.is_equivalence (ShareIn (visited ++ [(x, key)]))
  cases hkey : st.seen key with
  | none =>
    refine ⟨⟨st.parents, Function.update st.seen key (some x)⟩, by simp [JoinState.visit, hkey],
      h.forest, fun i j => ?_, hseen, hunseen⟩
    rw [h.sameRoot]
    constructor
    · exact UnionFind.eqvGen_le hequiv fun _ _ huv => .rel _ _ huv.mono
    · refine UnionFind.eqvGen_le (EqvGen.is_equivalence _) fun u v huv => ?_
      rcases shareIn_concat huv with huv | rfl | ⟨_, hv⟩ | ⟨_, hu⟩
      · exact .rel _ _ huv
      · exact .refl _
      · exact absurd hv (h.seen_none key hkey v)
      · exact absurd hu (h.seen_none key hkey u)
  | some y =>
    obtain ⟨p, hp, hforest, hroot⟩ := UnionFind.union_eq h.forest x y
    rw [Fintype.card_fin] at hp
    refine ⟨⟨p, Function.update st.seen key (some x)⟩, by simp [JoinState.visit, hkey, hp],
      hforest, fun i j => ?_, hseen, hunseen⟩
    have hy : (y, key) ∈ visited := h.seen_some key y hkey
    rw [hroot]
    constructor
    · refine UnionFind.eqvGen_le hequiv fun u v huv => ?_
      rcases huv with huv | ⟨rfl, rfl⟩
      · exact UnionFind.eqvGen_le hequiv (fun _ _ huv => .rel _ _ huv.mono) ((h.sameRoot u v).1 huv)
      · exact .rel _ _ ⟨key, by simp, List.mem_append_left _ hy⟩
    · -- an example with `key` was joined to `y` before, so linking `x` to `y` links it to all
      have hold : ∀ u v, ShareIn visited u v →
          EqvGen (fun u v => SameRoot st.parents u v ∨ u = x ∧ v = y) u v := fun u v huv =>
        .rel _ _ (.inl ((h.sameRoot u v).2 (.rel _ _ huv)))
      have hlink : ∀ v, (v, key) ∈ visited →
          EqvGen (fun u v => SameRoot st.parents u v ∨ u = x ∧ v = y) x v := fun v hv =>
        .trans _ y _ (.rel _ _ (.inr ⟨rfl, rfl⟩)) (hold y v ⟨key, hy, hv⟩)
      refine UnionFind.eqvGen_le (EqvGen.is_equivalence _) fun u v huv => ?_
      rcases shareIn_concat huv with huv | rfl | ⟨rfl, hv⟩ | ⟨rfl, hu⟩
      · exact hold u v huv
      · exact .refl _
      · exact hlink v hv
      · exact .symm _ _ (hlink u hu)

end Join

section Ordered

variable (ordered : List BuiltExample)

/-- Two positions of the sorted examples share a family or a subject. -/
def ShareAt (i j : Fin ordered.length) : Prop := (ordered.get i).Shares (ordered.get j)

/-- The keys the loop visits at a position. -/
def visitsAt (i : Fin ordered.length) : List (Fin ordered.length × GroupKey) :=
  (ordered.get i).keys.map fun k => (i, k)

theorem shareIn_visits (i j : Fin ordered.length) :
    ShareIn ((List.finRange ordered.length).flatMap (visitsAt ordered)) i j ↔ ShareAt ordered i j := by
  have hmem : ∀ i k, (i, k) ∈ (List.finRange ordered.length).flatMap (visitsAt ordered) ↔
      k ∈ (ordered.get i).keys := by
    intro i k
    simp [visitsAt]
  simp only [ShareIn, ShareAt, BuiltExample.shares_iff, hmem]

/-- **The union-find computes the connected components** of sharing a family or a subject. -/
theorem joinAll_spec : ∃ st, joinAll ordered = some st ∧ IsForest st.parents ∧
    ∀ i j, SameRoot st.parents i j ↔ EqvGen (ShareAt ordered) i j := by
  obtain ⟨st, hst, h⟩ := Runs.foldlM_of_invariant
    (fun done => Joined (done.flatMap (visitsAt ordered))) (List.finRange ordered.length)
    (fun done i _ st hst => by
      -- the inner loop, over the keys of one example
      obtain ⟨st', hst', h'⟩ := Runs.foldlM_of_invariant
        (fun ks => Joined (done.flatMap (visitsAt ordered) ++ ks.map fun k => (i, k)))
        (ordered.get i).keys
        (fun ks k _ st h => by
          obtain ⟨st', hst', h'⟩ := h.visit i k
          exact ⟨st', hst', by simpa using h'⟩)
        (by simpa using hst)
      exact ⟨st', hst', by simpa [visitsAt] using h'⟩)
    (by simpa using Joined.init)
  refine ⟨st, hst, h.forest, fun i j => ?_⟩
  rw [h.sameRoot, show ShareIn _ = ShareAt ordered from
    funext fun i => funext fun j => propext (shareIn_visits ordered i j)]

/-! ## The groups -/

/-- Grouping the examples by root lists the classes of "has the same root". -/
theorem collect_spec {parents : Fin ordered.length → Fin ordered.length} (hp : IsForest parents) :
    ∃ parents' groups, collect ordered parents = some (parents', groups) ∧
      ∃ classes, groups.map (·.2) = classes.map (·.map ordered.get) ∧
        Grouping.Classes (SameRoot parents) (List.finRange ordered.length) classes := by
  -- what is collected after the positions `done`
  have hloop : ∃ st, collect ordered parents = some st ∧ IsForest st.1 ∧
      (∀ j r, RootOf st.1 j r ↔ RootOf parents j r) ∧ ∃ g, st.2 = Grouping.mapValues ordered.get g ∧
        Grouping.Groups (RootOf parents) (List.finRange ordered.length) g := by
    refine Runs.foldlM_of_invariant (fun done (st : (Fin ordered.length → Fin ordered.length) ×
      List (Fin ordered.length × List BuiltExample)) =>
      IsForest st.1 ∧ (∀ j r, RootOf st.1 j r ↔ RootOf parents j r) ∧ ∃ g,
        st.2 = Grouping.mapValues ordered.get g ∧ Grouping.Groups (RootOf parents) done g)
      (List.finRange ordered.length) ?_ ⟨hp, fun _ _ => Iff.rfl, [], rfl, .nil _⟩
    rintro done i - ⟨p, _⟩ ⟨hforest, hroots, g, rfl, hg⟩
    obtain ⟨r, hr⟩ := hp i
    obtain ⟨p', hfind, hforest', hroots'⟩ := UnionFind.find_eq hforest ((hroots i r).2 hr)
    rw [Fintype.card_fin] at hfind
    refine ⟨(p', Grouping.append r (ordered.get i) (Grouping.mapValues ordered.get g)), ?_, hforest',
      fun j s => (hroots' j s).trans (hroots j s), _, Grouping.append_mapValues _ _ _ _,
      hg.append hr⟩
    simp only [hfind]
    rfl
  obtain ⟨⟨p, groups⟩, hrun, -, -, g, rfl, hg⟩ := hloop
  refine ⟨p, _, hrun, g.map (·.2), by simp [Grouping.mapValues], ?_⟩
  exact hg.classes List.mem_finRange fun _ _ _ h h' => h.unique h'

end Ordered

/-! ## The split of a component

The loop over the components keeps what was placed so far in each split. A component's place depends
on the sizes of the ones before it, or on its latest example; its members are placed together in any
case. -/

/-- What the time split says of a component and its split. -/
def TimeSplit.Places (cut : TimeSplit) (group : List BuiltExample) (split : Split) : Prop :=
  (split = .train ↔ ∀ e ∈ group, e.startedAt < cut.trainEnd) ∧
    (split = .test ↔ ∃ e ∈ group, cut.validationEnd ≤ e.startedAt)

theorem splitOf_spec (spec : DatasetSpecification) (total assigned : ℕ) {group : List BuiltExample}
    (hne : group ≠ []) :
    ∃ split, splitOf spec total assigned group = some split ∧
      ∀ cut, spec.timeSplit = some cut → cut.Places group split := by
  cases hcut : spec.timeSplit with
  | none => exact ⟨_, by rw [splitOf, hcut], by simp⟩
  | some cut =>
    obtain ⟨latest, hlatest⟩ : ∃ m, (group.map (·.startedAt)).max? = some m := by
      rw [← Option.isSome_iff_exists, List.isSome_max?_iff]
      simpa using hne
    obtain ⟨hmem, hmax⟩ := List.max?_eq_some_iff.1 hlatest
    obtain ⟨e, he, rfl⟩ := List.mem_map.1 hmem
    have hle : ∀ e' ∈ group, e'.startedAt ≤ e.startedAt := fun e' he' =>
      hmax _ (List.mem_map.2 ⟨e', he', rfl⟩)
    have htrain : e.startedAt < cut.trainEnd ↔ ∀ e' ∈ group, e'.startedAt < cut.trainEnd :=
      ⟨fun h e' he' => lt_of_le_of_lt (hle e' he') h, fun h => h e he⟩
    have htest : cut.validationEnd ≤ e.startedAt ↔ ∃ e' ∈ group, cut.validationEnd ≤ e'.startedAt :=
      ⟨fun h => ⟨e, he, h⟩, fun ⟨e', he', h⟩ => h.trans (hle e' he')⟩
    refine ⟨_, by rw [splitOf, hcut]; simp only [hlatest]; rfl, fun cut' hcut' => ?_⟩
    obtain rfl : cut = cut' := by simpa using hcut'
    rw [TimeSplit.Places, ← htrain, ← htest]
    have := cut.ordered
    split_ifs with h h'
    · simp [h]; omega
    · simp [h]; omega
    · simp [h]; omega

section Assign

variable {α : Type} (spec : DatasetSpecification) (total : ℕ) (get : α → BuiltExample)

/-- The examples of the components placed in a split. -/
def placedIn (placed : List (List α × Split)) (split : Split) : List BuiltExample :=
  (placed.filter (·.2 = split)).flatMap fun c => c.1.map get

/-- How many examples some placed components have. -/
def placedSize (placed : List (List α × Split)) : ℕ := (placed.map (·.1.length)).sum

/-- Every component is placed by the rule of `splitOf`, behind those before it. -/
def PlacedInTurn (placed : List (List α × Split)) : Prop :=
  ∀ before c after, placed = before ++ c :: after →
    splitOf spec total (placedSize before) (c.1.map get) = some c.2

theorem PlacedInTurn.concat {spec : DatasetSpecification} {total : ℕ} {get : α → BuiltExample}
    {placed : List (List α × Split)} {c : List α × Split} (h : PlacedInTurn spec total get placed)
    (hc : splitOf spec total (placedSize placed) (c.1.map get) = some c.2) :
    PlacedInTurn spec total get (placed ++ [c]) := by
  intro before c' after heq
  rcases after.eq_nil_or_concat with rfl | ⟨after, last, rfl⟩
  · obtain ⟨rfl, hlast⟩ := List.append_inj' heq rfl
    obtain rfl := List.singleton_inj.1 hlast
    exact hc
  · rw [List.concat_eq_append, ← List.cons_append, ← List.append_assoc] at heq
    exact h before c' after (List.append_inj_left' heq rfl)

/-- The last loop places every component whole, by the rule of `splitOf`. -/
theorem assignAll_spec {components : List (List α)} (hne : ∀ c ∈ components, c ≠ []) :
    ∃ st placed, (components.map (·.map get)).foldlM (Assigned.assign spec total) {} = some st ∧
      placed.map (·.1) = components ∧ (∀ split, st.result split = placedIn get placed split) ∧
      PlacedInTurn spec total get placed := by
  rw [List.foldlM_map]
  obtain ⟨st, hst, placed, hplaced, hresult, -, hturn⟩ := Runs.foldlM_of_invariant
    (fun (done : List (List α)) (st : Assigned) => ∃ placed : List (List α × Split),
      placed.map (·.1) = done ∧ (∀ split, st.result split = placedIn get placed split) ∧
      st.assigned = placedSize placed ∧ PlacedInTurn spec total get placed)
    (f := fun st (c : List α) => st.assign spec total (c.map get)) components
    (fun done c hc st hst => by
      obtain ⟨placed, hdone, hresult, hassigned, hturn⟩ := hst
      have hgroup : c.map get ≠ [] := by simpa using hne c hc
      obtain ⟨split, hsplit, -⟩ := splitOf_spec spec total st.assigned hgroup
      refine ⟨_, by simp only [Assigned.assign, hsplit]; rfl, placed ++ [(c, split)], by simp [hdone],
        fun split' => ?_, by simp [hassigned, placedSize], hturn.concat (hassigned ▸ hsplit)⟩
      by_cases hs : split' = split
      · subst hs
        simp [placedIn, hresult, List.filter_append]
      · simp [placedIn, hresult, List.filter_append, Function.update_of_ne hs, Ne.symm hs])
    (s := {}) ⟨[], rfl, fun _ => rfl, rfl, fun before c after h => by simp at h⟩
  exact ⟨st, placed, hst, hplaced, hresult, hturn⟩

/-- Where there is a time split, it holds of every component. -/
theorem PlacedInTurn.places {spec : DatasetSpecification} {total : ℕ} {get : α → BuiltExample}
    {placed : List (List α × Split)} (h : PlacedInTurn spec total get placed)
    (hne : ∀ c ∈ placed, c.1 ≠ []) :
    ∀ c ∈ placed, ∀ cut, spec.timeSplit = some cut → cut.Places (c.1.map get) c.2 := by
  intro c hc cut hcut
  obtain ⟨before, after, heq⟩ := List.append_of_mem hc
  obtain ⟨split, hsplit, hplaces⟩ :=
    splitOf_spec spec total (placedSize before) (show c.1.map get ≠ [] by simpa using hne c hc)
  rw [h before c after heq, Option.some.injEq] at hsplit
  exact hsplit ▸ hplaces cut hcut

/-- The three splits together hold the examples of all components. -/
theorem placedIn_perm (placed : List (List α × Split)) :
    (placedIn get placed .train ++ placedIn get placed .validation ++
      placedIn get placed .test).Perm ((placed.map (·.1)).flatten.map get) := by
  classical
  induction placed with
  | nil => exact .refl _
  | cons c placed ih =>
    refine List.perm_iff_count.2 fun e => ?_
    have hcount := List.perm_iff_count.1 ih e
    obtain ⟨c, split⟩ := c
    cases split <;> simp [placedIn] at hcount ⊢ <;> omega

end Assign

/-- An example that shares a key with a member of a placed component is in its split only. -/
theorem mem_placedIn_of_shares {ordered : List BuiltExample}
    {placed : List (List (Fin ordered.length) × Split)}
    (hclasses : Grouping.Classes (EqvGen (ShareAt ordered)) (List.finRange _) (placed.map (·.1)))
    {c : List (Fin ordered.length) × Split} (hc : c ∈ placed) {i : Fin ordered.length}
    (hi : i ∈ c.1) {e : BuiltExample} (he : e ∈ ordered) (hshares : (ordered.get i).Shares e)
    (split : Split) : e ∈ placedIn ordered.get placed split ↔ split = c.2 := by
  have hmem : ∀ j, ordered.get j = e → j ∈ c.1 := by
    rintro j rfl
    exact (hclasses.isClass c.1 (List.mem_map_of_mem hc) i hi j).2 (.rel _ _ hshares)
  simp only [placedIn, List.mem_flatMap, List.mem_filter, decide_eq_true_eq, List.mem_map]
  constructor
  · rintro ⟨c', ⟨hc', rfl⟩, j, hj, hje⟩
    rw [hclasses.unique (List.nodup_finRange _) hc' hc hj (hmem j hje)]
  · rintro rfl
    obtain ⟨j, hj⟩ := List.get_of_mem he
    exact ⟨c, ⟨hc, rfl⟩, j, hmem j hj, hj⟩

/-- What `splitExamples` does: the components are the classes of sharing a key, in some order, and each
    is placed whole, behind those before it. -/
theorem splitExamples_placed (rng : SeededShuffle (List BuiltExample)) (examples : List BuiltExample)
    (spec : DatasetSpecification) :
    ∃ result, splitExamples rng examples spec = some result ∧
      ∃ placed : List (List (Fin (sortExamples examples).length) × Split),
        Grouping.Classes (EqvGen (ShareAt (sortExamples examples))) (List.finRange _)
          (placed.map (·.1)) ∧
        (∀ split, (result split).Perm (placedIn (sortExamples examples).get placed split)) ∧
        PlacedInTurn spec (sortExamples examples).length (sortExamples examples).get placed := by
  set ordered := sortExamples examples with hordered
  obtain ⟨joined, hjoined, hforest, hroot⟩ := joinAll_spec ordered
  obtain ⟨parents, groups, hcollect, classes, hgroups, hclasses⟩ := collect_spec ordered hforest
  rw [show SameRoot joined.parents = EqvGen (ShareAt ordered) from
    funext fun i => funext fun j => propext (hroot i j)] at hclasses
  -- the shuffle of the groups is a rearrangement of the classes
  have hshuffle := rng.perm spec.seed (groups.map (·.2))
  rw [hgroups] at hshuffle
  obtain ⟨shuffled, (hshuffled : _ = shuffled.map (·.map ordered.get)), hperm⟩ :=
    (congrFun₂ (List.eq_map_comp_perm (List.map ordered.get)) _ _).mpr hshuffle
  have hcomponents := hclasses.perm hperm
  obtain ⟨st, placed, hassign, hplaced, hresult, hturn⟩ :=
    assignAll_spec spec ordered.length ordered.get hcomponents.nonempty
  refine ⟨fun split => sortExamples (st.result split), ?_, placed, hplaced ▸ hcomponents,
    fun split => (sortExamples_perm _).trans (by rw [hresult]), hturn⟩
  rw [splitExamples, ← hordered]
  simp only [hjoined, hcollect, hgroups, Option.bind_eq_bind, Option.bind_some, hshuffled, hassign]

/-- The three splits hold all examples. -/
theorem splits_perm {examples : List BuiltExample} {result : Split → List BuiltExample}
    {placed : List (List (Fin (sortExamples examples).length) × Split)}
    (hclasses : Grouping.Classes (EqvGen (ShareAt (sortExamples examples))) (List.finRange _)
      (placed.map (·.1)))
    (hsplit : ∀ split, (result split).Perm (placedIn (sortExamples examples).get placed split)) :
    (result .train ++ result .validation ++ result .test).Perm examples := by
  refine (((hsplit _).append (hsplit _)).append (hsplit _)).trans ?_
  refine (placedIn_perm (sortExamples examples).get placed).trans ?_
  refine (hclasses.cover.map _).trans ?_
  rw [← List.ofFn_eq_map, List.ofFn_get]
  exact sortExamples_perm examples

/-- No example is lost or duplicated. -/
theorem splitExamples_perm (rng : SeededShuffle (List BuiltExample)) (examples : List BuiltExample)
    (spec : DatasetSpecification) :
    ∃ result, splitExamples rng examples spec = some result ∧
      (result .train ++ result .validation ++ result .test).Perm examples := by
  obtain ⟨result, hrun, placed, hclasses, hsplit, -⟩ := splitExamples_placed rng examples spec
  exact ⟨result, hrun, splits_perm hclasses hsplit⟩

/-- **No leakage.** `splitExamples` returns three splits that are together a rearrangement of the
    input; examples that share a family or a subject are in one split; what moves together is exactly
    a connected component of sharing; and a time split sends a component by its latest example. -/
theorem splitExamples_spec (rng : SeededShuffle (List BuiltExample)) (examples : List BuiltExample)
    (spec : DatasetSpecification) :
    ∃ result, splitExamples rng examples spec = some result ∧
      (result .train ++ result .validation ++ result .test).Perm examples ∧
      (∀ e ∈ examples, ∀ e' ∈ examples, e.Shares e' →
        ∃ split, ∀ split', (e ∈ result split' ↔ split' = split) ∧
          (e' ∈ result split' ↔ split' = split)) ∧
      ∃ placed : List (List (Fin (sortExamples examples).length) × Split),
        Grouping.Classes (EqvGen (ShareAt (sortExamples examples))) (List.finRange _)
          (placed.map (·.1)) ∧
        (∀ split, (result split).Perm (placedIn (sortExamples examples).get placed split)) ∧
        ∀ c ∈ placed, ∀ cut, spec.timeSplit = some cut →
          cut.Places (c.1.map (sortExamples examples).get) c.2 := by
  obtain ⟨result, hrun, placed, hclasses, hsplit, hturn⟩ := splitExamples_placed rng examples spec
  have hmem : ∀ e ∈ examples, e ∈ sortExamples examples :=
    fun e he => (sortExamples_perm examples).mem_iff.2 he
  refine ⟨result, hrun, splits_perm hclasses hsplit, ?_, placed, hclasses, hsplit,
    hturn.places fun c hc => hclasses.nonempty c.1 (List.mem_map_of_mem hc)⟩
  intro e he e' he' hshares
  obtain ⟨k, hk, hk'⟩ := BuiltExample.shares_iff.1 hshares
  obtain ⟨i, rfl⟩ := List.get_of_mem (hmem e he)
  obtain ⟨c, hc, hi⟩ : ∃ c ∈ placed, i ∈ c.1 := by
    have := (hclasses.cover.mem_iff (a := i)).2 (List.mem_finRange i)
    simpa using this
  have hin := fun e he h split =>
    ((hsplit split).mem_iff (a := e)).trans (mem_placedIn_of_shares hclasses hc hi (hmem e he) h split)
  exact ⟨c.2, fun split => ⟨hin _ he (BuiltExample.shares_iff.2 ⟨k, hk, hk⟩) split,
    hin e' he' hshares split⟩⟩

end AdaptiveLlm
