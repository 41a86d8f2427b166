import AdaptiveLlm.Datasets.Curation
import AdaptiveLlm.Lib.InvertedIndex
import AdaptiveLlm.Python.Float

set_option autoImplicit false

/-! # Deduplication of a dataset

`curate` (`datasets/curation.py`) drops the examples that repeat an accepted one, word for word or
nearly, and those near a golden text. Near is measured by the overlap of the sets of shingles. The
source compares a new example only with those accepted ones that an index finds under its shingles;
`curateNaive` compares it with all of them. They agree, because examples with no shingle in common
have no overlap and no example is without shingles.

The two loops are run side by side on the same examples. `Refines` relates their states: the same
accepted examples, the same counts, and an index that has, for every shingle, the positions of the
accepted examples with it. Each step keeps the relation, by the rule of inverted indices of
`Lib/InvertedIndex.lean`, so what is proved of the loop without an index holds of the loop that the
source runs. -/

namespace AdaptiveLlm

namespace Datasets

open InvertedIndex (anyAt candidates Indexes)

/-- What Python knows about characters. -/
structure Unicode where
  /-- `unicodedata.normalize("NFKC", text).casefold()` -/
  fold : String → String
  /-- the class `\w` -/
  isWord : Char → Bool

variable (u : Unicode)

/-- `re.findall(r"\w+", …)` of the folded text. -/
def words (text : String) : List String :=
  (((u.fold text).toList.splitOnP fun c => !u.isWord c).filter (· ≠ [])).map String.ofList

/-- `shingles`: the runs of five words, or of all words when there are fewer. -/
def shingles (text : String) : Finset (List String) :=
  let ws := words u text
  let size := min 5 ws.length
  ((List.range (ws.length - size + 1)).map fun i => (ws.drop i).take size).toFinset

/-- `similar`. -/
def similar (left right : Finset (List String)) (threshold : ℚ) : Bool :=
  let union := left ∪ right
  (if union = ∅ then 1 else Python.float (((left ∩ right).card : ℚ) / union.card)) > threshold

/-- `example.benchmark_text or example.text`. -/
def benchmarkInput (e : BuiltExample) : String :=
  match e.benchmarkText with
  | some text => if text = "" then e.text else text
  | none => e.text

/-- One more under a key of a `Counter`. -/
def increment (counter : String → ℕ) (key : String) : String → ℕ :=
  Function.update counter key (counter key + 1)

/-! ## The two loops -/

section Loops

variable (golden : List String) (threshold : ℚ)

/-- The local variables of `curate`. -/
structure CurateState where
  seen : List String := []
  accepted : List BuiltExample := []
  grams : List (Finset (List String)) := []
  postings : List String → Finset ℕ := fun _ => ∅
  exclusions : String → ℕ

/-- One example of the loop; `none` is an `IndexError`. -/
def curateStep (st : CurateState) (e : BuiltExample) : Option CurateState :=
  let current := shingles u e.text
  let overlapping := candidates st.postings current
  if e.exactHash ∈ st.seen then
    some { st with exclusions := increment st.exclusions "exact_duplicate" }
  else do
    let near ← anyAt st.grams (fun grams => similar current grams threshold)
      (overlapping.sort (· ≤ ·))
    if near then some { st with exclusions := increment st.exclusions "near_duplicate" }
    else if (golden.map (shingles u)).any fun item =>
        similar (shingles u (benchmarkInput e)) item threshold then
      some { st with exclusions := increment st.exclusions "benchmark_contamination" }
    else some { st with
      seen := e.exactHash :: st.seen
      postings := InvertedIndex.add st.postings st.grams.length current
      grams := st.grams ++ [current]
      accepted := st.accepted ++ [e] }

/-- `curate`: the accepted examples and the counter. -/
def curate (examples : List BuiltExample) (exclusions : String → ℕ) :
    Option (List BuiltExample × (String → ℕ)) := do
  let st ← (sortExamples examples).foldlM (curateStep u golden threshold) { exclusions }
  some (st.accepted, st.exclusions)

/-- One example, compared with every accepted one. -/
def naiveStep (st : List BuiltExample × (String → ℕ)) (e : BuiltExample) :
    List BuiltExample × (String → ℕ) :=
  if e.exactHash ∈ st.1.map (·.exactHash) then (st.1, increment st.2 "exact_duplicate")
  else if st.1.any fun a => similar (shingles u e.text) (shingles u a.text) threshold then
    (st.1, increment st.2 "near_duplicate")
  else if golden.any fun text =>
      similar (shingles u (benchmarkInput e)) (shingles u text) threshold then
    (st.1, increment st.2 "benchmark_contamination")
  else (st.1 ++ [e], st.2)

/-- The reference: no index. -/
def curateNaive (examples : List BuiltExample) (exclusions : String → ℕ) :
    List BuiltExample × (String → ℕ) :=
  (sortExamples examples).foldl (naiveStep u golden threshold) ([], exclusions)

end Loops

/-! ## Similarity -/

section Similarity

variable {u} {left right : Finset (List String)} {threshold : ℚ}

/-- No text is without shingles: one with no words has the empty one. -/
theorem shingles_nonempty (text : String) : (shingles u text).Nonempty := by
  unfold shingles
  dsimp only
  refine ⟨_, List.mem_toFinset.2 (List.mem_map_of_mem (List.mem_range.2 (Nat.succ_pos _)))⟩

theorem similar_comm : similar left right threshold = similar right left threshold := by
  unfold similar
  rw [Finset.union_comm, Finset.inter_comm]

/-- Similar sets share a shingle, for every threshold down to zero. -/
theorem inter_nonempty_of_similar (hthreshold : 0 ≤ threshold) (hleft : left.Nonempty)
    (h : similar left right threshold = true) : (left ∩ right).Nonempty := by
  by_contra hnone
  rw [Finset.not_nonempty_iff_eq_empty] at hnone
  have hunion : left ∪ right ≠ ∅ := (hleft.mono Finset.subset_union_left).ne_empty
  unfold similar at h
  simp only [hnone, hunion, if_false, Finset.card_empty, Nat.cast_zero, zero_div,
    Python.float_zero, decide_eq_true_eq] at h
  exact absurd h hthreshold.not_gt

end Similarity

/-! ## The index finds what the scan finds

The candidates of the index are some of the accepted examples, and all of those that share a shingle
with the new one. Two texts without a common shingle have similarity zero, so no other can be
near. -/

section Refinement

variable {u} {golden : List String} {threshold : ℚ}

/-- The state of `curate` beside that of the reference. -/
structure Refines (u : Unicode) (st : CurateState) (naive : List BuiltExample × (String → ℕ)) :
    Prop where
  accepted : st.accepted = naive.1
  exclusions : st.exclusions = naive.2
  grams : st.grams = naive.1.map fun a => shingles u a.text
  seen : ∀ hash, hash ∈ st.seen ↔ hash ∈ naive.1.map (·.exactHash)
  indexes : Indexes st.postings st.grams

theorem Refines.initial (exclusions : String → ℕ) :
    Refines u { exclusions } ([], exclusions) :=
  ⟨rfl, rfl, rfl, fun _ => by simp, Indexes.empty⟩

/-- The two loops agree on the near duplicates. -/
theorem Refines.near {st : CurateState} {naive : List BuiltExample × (String → ℕ)}
    (h : Refines u st naive) (hthreshold : 0 ≤ threshold) (e : BuiltExample) :
    anyAt st.grams (fun grams => similar (shingles u e.text) grams threshold)
        ((candidates st.postings (shingles u e.text)).sort (· ≤ ·)) =
      some (naive.1.any fun a => similar (shingles u e.text) (shingles u a.text) threshold) := by
  rw [h.indexes.anyAt_candidates fun item _ hpass =>
    inter_nonempty_of_similar hthreshold (shingles_nonempty e.text) hpass, h.grams, List.any_map]
  rfl

/-- **Step lemma.** -/
theorem Refines.step {st : CurateState} {naive : List BuiltExample × (String → ℕ)}
    (h : Refines u st naive) (hthreshold : 0 ≤ threshold) (e : BuiltExample) :
    ∃ st', curateStep u golden threshold st e = some st' ∧
      Refines u st' (naiveStep u golden threshold naive e) := by
  have hcount : ∀ key, Refines u { st with exclusions := increment st.exclusions key }
      (naive.1, increment naive.2 key) := fun key =>
    ⟨h.accepted, by rw [h.exclusions], h.grams, h.seen, h.indexes⟩
  unfold curateStep naiveStep
  simp only [h.seen, h.near hthreshold e, Option.bind_eq_bind, Option.bind_some, List.any_map,
    Function.comp_def]
  split
  · exact ⟨_, rfl, hcount _⟩
  split
  · exact ⟨_, rfl, hcount _⟩
  split
  · exact ⟨_, rfl, hcount _⟩
  · refine ⟨_, rfl, by rw [h.accepted], h.exclusions, by simp [h.grams], ?_, ?_⟩
    · intro hash
      simp [h.seen, or_comm]
    · dsimp only
      exact h.indexes.add

/-- **Run lemma.** -/
theorem curate_eq_naive (hthreshold : 0 ≤ threshold) (examples : List BuiltExample)
    (exclusions : String → ℕ) : curate u golden threshold examples exclusions =
      some (curateNaive u golden threshold examples exclusions) := by
  obtain ⟨st, hrun, h⟩ := Runs.foldlM_simulates (fun _ _ e h => h.step hthreshold e)
    (sortExamples examples) (Refines.initial exclusions)
  unfold curate
  rw [hrun]
  exact congrArg some (Prod.ext h.accepted h.exclusions)

end Refinement

/-! ## What is accepted

What the reference loop accepts is described without the loop: no two are near or equal, none is
near a golden text, and each example that was dropped is counted under the reason that applied
first. -/

section Accepted

variable {u} {golden : List String} {threshold : ℚ} {exclusions : String → ℕ}

/-- The exclusions of the three kinds. -/
def excluded (counter : String → ℕ) : ℕ :=
  counter "exact_duplicate" + counter "near_duplicate" + counter "benchmark_contamination"

/-- What the loop keeps, after `done` examples. -/
structure Curated (u : Unicode) (golden : List String) (threshold : ℚ) (exclusions : String → ℕ)
    (done : List BuiltExample) (st : List BuiltExample × (String → ℕ)) : Prop where
  sublist : st.1.Sublist done
  dissimilar : st.1.Pairwise fun a b =>
    similar (shingles u a.text) (shingles u b.text) threshold = false
  distinct : (st.1.map (·.exactHash)).Nodup
  clean : ∀ a ∈ st.1, ∀ text ∈ golden,
    similar (shingles u (benchmarkInput a)) (shingles u text) threshold = false
  count : st.1.length + excluded st.2 = done.length + excluded exclusions

theorem Curated.initial : Curated u golden threshold exclusions [] ([], exclusions) :=
  ⟨.slnil, .nil, .nil, fun _ ha => (List.not_mem_nil ha).elim, rfl⟩

/-- An example that is counted and dropped. -/
theorem Curated.drop {done : List BuiltExample} {st : List BuiltExample × (String → ℕ)}
    (h : Curated u golden threshold exclusions done st) (e : BuiltExample) {key : String}
    (hkey : excluded (increment st.2 key) = excluded st.2 + 1) :
    Curated u golden threshold exclusions (done ++ [e]) (st.1, increment st.2 key) where
  sublist := h.sublist.trans (List.sublist_append_left done [e])
  dissimilar := h.dissimilar
  distinct := h.distinct
  clean := h.clean
  count := by
    have hcount := h.count
    show st.1.length + excluded (increment st.2 key) = _
    rw [hkey, List.length_append, List.length_singleton]
    omega

/-- **Step lemma.** -/
theorem Curated.step {done : List BuiltExample} {st : List BuiltExample × (String → ℕ)}
    (h : Curated u golden threshold exclusions done st) (e : BuiltExample) :
    Curated u golden threshold exclusions (done ++ [e]) (naiveStep u golden threshold st e) := by
  unfold naiveStep
  split
  · exact h.drop e (by simp [excluded, increment]; omega)
  split
  · exact h.drop e (by simp [excluded, increment]; omega)
  split
  · exact h.drop e (by simp [excluded, increment]; omega)
  rename_i hexact hnear hclean
  have hcount := h.count
  refine ⟨h.sublist.append (List.Sublist.refl [e]), ?_, ?_, fun a ha text htext => ?_, ?_⟩
  · refine List.pairwise_append.2 ⟨h.dissimilar, List.pairwise_singleton .., fun a ha b hb => ?_⟩
    obtain rfl := List.mem_singleton.1 hb
    rw [similar_comm]
    exact Bool.eq_false_iff.2 fun hsimilar => hnear (List.any_eq_true.2 ⟨a, ha, hsimilar⟩)
  · rw [List.map_append]
    refine h.distinct.append (List.nodup_singleton _) ?_
    simpa using hexact
  · obtain ha | ha := List.mem_append.1 ha
    · exact h.clean a ha text htext
    · obtain rfl := List.mem_singleton.1 ha
      exact Bool.eq_false_iff.2 fun hsimilar => hclean (List.any_eq_true.2 ⟨text, htext, hsimilar⟩)
  · simp only [List.length_append, List.length_singleton]
    omega

/-- **Run lemma.** -/
theorem curateNaive_curated (u : Unicode) (golden : List String) (threshold : ℚ)
    (exclusions : String → ℕ) (examples : List BuiltExample) : Curated u golden threshold exclusions
    (sortExamples examples) (curateNaive u golden threshold examples exclusions) := by
  have hrun : ∀ (rest done : List BuiltExample) (st : List BuiltExample × (String → ℕ)),
      Curated u golden threshold exclusions done st →
      Curated u golden threshold exclusions (done ++ rest)
        (rest.foldl (naiveStep u golden threshold) st) := by
    intro rest
    induction rest with
    | nil => intro done st h; simpa using h
    | cons e rest ih => intro done st h; simpa using ih (done ++ [e]) _ (h.step e)
  exact hrun (sortExamples examples) [] _ .initial

/-- What `curate` accepts and counts. -/
theorem curate_curated (u : Unicode) (golden : List String) {threshold : ℚ} (hthreshold : 0 ≤ threshold)
    (examples : List BuiltExample) (exclusions : String → ℕ) :
    ∃ accepted counter, curate u golden threshold examples exclusions = some (accepted, counter) ∧
      Curated u golden threshold exclusions (sortExamples examples) (accepted, counter) :=
  ⟨_, _, curate_eq_naive hthreshold examples exclusions,
    curateNaive_curated u golden threshold exclusions examples⟩

end Accepted

/-- **Curation with the index is curation without it.** For every threshold that is not negative,
    `curate` accepts what the reference accepts and counts what it counts. So the accepted examples
    are some of the given ones, no two of them are similar or have the same hash, none is near a
    golden text, and what is not accepted is counted under its reason. -/
theorem curate_spec (u : Unicode) (golden : List String) {threshold : ℚ} (hthreshold : 0 ≤ threshold)
    (examples : List BuiltExample) (exclusions : String → ℕ) :
    ∃ accepted counter, curate u golden threshold examples exclusions = some (accepted, counter) ∧
      curateNaive u golden threshold examples exclusions = (accepted, counter) ∧
      accepted.Sublist (sortExamples examples) ∧
      (accepted.Pairwise fun a b =>
        similar (shingles u a.text) (shingles u b.text) threshold = false) ∧
      (accepted.map (·.exactHash)).Nodup ∧
      (∀ a ∈ accepted, ∀ text ∈ golden,
        similar (shingles u (benchmarkInput a)) (shingles u text) threshold = false) ∧
      accepted.length + excluded counter = examples.length + excluded exclusions := by
  obtain ⟨hsublist, hdissimilar, hdistinct, hclean, hcount⟩ :=
    curateNaive_curated u golden threshold exclusions examples
  refine ⟨_, _, curate_eq_naive hthreshold examples exclusions, rfl, hsublist, hdissimilar, hdistinct,
    hclean, hcount.trans ?_⟩
  rw [(sortExamples_perm examples).length_eq]

namespace Samples

/-- Texts of small ASCII words. -/
def ascii : Unicode where
  fold := id
  isWord := Char.isAlphanum

/-- An example that stands for those of the tests below. -/
def example₁ : BuiltExample where
  interactionId := "i1"
  tenantId := "acme"
  subject := none
  families := []
  startedAt := 1
  targetSource := "production_output"
  language := "en"
  exactHash := "h1"
  text := "please reset my password now"
  row := []

/-- Another hash, the same words. -/
def example₂ : BuiltExample :=
  { example₁ with
    interactionId := "i2"
    startedAt := 2
    exactHash := "h2"
    text := "please, reset my password now" }

end Samples

open Samples in
theorem near_duplicate_counted : ∃ accepted counter,
    curate ascii ["golden"] (4 / 5) [example₂, example₁] (fun _ => 0) = some (accepted, counter) ∧
      (accepted.map (·.exactHash)).Nodup ∧ accepted.length + excluded counter = 2 := by
  obtain ⟨accepted, counter, hcurate, -, -, -, hdistinct, -, hcount⟩ :=
    curate_spec ascii ["golden"] (by norm_num : (0 : ℚ) ≤ 4 / 5) [example₂, example₁] fun _ => 0
  exact ⟨accepted, counter, hcurate, hdistinct, hcount⟩

end Datasets

end AdaptiveLlm
