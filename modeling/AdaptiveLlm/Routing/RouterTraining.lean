import AdaptiveLlm.Routing.RouterModel
import Mathlib.Analysis.Complex.Exponential
import Mathlib.Analysis.Real.Sqrt

set_option autoImplicit false

/-! # A trained router fits its features

Training ends with a router whose vectors have one width, whatever the features: that of the centroid, of
the scales and of the weights. So neither a vector nor a distance nor an estimate raises.

Postconditions are carried by `Ensures` (`Lib/Except.lean`), from the encoding of one observation up
to the router. The lemmas say only how long a vector is and in which range a probability, because
these are what later checks and zips depend on. Instances for the reals are at the end, where `exp`
and the square root are Mathlib's. -/

namespace AdaptiveLlm.RouterModel

open Except (Ensures)

variable {K : Type} [Field K] {α β : Type}

/-! ## What does not raise -/

theorem zipStrict_eq {as : List α} {bs : List β} (h : as.length = bs.length) :
    zipStrict as bs = .ok (as.zip bs) := if_pos h

theorem mean_eq {values : List K} (h : values ≠ []) : mean values = .ok (average values) := if_neg h

theorem logit_eq {weights vector : List K} (h : weights.length = vector.length + 1) :
    ∃ value, logit weights vector = .ok value := by
  rw [logit, zipStrict_eq (by rw [h, List.length_cons])]
  exact ⟨_, rfl⟩

theorem average_nonneg [LinearOrder K] [IsStrictOrderedRing K] {values : List K} (h : ∀ v ∈ values, 0 ≤ v) :
    0 ≤ average values := div_nonneg (List.sum_nonneg h) (Nat.cast_nonneg _)

/-! ## The blocks of a vector

A vector is put together of one block for each categorical feature and the numbers behind them. The
width of a block is that of its vocabulary, which is fixed in training. -/

theorem length_block (category : String) (known : List String) :
    (block category known : List K).length = known.length + 1 := by
  simp [block]

variable [LinearOrder K]

/-- **One entry of a block is 1**, and the others are 0. -/
theorem block_oneHot [IsStrictOrderedRing K] (category : String) {known : List String} (h : known.Nodup) :
    (block category known : List K).count 1 = 1 ∧ ∀ x ∈ (block category known : List K), x = 0 ∨ x = 1 := by
  constructor
  · have hknown : (known.map fun value => if category = value then (1 : K) else 0).count 1 =
        known.count category := by
      rw [List.count_eq_countP, List.countP_map, List.count_eq_countP]
      refine List.countP_congr fun value _ => ?_
      by_cases hc : category = value
      · simp [hc]
      · simp [hc, Ne.symm hc]
    rw [block, List.count_append, hknown]
    by_cases hmem : category ∈ known
    · rw [List.count_eq_one_of_mem h hmem]
      simp [hmem]
    · rw [List.count_eq_zero_of_not_mem hmem]
      simp [hmem]
  · intro x hx
    rcases List.mem_append.1 hx with hx | hx
    · obtain ⟨value, -, rfl⟩ := List.mem_map.1 hx
      split_ifs
      · exact .inr rfl
      · exact .inl rfl
    · rw [List.mem_singleton.1 hx]
      split_ifs
      · exact .inl rfl
      · exact .inr rfl

/-- The number of entries of the vectors. -/
def width (vocabulary : List (List String)) : ℕ := (vocabulary.map (·.length + 1)).sum

/-- The blocks of a vector. -/
def blocks (K : Type) [Field K] (vocabulary : List (List String)) (features : RoutingFeatures) :
    List (List K) :=
  ((categories features).zip vocabulary).map fun (category, known) => block category known

theorem vector_eq {model : LogisticRouter K} (h : model.vocabulary.length = 6)
    (features : RoutingFeatures) :
    model.vector features = .ok (blocks K model.vocabulary features).flatten := by
  rw [LogisticRouter.vector, zipStrict_eq (by rw [h]; rfl)]
  rfl

omit [LinearOrder K] in
theorem length_blocks {vocabulary : List (List String)} (h : vocabulary.length = 6)
    (features : RoutingFeatures) :
    (blocks K vocabulary features).map List.length = vocabulary.map (·.length + 1) := by
  have hlength : vocabulary.length ≤ (categories features).length := by
    rw [h]
    rfl
  rw [blocks, List.map_map]
  calc ((categories features).zip vocabulary).map (List.length ∘ fun p => block p.1 p.2)
      = (((categories features).zip vocabulary).map Prod.snd).map (·.length + 1) := by
        rw [List.map_map]
        exact List.map_congr_left fun p _ => length_block p.1 p.2
    _ = vocabulary.map (·.length + 1) := by rw [List.map_snd_zip hlength]

omit [LinearOrder K] in
theorem length_flatten_blocks {vocabulary : List (List String)} (h : vocabulary.length = 6)
    (features : RoutingFeatures) : (blocks K vocabulary features).flatten.length = width vocabulary := by
  rw [List.length_flatten, length_blocks h, width]

theorem width_pos {vocabulary : List (List String)} (h : vocabulary.length = 6) : 0 < width vocabulary := by
  obtain ⟨known, rest, rfl⟩ := List.exists_cons_of_length_pos (by omega : 0 < vocabulary.length)
  rw [width, List.map_cons, List.sum_cons]
  omega

/-! ## Fitting -/

section Fit

variable {an : Analysis K} {allowed : RouterException → Prop} {n : ℕ}

omit [LinearOrder K] in
theorem addError_ensures (error : K) {gradient values : List K} (h : gradient.length = values.length) :
    Ensures allowed (List.length · = gradient.length) (addError error gradient values) := by
  refine Ensures.foldlM (List.length · = gradient.length) ?_ rfl
  rintro ⟨value, index⟩ hmem g hg
  have hindex : index < g.length := by
    have hlt := (List.mem_zipIdx hmem).2.1
    omega
  dsimp only
  rw [if_pos hindex]
  exact (List.length_modify _ _ _).trans hg

theorem descend_ensures {vectors : List (List K)} {labels weights : List K}
    (hlabels : vectors.length = labels.length) (hwidth : ∀ v ∈ vectors, v.length = n)
    (hweights : weights.length = n + 1) :
    Ensures allowed (List.length · = n + 1) (descend an vectors labels weights) := by
  rw [descend, zipStrict_eq hlabels, Except.ok_bind]
  refine (Ensures.foldlM (List.length · = n + 1) ?_ (by rw [List.length_replicate, hweights])).bind
    fun gradient hg => ?_
  · rintro ⟨vector, label⟩ hmem gradient hg
    have hvector := hwidth vector (List.of_mem_zip hmem).1
    obtain ⟨value, hvalue⟩ : ∃ value, logit weights vector = .ok value :=
      logit_eq (by rw [hweights, hvector])
    dsimp only
    rw [hvalue, Except.ok_bind]
    have hsame : gradient.length = (1 :: vector).length := by rw [hg, List.length_cons, hvector]
    exact (addError_ensures _ hsame).mono fun g' hg' => hg'.trans hg
  · rw [zipStrict_eq (hweights.trans hg.symm), Except.ok_bind]
    show List.length _ = _
    rw [List.length_map, List.length_zip, hweights, hg, min_self]

/-- **Fitting** ends with a weight for each entry and the bias, unless a check raises. -/
theorem fit_ensures {check : ℕ → Bool} (hcheck : ∀ step, check step = false → allowed .interrupted)
    {vectors : List (List K)} {labels : List K} (hne : vectors ≠ [])
    (hlabels : vectors.length = labels.length) (hwidth : ∀ v ∈ vectors, v.length = n) (steps : ℕ) :
    Ensures allowed (List.length · = n + 1) (fit an check vectors labels steps) := by
  rw [fit, if_neg (by simp [hne, hlabels])]
  refine Ensures.foldlM (List.length · = n + 1) ?_ ?_
  · intro step _ weights hweights
    split_ifs with hraises
    · exact hcheck step hraises.2
    · exact descend_ensures hlabels hwidth hweights
  · obtain ⟨v, rest, rfl⟩ := List.exists_cons_of_ne_nil hne
    rw [List.length_replicate, List.headD_cons, hwidth v List.mem_cons_self]

end Fit

/-! ## Training

Each classifier is trained on rows and labels of one length, and the checks that the source makes on
the way are the only things that can raise. -/

section Train

variable [IsStrictOrderedRing K] {an : Analysis K} {allowed : RouterException → Prop}

theorem sigmoid_range (value : K) : 0 ≤ sigmoid an value ∧ sigmoid an value ≤ 1 := by
  have hexp := an.exp_pos (-max (-40) (min 40 value))
  have hpos : 0 < 1 + an.exp (-max (-40) (min 40 value)) := by linarith
  refine ⟨div_nonneg zero_le_one hpos.le, (div_le_one hpos).2 ?_⟩
  linarith

theorem suitable_range (row : RoutingRow) (version : String) (threshold : ℚ) :
    0 ≤ suitable K row version threshold ∧ suitable K row version threshold ≤ 1 := by
  unfold suitable
  split
  · split
    · split_ifs
      · exact ⟨zero_le_one, le_rfl⟩
      · exact ⟨le_rfl, zero_le_one⟩
    · exact ⟨le_rfl, zero_le_one⟩
  · exact ⟨le_rfl, zero_le_one⟩

theorem length_sortedSet_vocabulary (training : List RoutingRow) : (vocabulary training).length = 6 := by
  simp [vocabulary]

theorem nodup_of_mem_vocabulary {training : List RoutingRow} {known : List String}
    (h : known ∈ vocabulary training) : known.Nodup := by
  obtain ⟨i, -, rfl⟩ := List.mem_map.1 h
  exact (List.mergeSort_perm _ _).nodup_iff.2 (List.nodup_dedup _)

omit [LinearOrder K] [IsStrictOrderedRing K] in
theorem transposed_eq {vectors : List (List K)} {n : ℕ} (hne : vectors ≠ [])
    (hwidth : ∀ v ∈ vectors, v.length = n) :
    ∃ columns, transposed vectors = .ok columns ∧ columns.length = n ∧ ∀ c ∈ columns, c ≠ [] := by
  obtain ⟨v, rest, rfl⟩ := List.exists_cons_of_ne_nil hne
  have hv := hwidth v List.mem_cons_self
  refine ⟨_, if_pos ?_, ?_, fun c hc => ?_⟩
  · rw [List.all_eq_true]
    intro w hw
    rw [List.headD_cons, hv]
    exact decide_eq_true (hwidth w hw)
  · rw [List.length_map, List.length_range, List.headD_cons, hv]
  · obtain ⟨i, -, rfl⟩ := List.mem_map.1 hc
    simp

/-- The deviations are not smaller than a quarter. -/
theorem deviations_ensures {centroid : List K} {columns : List (List K)}
    (hlength : centroid.length = columns.length) (hne : ∀ c ∈ columns, c ≠ []) :
    Ensures allowed (fun scales => scales.length = columns.length ∧ ∀ s ∈ scales, (0 : K) < s)
      (deviations an centroid columns) := by
  rw [deviations, zipStrict_eq hlength, Except.ok_bind]
  refine (Ensures.mapM (P := (0 < ·)) ?_).mono fun scales hscales => ⟨?_, hscales.2⟩
  · rintro ⟨center, column⟩ hmem
    have hcolumn := hne column (List.of_mem_zip hmem).2
    have hnonneg : 0 ≤ average (column.map fun x => (x - center) ^ 2) := by
      refine average_nonneg fun v hv => ?_
      obtain ⟨x, -, rfl⟩ := List.mem_map.1 hv
      exact sq_nonneg _
    dsimp only
    rw [mean_eq (by simpa using hcolumn), Except.ok_bind, squareRoot, if_neg (not_lt.2 hnonneg),
      Except.ok_bind]
    exact lt_max_of_lt_left (by norm_num)
  · rw [hscales.1, List.length_zip, hlength, min_self]

omit [IsStrictOrderedRing K] in
/-- The logits of the calibration rows, each a vector of one entry. -/
theorem logits_ensures {model : LogisticRouter K} (hmodel : model.vocabulary.length = 6) {weights : List K}
    (hweights : weights.length = width model.vocabulary + 1) (calibration : List RoutingRow) :
    Ensures allowed (fun logits => logits.length = calibration.length ∧ ∀ x ∈ logits, x.length = 1)
      (calibration.mapM fun row => do
        let vector ← model.vector row.features
        let value ← logit weights vector
        .ok [value]) := by
  refine Ensures.mapM (P := (List.length · = 1)) fun row _ => ?_
  rw [vector_eq hmodel, Except.ok_bind]
  obtain ⟨value, hvalue⟩ : ∃ value, logit weights (blocks K model.vocabulary row.features).flatten =
      .ok value := logit_eq (by rw [hweights, length_flatten_blocks hmodel])
  rw [hvalue, Except.ok_bind]
  rfl

/-- The calibrated logits are probabilities. -/
theorem probabilities_ensures {platt : List K} (hplatt : platt.length = 1 + 1) {logits : List (List K)}
    (hlogits : ∀ x ∈ logits, x.length = 1) :
    Ensures allowed (fun probabilities => probabilities.length = logits.length ∧
      ∀ p ∈ probabilities, (0 : K) ≤ p ∧ p ≤ 1)
      (logits.mapM fun x => do
        let value ← logit platt x
        .ok (sigmoid an value)) := by
  refine Ensures.mapM (P := fun p => 0 ≤ p ∧ p ≤ 1) fun x hx => ?_
  obtain ⟨value, hvalue⟩ : ∃ value, logit platt x = .ok value := logit_eq (by rw [hplatt, hlogits x hx])
  rw [hvalue, Except.ok_bind]
  exact sigmoid_range value

variable [FloorRing K]

/-- **A classifier** has a weight for each entry and a confidence in range, so that it is never invalid. -/
theorem trainClassifier_ensures {check : Bool → ℕ → Bool}
    (hcheck : ∀ calibrating step, check calibrating step = false → allowed .interrupted)
    {model : LogisticRouter K} (hmodel : model.vocabulary.length = 6) {vectors : List (List K)}
    {training calibration : List RoutingRow} (htraining : training ≠ []) (hcalibration : calibration ≠ [])
    (hvectors : vectors.length = training.length)
    (hwidth : ∀ v ∈ vectors, v.length = width model.vocabulary) (version : String) :
    Ensures allowed
      (fun c => c.weights.length = width model.vocabulary + 1 ∧ c.calibration.length = 2)
      (trainClassifier an check model vectors training calibration version) := by
  have hsome : vectors ≠ [] := by
    rw [← List.length_pos_iff, hvectors]
    exact List.length_pos_iff.2 htraining
  refine (fit_ensures (hcheck false) hsome (by rw [hvectors, List.length_map]) hwidth 600).bind
    fun weights hweights => ?_
  refine (logits_ensures hmodel hweights calibration).bind fun logits ⟨hlogits, hone⟩ => ?_
  have hnonempty : logits ≠ [] := by
    rw [← List.length_pos_iff, hlogits]
    exact List.length_pos_iff.2 hcalibration
  dsimp only
  refine (fit_ensures (hcheck true) hnonempty (by rw [hlogits, List.length_map]) hone 600).bind
    fun platt hplatt => ?_
  refine (probabilities_ensures hplatt hone).bind fun probabilities ⟨hprobabilities, hrange⟩ => ?_
  obtain ⟨error, herror, hlow, hhigh⟩ : ∃ e, ece probabilities
      (calibration.map (suitable K · version)) = .ok e ∧ 0 ≤ e ∧ e ≤ 1 := by
    refine ece_range ?_ ?_ hrange ?_
    · rw [← List.length_pos_iff, hprobabilities]
      exact List.length_pos_iff.2 hnonempty
    · rw [hprobabilities, hlogits, List.length_map]
    · intro y hy
      obtain ⟨row, -, rfl⟩ := List.mem_map.1 hy
      exact suitable_range row version _
  rw [herror, Except.ok_bind, dif_pos]
  · exact ⟨hweights, hplatt⟩
  · have hcount : (0 : K) ≤ min 1 (((training.filterMap (·.candidate version)).length : K) / 4) :=
      le_min zero_le_one (by positivity)
    have hcomplement : 0 ≤ 1 - error := by linarith
    refine ⟨⟨mul_nonneg hcomplement hcount, mul_le_one₀ (by linarith) hcount (min_le_left _ _)⟩, ?_⟩
    split_ifs
    · exact le_rfl
    · refine average_nonneg fun l hl => ?_
      obtain ⟨o, -, hl⟩ := List.mem_filterMap.1 hl
      exact o.latency_nonneg l hl

/-- What training makes sure of. -/
structure Trained (router : LogisticRouter K) : Prop where
  categories : router.vocabulary.length = 6
  distinct : ∀ known ∈ router.vocabulary, known.Nodup
  centroid : router.centroid.length = width router.vocabulary
  scales : router.scales.length = width router.vocabulary
  scales_pos : ∀ s ∈ router.scales, 0 < s
  classifiers : ∀ c ∈ router.classifiers,
    c.2.weights.length = width router.vocabulary + 1 ∧ c.2.calibration.length = 2

/-- The exceptions of training. -/
inductive Refused (check : String → Bool → ℕ → Bool) (training calibration : List RoutingRow) :
    RouterException → Prop
  | emptySplit : training = [] ∨ calibration = [] →
      Refused check training calibration (.gateway 422 "empty_training_split")
  | foldOverlap : (∃ r ∈ training, ∃ r' ∈ calibration, r.interactionId = r'.interactionId) →
      Refused check training calibration (.gateway 409 "routing_fold_overlap")
  | interrupted (version : String) (calibrating : Bool) (step : ℕ) :
    check version calibrating step = false →
      Refused check training calibration .interrupted

/-- **Training** ends with a router that fits its vectors, unless the folds are empty or overlap or a check
    raises. -/
theorem trainModel_ensures (check : String → Bool → ℕ → Bool) (training calibration : List RoutingRow) :
    Ensures (Refused check training calibration) (Trained (K := K))
      (trainModel an check training calibration) := by
  unfold trainModel
  split_ifs with hempty hoverlap
  · exact .emptySplit hempty
  · exact .foldOverlap hoverlap
  obtain ⟨htraining, hcalibration⟩ := not_or.1 hempty
  have hvocabulary := length_sortedSet_vocabulary training
  dsimp only
  refine (Ensures.mapM (P := (List.length · = width (vocabulary training))) fun row _ => ?_).bind
    fun vectors ⟨hvectors, hwidth⟩ => ?_
  · rw [vector_eq hvocabulary]
    exact length_flatten_blocks hvocabulary row.features
  have hsome : vectors ≠ [] := by
    rw [← List.length_pos_iff, hvectors]
    exact List.length_pos_iff.2 htraining
  obtain ⟨columns, hcolumns, hcount, hnonempty⟩ := transposed_eq hsome hwidth
  rw [hcolumns, Except.ok_bind]
  refine (Ensures.mapM (P := fun _ => True) fun column hcolumn => ?_).bind fun centroid ⟨hcentroid, _⟩ => ?_
  · rw [mean_eq (hnonempty column hcolumn)]
    trivial
  refine (deviations_ensures hcentroid hnonempty).bind fun scales ⟨hscales, hpos⟩ => ?_
  refine (Ensures.mapM (P := fun c => c.2.weights.length = width (vocabulary training) + 1 ∧
    c.2.calibration.length = 2) fun version _ => ?_).bind fun classifiers ⟨_, hclassifiers⟩ => ?_
  · refine (trainClassifier_ensures (fun calibrating step hstep =>
      .interrupted version calibrating step hstep) hvocabulary htraining hcalibration
      hvectors hwidth version).bind fun c hc => ?_
    exact hc
  exact ⟨hvocabulary, fun known hknown => nodup_of_mem_vocabulary hknown, hcentroid.trans hcount,
    hscales.trans hcount, hpos, hclassifiers⟩

omit [FloorRing K] in
/-- The distance of a vector of its width. -/
theorem Trained.ood (an : Analysis K) {router : LogisticRouter K} (h : Trained router)
    (features : RoutingFeatures) : ∃ d, router.ood an features = .ok d := by
  have hwidth := length_flatten_blocks (K := K) h.categories features
  have hcentered := hwidth.trans h.centroid.symm
  have hscaled : ((blocks K router.vocabulary features).flatten.zip router.centroid).length =
      router.scales.length := by
    rw [List.length_zip, hwidth, h.centroid, h.scales, min_self]
  have hood : Ensures (fun _ => False) (fun _ => True) (router.ood an features) := by
    rw [LogisticRouter.ood, vector_eq h.categories, Except.ok_bind, zipStrict_eq hcentered, Except.ok_bind,
      zipStrict_eq hscaled, Except.ok_bind]
    refine (Ensures.mapM (P := fun x => (0 : K) ≤ x) ?_).bind fun squares hsquares => ?_
    · rintro ⟨⟨value, center⟩, scale⟩ hmem
      have hpos := h.scales_pos scale (List.of_mem_zip hmem).2
      dsimp only
      rw [quotient, if_neg hpos.ne', Except.ok_bind]
      exact sq_nonneg _
    · obtain ⟨hlength, hall⟩ := hsquares
      have hsome : squares ≠ [] := by
        rw [← List.length_pos_iff, hlength, List.length_zip, hscaled, min_self, h.scales]
        exact width_pos h.categories
      have hnonneg : 0 ≤ average squares := average_nonneg hall
      have hdistance := an.sqrt_nonneg _ hnonneg
      rw [mean_eq hsome, Except.ok_bind, squareRoot, if_neg (not_lt.2 hnonneg), Except.ok_bind, quotient,
        if_neg (add_pos_of_pos_of_nonneg one_pos hdistance).ne']
      trivial
  obtain ⟨d, hd, -⟩ := hood.exists_ok
  exact ⟨d, hd⟩

omit [FloorRing K] in
theorem Trained.estimate (an : Analysis K) {router : LogisticRouter K} (h : Trained router)
    (features : RoutingFeatures)
    (version : String) : ∃ e, router.estimate an features version = .ok e := by
  unfold LogisticRouter.estimate
  cases hlookup : router.classifiers.lookup version with
  | none => exact ⟨_, rfl⟩
  | some classifier =>
    obtain ⟨before, after, hsplit, -⟩ := List.lookup_eq_some_iff.1 hlookup
    obtain ⟨hweights, hcalibration⟩ := h.classifiers (version, classifier) (by simp [hsplit])
    obtain ⟨value, hvalue⟩ : ∃ value,
      logit classifier.weights (blocks K router.vocabulary features).flatten =
        .ok value := logit_eq (by rw [hweights, length_flatten_blocks h.categories])
    obtain ⟨calibrated, hcalibrated⟩ : ∃ calibrated, logit classifier.calibration [value] =
        .ok calibrated :=
      logit_eq hcalibration
    obtain ⟨distance, hdistance⟩ := h.ood an features
    dsimp only
    rw [vector_eq h.categories, Except.ok_bind, hvalue, Except.ok_bind, hcalibrated,
      Except.ok_bind, hdistance]
    exact ⟨_, rfl⟩

/-- **Calibration and features stay in range.** Each probability is in one bin of `ece`, and the error is
between 0 and 1. Training is refused for its folds or by a check only, never for a confidence out of its
bounds; and a trained router encodes all features alike, with one 1 in each block and as many entries as
the centroid, the scales and the weights have, so that `vector`, `ood` and `estimate` never raise. -/
theorem router_in_range (an : Analysis K) :
    (∀ probabilities labels : List K, probabilities ≠ [] → probabilities.length = labels.length →
      (∀ p ∈ probabilities, 0 ≤ p ∧ p ≤ 1) → (∀ y ∈ labels, 0 ≤ y ∧ y ≤ 1) →
      (∀ p ∈ probabilities, ∃! index : ℕ, index < 10 ∧ bin p = index) ∧
        ∃ e, ece probabilities labels = .ok e ∧ 0 ≤ e ∧ e ≤ 1) ∧
    ∀ check training calibration,
      match trainModel an check training calibration with
      | .error e => Refused check training calibration e
      | .ok router =>
        (∀ c ∈ router.classifiers, 0 ≤ c.2.confidence ∧ c.2.confidence ≤ 1) ∧
        ∀ features, ∃ vector : List K, ∃ blocks : List (List K),
          router.vector features = .ok vector ∧ vector = blocks.flatten ∧
          blocks.map List.length = router.vocabulary.map (·.length + 1) ∧
          (∀ b ∈ blocks, b.count 1 = 1 ∧ ∀ x ∈ b, x = 0 ∨ x = 1) ∧
          vector.length = router.centroid.length ∧ vector.length = router.scales.length ∧
          (∀ c ∈ router.classifiers, c.2.weights.length = vector.length + 1) ∧
          (∃ distance, router.ood an features = .ok distance) ∧
          ∀ version, ∃ estimate, router.estimate an features version = .ok estimate := by
  refine ⟨fun probabilities labels hne hlength hp hy =>
    ⟨fun p hmem => existsUnique_bin (hp p hmem).1, ece_range hne hlength hp hy⟩,
    fun check training calibration => ?_⟩
  have htrain : Ensures _ _ (trainModel an check training calibration) :=
    trainModel_ensures check training calibration
  cases hrun : trainModel an check training calibration with
  | error e =>
    rw [hrun] at htrain
    exact htrain
  | ok router =>
    rw [hrun] at htrain
    have htrained : Trained router := htrain
    have hwidth := fun features => length_flatten_blocks (K := K) htrained.categories features
    refine ⟨fun c _ => c.2.confidence_range, fun features => ⟨_, blocks K router.vocabulary features,
      vector_eq htrained.categories features, rfl, length_blocks htrained.categories features,
        fun b hb => ?_,
      (hwidth features).trans htrained.centroid.symm, (hwidth features).trans htrained.scales.symm,
      fun c hc => ?_, htrained.ood an features, htrained.estimate an features⟩⟩
    · obtain ⟨⟨category, known⟩, hpair, rfl⟩ := List.mem_map.1 hb
      exact block_oneHot category (htrained.distinct known (List.of_mem_zip hpair).2)
    · rw [(htrained.classifiers c hc).1, hwidth]

end Train

/-! ## The reals -/

/-- `math`, on the reals. -/
noncomputable def realAnalysis : Analysis ℝ where
  exp := Real.exp
  sqrt := Real.sqrt
  exp_pos := Real.exp_pos
  sqrt_nonneg x _ := Real.sqrt_nonneg x

/-- A row in which a candidate does as well as the foundation. -/
def answered (interactionId task : String) : RoutingRow where
  interactionId
  features := { task, inputTokens := 40 }
  foundationId := "foundation"
  candidates := [("foundation", some { quality := some 1, validationPass := some true
                                       quality_range := by simp }),
    ("small", some { quality := some 1, validationPass := some true, quality_range := by simp })]

/-- A router trained on one row takes features it has not seen. -/
theorem oneRow_in_range :
    ∃ router, trainModel realAnalysis (fun _ _ _ => true) [answered "1" "summary"]
      [answered "2" "summary"] =
        .ok router ∧
      ∃ estimate, router.estimate realAnalysis { task := "translation", inputTokens := 9000 } "small" =
        .ok estimate := by
  have hrange := (router_in_range realAnalysis).2 (fun _ _ _ => true) [answered "1" "summary"]
    [answered "2" "summary"]
  cases hrun : trainModel realAnalysis (fun _ _ _ => true) [answered "1" "summary"]
      [answered "2" "summary"] with
  | error e =>
    rw [hrun] at hrange
    cases hrange with
    | emptySplit h => simp at h
    | foldOverlap h => simp [answered] at h
    | interrupted version calibrating step h => cases h
  | ok router =>
    rw [hrun] at hrange
    obtain ⟨-, hfeatures⟩ := hrange
    obtain ⟨_, _, -, -, -, -, -, -, -, -, hestimate⟩ :=
      hfeatures { task := "translation", inputTokens := 9000 }
    exact ⟨router, rfl, hestimate "small"⟩

end AdaptiveLlm.RouterModel
