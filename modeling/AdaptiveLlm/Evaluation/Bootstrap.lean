import AdaptiveLlm.Evaluation.Stats
import AdaptiveLlm.Lib.Interpolation
import Mathlib.Algebra.BigOperators.Group.List.Basic
import Mathlib.Data.List.GetD
import Mathlib.Data.Finset.Max

set_option autoImplicit false

/-! # The paired bootstrap

`paired_bootstrap` of `evaluation/stats.py`, in exact rationals. The generator enters as the table of the
positions that each resample draws.

Each row of the table is one resample: it names, for every place of the resample, the position of
the pair that is put there. Nothing is assumed of the table but that its positions are in range, so
the results hold of whatever generator is behind it. The percentiles are those of the sorted means,
interpolated between neighbours. Exchanging the samples negates every mean, so it reverses the
sorted list; this is all that antisymmetry takes. -/

namespace AdaptiveLlm

open Interpolation

/-- `PairedComparison`: the mean difference, its interval and the number of pairs. -/
structure PairedComparison where
  meanDelta : Option ℚ := none
  ciLower : Option ℚ := none
  ciUpper : Option ℚ := none
  sampleSize : ℕ
deriving DecidableEq, Repr

/-- What `random.Random(seed)` draws: the position behind the `i`-th of the `k` choices of a resample. -/
structure Resampling where
  position : (seed : ℤ) → (k resample i : ℕ) → ℕ
  position_lt : ∀ seed {k}, 0 < k → ∀ resample i, position seed k resample i < k

/-- `rng.choices(population, k=len(population))`. -/
def Resampling.choices (rng : Resampling) (seed : ℤ) (resample : ℕ) (population : List ℚ) : List ℚ :=
  (List.range population.length).map fun i =>
    population.getD (rng.position seed population.length resample i) 0

/-- `fmean`. -/
def fmean (values : List ℚ) : ℚ := values.sum / values.length

/-- The paired differences. -/
def deltas (candidate baseline : List ℚ) : List ℚ := List.zipWith (· - ·) candidate baseline

/-- The means of the resamples. -/
def resampledMeans (rng : Resampling) (seed : ℤ) (resamples : ℕ) (deltas : List ℚ) : List ℚ :=
  (List.range resamples).map fun r => fmean (rng.choices seed r deltas)

/-- `paired_bootstrap`. -/
def pairedBootstrap (rng : Resampling) (candidate baseline : List ℚ) (confidence : ℚ) (seed : ℤ)
    (resamples : ℕ) : Except String PairedComparison :=
  if candidate.length ≠ baseline.length then .error "unpaired_samples"
  else if ¬ (1 / 2 < confidence ∧ confidence < 1) ∨ resamples < 1 then
    .error "invalid_bootstrap_parameters"
  else
    let deltas := deltas candidate baseline
    if deltas = [] then .ok { sampleSize := 0 }
    else
      let samples := resampledMeans rng seed resamples deltas
      let tail := (1 - confidence) / 2
      match percentile samples tail, percentile samples (1 - tail) with
      | some lower, some upper =>
        .ok { meanDelta := some (fmean deltas), ciLower := some lower, ciUpper := some upper
              sampleSize := deltas.length }
      | _, _ => .error "invalid_percentile"

/-! ## Means -/

theorem fmean_neg (values : List ℚ) : fmean (values.map (-·)) = -fmean values := by
  have hsum : (values.map (-·)).sum = -values.sum := by
    induction values with
    | nil => simp
    | cons v values ih =>
      rw [List.map_cons, List.sum_cons, List.sum_cons, ih]
      ring
  rw [fmean, fmean, hsum, List.length_map, neg_div]

theorem le_sum {values : List ℚ} {bound : ℚ} (h : ∀ v ∈ values, bound ≤ v) :
    bound * values.length ≤ values.sum := by
  induction values with
  | nil => simp
  | cons v values ih =>
    have hv := h v List.mem_cons_self
    have hrest := ih fun w hw => h w (List.mem_cons_of_mem v hw)
    rw [List.sum_cons, List.length_cons]
    push_cast
    linarith

theorem le_fmean {values : List ℚ} {bound : ℚ} (hne : values ≠ []) (h : ∀ v ∈ values, bound ≤ v) :
    bound ≤ fmean values := by
  have hpos : (0 : ℚ) < values.length := by
    exact_mod_cast List.length_pos_iff.2 hne
  exact (le_div_iff₀ hpos).2 (le_sum h)

theorem fmean_le {values : List ℚ} {bound : ℚ} (hne : values ≠ []) (h : ∀ v ∈ values, v ≤ bound) :
    fmean values ≤ bound := by
  have hneg : -bound ≤ fmean (values.map (-·)) := by
    refine le_fmean (by simpa using hne) fun v hv => ?_
    obtain ⟨w, hw, rfl⟩ := List.mem_map.1 hv
    exact neg_le_neg (h w hw)
  rw [fmean_neg] at hneg
  linarith

/-! ## Percentiles

A percentile interpolates between two neighbours of the sorted list. Negation turns the list around
and takes the percentile of a share to that of the complementary share, which is what makes the
interval of a comparison the mirror image of the one with its sides exchanged. -/

/-- The order statistics. -/
def order (values : List ℚ) (k : ℕ) : ℚ := (values.insertionSort (· ≤ ·)).getD k 0

theorem percentile_eq {values : List ℚ} {p : ℚ} (hne : values ≠ []) (h0 : 0 ≤ p) (h1 : p ≤ 1) :
    percentile values p = some (interpolate (order values) ((values.length - 1 : ℕ) * p)) := by
  unfold percentile
  rw [if_neg (by simp [hne, h0, h1])]
  simp only [List.length_insertionSort, Int.floor_toNat, Int.ceil_toNat, interpolate, order]

theorem order_mem {values : List ℚ} {k : ℕ} (hk : k < values.length) : order values k ∈ values := by
  have hsorted : k < (values.insertionSort (· ≤ ·)).length := by rwa [List.length_insertionSort]
  rw [order, List.getD_eq_getElem _ _ hsorted]
  exact (List.mem_insertionSort _).1 (List.getElem_mem hsorted)

theorem order_mono {values : List ℚ} {i j : ℕ} (hij : i ≤ j) (hj : j < values.length) :
    order values i ≤ order values j := by
  have hsorted : j < (values.insertionSort (· ≤ ·)).length := by rwa [List.length_insertionSort]
  rw [order, order, List.getD_eq_getElem _ _ (hij.trans_lt hsorted), List.getD_eq_getElem _ _ hsorted]
  rcases hij.eq_or_lt with rfl | hlt
  · exact le_rfl
  · exact List.pairwise_iff_getElem.1 (List.pairwise_insertionSort (· ≤ ·) values) _ _ _ _ hlt

/-- Sorting the negated values turns the list around. -/
theorem order_neg {values : List ℚ} {k : ℕ} (hk : k ≤ values.length - 1) (hne : values ≠ []) :
    order (values.map (-·)) k = -order values (values.length - 1 - k) := by
  have hpos := List.length_pos_iff.2 hne
  have hsort : (values.map (-·)).insertionSort (· ≤ ·) =
      ((values.insertionSort (· ≤ ·)).map (-·)).reverse := by
    refine List.Perm.eq_of_pairwise (fun _ _ _ _ hab hba => le_antisymm hab hba)
      (List.pairwise_insertionSort _ _) ?_ ?_
    · rw [List.pairwise_reverse, List.pairwise_map]
      exact (List.pairwise_insertionSort (· ≤ ·) values).imp fun h => neg_le_neg h
    · calc (values.map (-·)).insertionSort (· ≤ ·)
          |>.Perm (values.map (-·)) := List.perm_insertionSort _ _
        _ |>.Perm ((values.insertionSort (· ≤ ·)).map (-·)) :=
          ((List.perm_insertionSort _ values).map _).symm
        _ |>.Perm _ := (List.reverse_perm _).symm
  have hlen : k < ((values.insertionSort (· ≤ ·)).map (-·)).reverse.length := by
    rw [List.length_reverse, List.length_map, List.length_insertionSort]
    omega
  rw [order, hsort, List.getD_eq_getElem _ _ hlen, List.getElem_reverse, List.getElem_map, order,
    List.getD_eq_getElem _ _ (by rw [List.length_insertionSort]; omega)]
  simp only [List.length_map, List.length_insertionSort]

theorem percentile_neg {values : List ℚ} {p : ℚ} (hne : values ≠ []) (h0 : 0 ≤ p) (h1 : p ≤ 1) :
    percentile (values.map (-·)) (1 - p) = (percentile values p).map (-·) := by
  have hle : ((values.length - 1 : ℕ) : ℚ) * p ≤ (values.length - 1 : ℕ) :=
    mul_le_of_le_one_right (Nat.cast_nonneg _) h1
  have hmirror : ((values.length - 1 : ℕ) : ℚ) * (1 - p) =
      (values.length - 1 : ℕ) - ((values.length - 1 : ℕ) : ℚ) * p := by ring
  have hnonneg : 0 ≤ ((values.length - 1 : ℕ) : ℚ) * p := mul_nonneg (Nat.cast_nonneg _) h0
  rw [percentile_eq (by simpa using hne) (by linarith) (by linarith), percentile_eq hne h0 h1,
    List.length_map, hmirror, Option.map_some, ← interpolate_neg hnonneg hle]
  refine congrArg some (interpolate_congr (fun k hk => order_neg hk hne) ?_)
  linarith

theorem percentile_mono {values : List ℚ} {p p' v v' : ℚ} (h0 : 0 ≤ p) (hpp' : p ≤ p') (h1 : p' ≤ 1)
    (hv : percentile values p = some v) (hv' : percentile values p' = some v') : v ≤ v' := by
  have hne : values ≠ [] := by
    rintro rfl
    simp [percentile] at hv
  have hpos := List.length_pos_iff.2 hne
  have hscale : (0 : ℚ) ≤ (values.length - 1 : ℕ) := Nat.cast_nonneg _
  rw [percentile_eq hne h0 (hpp'.trans h1), Option.some.injEq] at hv
  rw [percentile_eq hne (h0.trans hpp') h1, Option.some.injEq] at hv'
  rw [← hv, ← hv']
  exact interpolate_mono (fun i j hij hj => order_mono hij (by omega)) (mul_nonneg hscale h0)
    (mul_le_mul_of_nonneg_left hpp' hscale) (mul_le_of_le_one_right hscale h1)

/-- A percentile lies between two of the values. -/
theorem percentile_between {values : List ℚ} {p v : ℚ} (h0 : 0 ≤ p) (h1 : p ≤ 1)
    (hv : percentile values p = some v) : (∃ w ∈ values, w ≤ v) ∧ ∃ w ∈ values, v ≤ w := by
  have hne : values ≠ [] := by
    rintro rfl
    simp [percentile] at hv
  have hpos := List.length_pos_iff.2 hne
  have hscale : (0 : ℚ) ≤ (values.length - 1 : ℕ) := Nat.cast_nonneg _
  have hle : ((values.length - 1 : ℕ) : ℚ) * p ≤ (values.length - 1 : ℕ) :=
    mul_le_of_le_one_right hscale h1
  have hmono : ∀ i j, i ≤ j → j ≤ values.length - 1 → order values i ≤ order values j :=
    fun i j hij hj => order_mono hij (by omega)
  rw [percentile_eq hne h0 h1, Option.some.injEq] at hv
  subst hv
  have hfloor := Nat.floor_le_of_le hle
  have hceil := Nat.ceil_le.2 hle
  exact ⟨⟨_, order_mem (by omega), floor_le_interpolate hmono (mul_nonneg hscale h0) hle⟩,
    ⟨_, order_mem (by omega), interpolate_le_ceil hmono hle⟩⟩

/-! ## The bootstrap

A resample is drawn from the list of differences, not from the two samples, so to exchange the
samples is to negate the differences. The means are sorted before the percentiles are taken, and
negation reverses their order. -/

theorem deltas_swap {candidate baseline : List ℚ} :
    deltas baseline candidate = (deltas candidate baseline).map (-·) := by
  rw [deltas, deltas, List.map_zipWith, List.zipWith_comm]
  simp only [neg_sub]

theorem length_deltas {candidate baseline : List ℚ} (h : candidate.length = baseline.length) :
    (deltas candidate baseline).length = candidate.length := by
  rw [deltas, List.length_zipWith, h, min_self]

namespace Resampling

variable (rng : Resampling) (seed : ℤ) (resample : ℕ)

theorem choices_neg (population : List ℚ) :
    rng.choices seed resample (population.map (-·)) = (rng.choices seed resample population).map (-·) := by
  unfold choices
  rw [List.map_map, List.length_map]
  refine List.map_congr_left fun i hi => ?_
  have hposition := rng.position_lt seed (Nat.zero_lt_of_lt (List.mem_range.1 hi)) resample i
  rw [List.getD_eq_getElem _ _ (by rwa [List.length_map]), List.getElem_map, Function.comp_apply,
    List.getD_eq_getElem _ _ hposition]

variable {rng seed resample}

theorem mem_of_mem_choices {population : List ℚ} {v : ℚ} (h : v ∈ rng.choices seed resample population) :
    v ∈ population := by
  obtain ⟨i, hi, rfl⟩ := List.mem_map.1 h
  have hposition := rng.position_lt seed (Nat.zero_lt_of_lt (List.mem_range.1 hi)) resample i
  rw [List.getD_eq_getElem _ _ hposition]
  exact List.getElem_mem hposition

theorem choices_ne_nil {population : List ℚ} (h : population ≠ []) :
    rng.choices seed resample population ≠ [] := by
  simpa [choices] using h

end Resampling

theorem resampledMeans_neg (rng : Resampling) (seed : ℤ) (resamples : ℕ) (deltas : List ℚ) :
    resampledMeans rng seed resamples (deltas.map (-·)) =
      (resampledMeans rng seed resamples deltas).map (-·) := by
  unfold resampledMeans
  rw [List.map_map]
  refine List.map_congr_left fun r _ => ?_
  rw [Resampling.choices_neg, fmean_neg]
  rfl

theorem between_of_mem_resampledMeans {rng : Resampling} {seed : ℤ} {resamples : ℕ} {deltas : List ℚ}
    {low high mean : ℚ} (hne : deltas ≠ []) (hlow : ∀ d ∈ deltas, low ≤ d) (hhigh : ∀ d ∈ deltas, d ≤ high)
    (h : mean ∈ resampledMeans rng seed resamples deltas) : low ≤ mean ∧ mean ≤ high := by
  obtain ⟨r, _, rfl⟩ := List.mem_map.1 h
  exact ⟨le_fmean (Resampling.choices_ne_nil hne) fun d hd => hlow d (Resampling.mem_of_mem_choices hd),
    fmean_le (Resampling.choices_ne_nil hne) fun d hd => hhigh d (Resampling.mem_of_mem_choices hd)⟩

/-- What the bootstrap returns for paired samples. -/
theorem pairedBootstrap_eq (rng : Resampling) {candidate baseline : List ℚ} {confidence : ℚ} (seed : ℤ)
    {resamples : ℕ} (hlength : candidate.length = baseline.length) (hne : candidate ≠ [])
    (hconfidence : 1 / 2 < confidence ∧ confidence < 1) (hresamples : 1 ≤ resamples) :
    ∃ lower upper,
      percentile (resampledMeans rng seed resamples (deltas candidate baseline)) ((1 - confidence) / 2) =
        some lower ∧
      percentile (resampledMeans rng seed resamples (deltas candidate baseline))
        (1 - (1 - confidence) / 2) = some upper ∧
      pairedBootstrap rng candidate baseline confidence seed resamples =
        .ok { meanDelta := some (fmean (deltas candidate baseline)), ciLower := some lower
              ciUpper := some upper, sampleSize := candidate.length } := by
  obtain ⟨hlow, hhigh⟩ := hconfidence
  have hdeltas : deltas candidate baseline ≠ [] := by
    rwa [← List.length_pos_iff, length_deltas hlength, List.length_pos_iff]
  have hmeans : resampledMeans rng seed resamples (deltas candidate baseline) ≠ [] := by
    simpa [resampledMeans] using Nat.one_le_iff_ne_zero.1 hresamples
  obtain ⟨lower, hlower⟩ := Option.isSome_iff_exists.1 (percentile_isSome hmeans
    (show 0 ≤ (1 - confidence) / 2 by linarith) (by linarith))
  obtain ⟨upper, hupper⟩ := Option.isSome_iff_exists.1 (percentile_isSome hmeans
    (show 0 ≤ 1 - (1 - confidence) / 2 by linarith) (by linarith))
  refine ⟨lower, upper, hlower, hupper, ?_⟩
  unfold pairedBootstrap
  rw [if_neg (by simpa using hlength),
    if_neg (fun h => h.elim (fun h => h ⟨hlow, hhigh⟩) (Nat.not_lt.2 hresamples))]
  dsimp only
  rw [if_neg hdeltas, hlower, hupper]
  simp only [length_deltas hlength]

/-- A comparison with an interval has counted every pair. -/
theorem sampleSize_of_pairedBootstrap {rng : Resampling} {candidate baseline : List ℚ} {confidence : ℚ}
    {seed : ℤ} {resamples : ℕ} {comparison : PairedComparison} {lower : ℚ}
    (h : pairedBootstrap rng candidate baseline confidence seed resamples = .ok comparison)
    (hlower : comparison.ciLower = some lower) : comparison.sampleSize = candidate.length := by
  unfold pairedBootstrap at h
  split_ifs at h with hlength hparameters
  dsimp only at h
  split_ifs at h with hempty
  · cases h
    cases hlower
  · split at h
    · cases h
      exact length_deltas (not_not.1 hlength)
    · cases h

/-- **The bootstrap is antisymmetric and bounded.** Exchanging the samples negates the mean difference and
    exchanges and negates the bounds, and these lie, in order, between the smallest and the largest paired
    difference. -/
theorem pairedBootstrap_antisymm_bounded (rng : Resampling) {candidate baseline : List ℚ} {confidence : ℚ}
    (seed : ℤ) {resamples : ℕ} (hlength : candidate.length = baseline.length) (hne : candidate ≠ [])
    (hconfidence : 1 / 2 < confidence ∧ confidence < 1) (hresamples : 1 ≤ resamples) :
    ∃ mean lower upper,
      pairedBootstrap rng candidate baseline confidence seed resamples =
        .ok { meanDelta := some mean, ciLower := some lower, ciUpper := some upper
              sampleSize := candidate.length } ∧
      pairedBootstrap rng baseline candidate confidence seed resamples =
        .ok { meanDelta := some (-mean), ciLower := some (-upper), ciUpper := some (-lower)
              sampleSize := candidate.length } ∧
      mean = fmean (deltas candidate baseline) ∧
      (∃ smallest ∈ deltas candidate baseline,
        (∀ d ∈ deltas candidate baseline, smallest ≤ d) ∧ smallest ≤ lower) ∧
      lower ≤ upper ∧
      ∃ largest ∈ deltas candidate baseline,
        (∀ d ∈ deltas candidate baseline, d ≤ largest) ∧ upper ≤ largest := by
  have htail : 0 ≤ (1 - confidence) / 2 := by linarith [hconfidence.2]
  have htail' : (1 - confidence) / 2 ≤ 1 - (1 - confidence) / 2 := by linarith [hconfidence.1]
  have hdeltas : deltas candidate baseline ≠ [] := by
    rwa [← List.length_pos_iff, length_deltas hlength, List.length_pos_iff]
  obtain ⟨lower, upper, hlower, hupper, hrun⟩ :=
    pairedBootstrap_eq rng seed hlength hne hconfidence hresamples
  obtain ⟨lower', upper', hlower', hupper', hrun'⟩ :=
    pairedBootstrap_eq rng seed hlength.symm (by rwa [← List.length_pos_iff, ← hlength,
      List.length_pos_iff]) hconfidence hresamples
  -- the resamples of the other side are the same, negated
  have hmeans : resampledMeans rng seed resamples (deltas candidate baseline) ≠ [] := by
    simpa [resampledMeans] using Nat.one_le_iff_ne_zero.1 hresamples
  have hother : resampledMeans rng seed resamples (deltas baseline candidate) =
      (resampledMeans rng seed resamples (deltas candidate baseline)).map (-·) := by
    rw [deltas_swap, resampledMeans_neg]
  have hneg_upper : upper' = -lower := by
    have h := percentile_neg hmeans htail (by linarith)
    rw [← hother, hupper', hlower] at h
    simpa using h
  have hneg_lower : lower' = -upper := by
    have h := percentile_neg hmeans (p := 1 - (1 - confidence) / 2) (by linarith) (by linarith)
    rw [sub_sub_cancel, ← hother, hlower', hupper] at h
    simpa using h
  have hnonempty := List.toFinset_nonempty_iff _ |>.2 hdeltas
  obtain ⟨smallest, hsmallest, hleast⟩ := Finset.exists_min_image _ id hnonempty
  obtain ⟨largest, hlargest, hgreatest⟩ := Finset.exists_max_image _ id hnonempty
  simp only [List.mem_toFinset, id] at hsmallest hleast hlargest hgreatest
  refine ⟨fmean (deltas candidate baseline), lower, upper, hrun, ?_, rfl, ⟨smallest, hsmallest, hleast, ?_⟩,
    percentile_mono htail htail' (by linarith) hlower hupper, largest, hlargest, hgreatest, ?_⟩
  · rw [hrun', hneg_lower, hneg_upper, hlength, deltas_swap, fmean_neg]
  · obtain ⟨⟨mean, hmean, hle⟩, -⟩ := percentile_between htail (by linarith) hlower
    exact (between_of_mem_resampledMeans hdeltas hleast hgreatest hmean).1.trans hle
  · obtain ⟨-, mean, hmean, hle⟩ := percentile_between (htail.trans htail') (by linarith) hupper
    exact hle.trans (between_of_mem_resampledMeans hdeltas hleast hgreatest hmean).2

/-- Every other resample draws the first position again and again. -/
def firstRepeated : Resampling where
  position := fun _ k resample i => if resample % 2 = 0 ∧ i < k then i else 0
  position_lt := fun _ k hk _ i => by
    split
    · exact (‹_ ∧ i < k›).2
    · exact hk

theorem twoItems_bounded :
    ∃ mean lower upper,
      pairedBootstrap firstRepeated [1, 3] [0, 5] (9 / 10) 23 3 =
        .ok { meanDelta := some mean, ciLower := some lower, ciUpper := some upper, sampleSize := 2 } ∧
      pairedBootstrap firstRepeated [0, 5] [1, 3] (9 / 10) 23 3 =
        .ok { meanDelta := some (-mean), ciLower := some (-upper), ciUpper := some (-lower)
              sampleSize := 2 } ∧
      mean = fmean (deltas [1, 3] [0, 5]) ∧
      (∃ smallest ∈ deltas [1, 3] [0, 5], (∀ d ∈ deltas [1, 3] [0, 5], smallest ≤ d) ∧ smallest ≤ lower) ∧
      lower ≤ upper ∧
      ∃ largest ∈ deltas [1, 3] [0, 5], (∀ d ∈ deltas [1, 3] [0, 5], d ≤ largest) ∧ upper ≤ largest :=
  pairedBootstrap_antisymm_bounded firstRepeated 23 rfl (by simp) (by norm_num) (by norm_num)

end AdaptiveLlm
