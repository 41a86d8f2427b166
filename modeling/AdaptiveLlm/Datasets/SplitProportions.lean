import AdaptiveLlm.Datasets.JointSplit
import AdaptiveLlm.Lib.Filling
import Mathlib.Algebra.BigOperators.Ring.Finset

set_option autoImplicit false

/-! # The sizes of the splits

Without a time split a component goes by the share of the examples placed before it, so train is filled
up to four fifths of them, and train with validation up to nine tenths. Each is overshot by the
component that crosses the target, however large that is, also where it jumps over the validation band.

A component is placed by what was placed before it, not by what it would add. Therefore the bounds
are one-sided: a band that was filled to its share is never below it, and above it by less than the
component that crossed. Small datasets can leave validation or test empty, which the statement does
not hide. The filling itself is a fact about lists of sizes and is in `Lib/Filling.lean`. -/

namespace AdaptiveLlm

open Relation (EqvGen)
open Filling (total Crosses)

section Placed

variable {α : Type} {spec : DatasetSpecification} {n : ℕ} {get : α → BuiltExample}

/-- The number of examples of a placed component. -/
def componentSize (c : List α × Split) : ℚ := c.1.length

theorem total_componentSize (placed : List (List α × Split)) :
    total componentSize placed = placedSize placed := by
  rw [total, placedSize, Nat.cast_list_sum, List.map_map]
  rfl

/-- The examples of a band of splits. -/
def bandSize (placed : List (List α × Split)) (band : Split → Bool) : ℕ :=
  placedSize (placed.filter fun c => band c.2)

theorem length_placedIn (placed : List (List α × Split)) (split : Split) :
    (placedIn get placed split).length = bandSize placed fun s => decide (s = split) := by
  simp [placedIn, bandSize, placedSize, List.length_flatMap]

/-- Train, or train and validation. -/
def IsBand (share : ℚ) (band : Split → Bool) : Prop :=
  ∀ fraction : ℚ, band (if fraction < 4 / 5 then .train
    else if fraction < 9 / 10 then .validation
    else .test) = true ↔ fraction < share

theorem isBand_train : IsBand (4 / 5) fun s => decide (s = .train) := by
  intro fraction
  split_ifs with h h'
  · simp [h]
  · simp [h]
  · simp [h]

theorem isBand_validation : IsBand (9 / 10) fun s => decide (s = .train ∨ s = .validation) := by
  intro fraction
  split_ifs with h h'
  · simp only [true_or, decide_true, true_iff]
    linarith
  · simp [h']
  · simp [h']

/-- By running totals. -/
theorem PlacedInTurn.mem_band_iff {placed : List (List α × Split)} (h : PlacedInTurn spec n get placed)
    (hspec : spec.timeSplit = none) (hpos : 0 < n) {share : ℚ} {band : Split → Bool}
    (hband : IsBand share band) (before : List (List α × Split)) (c : List α × Split)
    (after : List (List α × Split)) (heq : placed = before ++ c :: after) :
    band c.2 = true ↔ total componentSize before < share * n := by
  have hn : (0 : ℚ) < n := by exact_mod_cast hpos
  have hrule := h before c after heq
  rw [splitOf, hspec] at hrule
  dsimp only at hrule
  rw [Option.some.injEq, max_eq_right hpos] at hrule
  rw [← hrule, hband, div_lt_iff₀ hn, total_componentSize]

/-- **A band fills up to its share**, and overshoots it by less than the component that crosses it. -/
theorem PlacedInTurn.fills {placed : List (List α × Split)} (h : PlacedInTurn spec n get placed)
    (hspec : spec.timeSplit = none) (hn : placedSize placed = n) (hpos : 0 < n) {share : ℚ}
    (h0 : 0 < share) (h1 : share ≤ 1) {band : Split → Bool} (hband : IsBand share band) :
    ∃ before c after, placed = before ++ c :: after ∧
      placed.filter (fun c => band c.2) = before ++ [c] ∧
      (placedSize before : ℚ) < share * n ∧
      share * n ≤ bandSize placed band ∧
      bandSize placed band - share * n < c.1.length := by
  have hn0 : (0 : ℚ) < n := by exact_mod_cast hpos
  have hreach : share * n ≤ total componentSize placed := by
    rw [total_componentSize, hn]
    exact mul_le_of_le_one_left hn0.le h1
  obtain ⟨before, c, after, hcross⟩ := Filling.exists_crosses (mul_pos h0 hn0) hreach
  have hfilter := hcross.filter_eq (fun a => Nat.cast_nonneg _) (fun c => band c.2)
    (h.mem_band_iff hspec hpos hband)
  have hsize : (bandSize placed band : ℚ) = total componentSize (before ++ [c]) := by
    rw [bandSize, hfilter, total_componentSize]
  refine ⟨before, c, after, hcross.eq, hfilter, ?_, ?_, ?_⟩
  · rw [← total_componentSize]
    exact hcross.below
  · rw [hsize, Filling.total_append, Filling.total_cons, Filling.total_nil, add_zero]
    exact hcross.reaches
  · rw [hsize]
    exact hcross.overshoot

end Placed

theorem bandSize_validation {α : Type} (placed : List (List α × Split)) :
    bandSize placed (fun s => decide (s = .train ∨ s = .validation)) =
      bandSize placed (fun s => decide (s = .train)) + bandSize placed fun s =>
          decide (s = .validation) := by
  induction placed with
  | nil => rfl
  | cons c placed ih =>
    obtain ⟨c, split⟩ := c
    cases split <;> simp [bandSize, placedSize] at ih ⊢ <;> omega

/-- **The proportions of the splits.** Without a time split every component of the examples goes whole to
one split, train gets at least four fifths of the examples and train with validation nine tenths, and each
of these totals overshoots its target by less than the component with which it reaches it. -/
theorem splitExamples_proportions (rng : SeededShuffle (List BuiltExample)) (examples : List BuiltExample)
    {spec : DatasetSpecification} (hspec : spec.timeSplit = none) :
    ∃ result, splitExamples rng examples spec = some result ∧
      (4 / 5 * examples.length : ℚ) ≤ (result .train).length ∧
      (9 / 10 * examples.length : ℚ) ≤ (result .train).length + (result .validation).length ∧
      ∃ placed : List (List (Fin (sortExamples examples).length) × Split),
        Grouping.Classes (EqvGen (ShareAt (sortExamples examples))) (List.finRange _)
          (placed.map (·.1)) ∧
        (∀ split, (result split).Perm (placedIn (sortExamples examples).get placed split)) ∧
        (examples ≠ [] →
          (∃ before c after, placed = before ++ c :: after ∧
            placed.filter (fun c => c.2 = .train) = before ++ [c] ∧
            (placedSize before : ℚ) < 4 / 5 * examples.length ∧
            ((result .train).length : ℚ) - 4 / 5 * examples.length < c.1.length) ∧
          ∃ before c after, placed = before ++ c :: after ∧
            placed.filter (fun c => c.2 = .train ∨ c.2 = .validation) = before ++ [c] ∧
            (placedSize before : ℚ) < 9 / 10 * examples.length ∧
            ((result .train).length : ℚ) + (result .validation).length - 9 / 10 * examples.length <
              c.1.length) := by
  obtain ⟨result, hrun, placed, hclasses, hsplit, hturn⟩ := splitExamples_placed rng examples spec
  have hlength : (sortExamples examples).length = examples.length := (sortExamples_perm examples).length_eq
  have hcast : ((sortExamples examples).length : ℚ) = examples.length := by rw [hlength]
  have htotal : placedSize placed = (sortExamples examples).length := by
    have hcover := hclasses.cover.length_eq
    rw [List.length_flatten, List.map_map, List.length_finRange] at hcover
    exact hcover
  have htrain : (result .train).length = bandSize placed fun s => decide (s = .train) :=
    (hsplit .train).length_eq.trans (length_placedIn placed .train)
  have hboth : (result .train).length + (result .validation).length =
      bandSize placed fun s => decide (s = .train ∨ s = .validation) := by
    rw [bandSize_validation, htrain, (hsplit .validation).length_eq, length_placedIn]
  rcases eq_or_ne examples [] with rfl | hne
  · exact ⟨result, hrun, by simp, by simpa using by positivity, placed, hclasses, hsplit, by simp⟩
  · have hpos : 0 < (sortExamples examples).length := hlength ▸ List.length_pos_iff.2 hne
    obtain ⟨before, c, after, heq, hfilter, hbelow, hreach, hover⟩ :=
      hturn.fills hspec htotal hpos (by norm_num) (by norm_num) isBand_train
    obtain ⟨before', c', after', heq', hfilter', hbelow', hreach', hover'⟩ :=
      hturn.fills hspec htotal hpos (by norm_num) (by norm_num) isBand_validation
    have hboth' : ((result .train).length : ℚ) + (result .validation).length =
        bandSize placed fun s => decide (s = .train ∨ s = .validation) := by exact_mod_cast hboth
    rw [hcast] at hbelow hbelow'
    rw [← htrain, hcast] at hreach hover
    rw [← hboth', hcast] at hreach' hover'
    exact ⟨result, hrun, hreach, hreach', placed, hclasses, hsplit, fun _ =>
      ⟨⟨before, c, after, heq, hfilter, hbelow, hover⟩,
        before', c', after', heq', hfilter', hbelow', hover'⟩⟩

/-- An example of a document family. -/
def inFamily (interactionId family : String) : BuiltExample where
  interactionId
  tenantId := "acme"
  subject := none
  families := [family]
  startedAt := 0
  targetSource := "production"
  language := "en"
  exactHash := interactionId
  text := ""
  row := []

theorem threeExamples_proportions :
    ∃ result, splitExamples ⟨fun _ l => l, fun _ _ => .refl _⟩
        [inFamily "1" "f", inFamily "2" "g", inFamily "3" "f"] {} = some result ∧
      3 ≤ (result .train).length := by
  obtain ⟨result, hrun, htrain, -⟩ := splitExamples_proportions ⟨fun _ l => l, fun _ _ => .refl _⟩
    [inFamily "1" "f", inFamily "2" "g", inFamily "3" "f"]
    (show ({} : DatasetSpecification).timeSplit = none from rfl)
  refine ⟨result, hrun, ?_⟩
  have hlt : (2 : ℚ) < (result .train).length := lt_of_lt_of_le (by norm_num) htrain
  exact_mod_cast hlt

end AdaptiveLlm
