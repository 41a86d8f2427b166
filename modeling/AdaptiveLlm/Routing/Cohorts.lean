import AdaptiveLlm.Lib.Except
import AdaptiveLlm.Lib.Grouping
import AdaptiveLlm.Routing.Canary
import Mathlib.Algebra.BigOperators.Ring.Finset
import Mathlib.Data.List.Perm.Subperm
import Mathlib.Tactic.FieldSimp

set_option autoImplicit false

/-! # Matched cohorts

`matched` of `routing/canary.py`, in exact rationals: the observations of two arms, paired in the order of
their times within a tenant, task, risk, language and context, by their quality or by their cost. The cost
of what failed is spread over the successes of its arm in the group.

Rows are grouped by the five labels, each arm sorted by time, and the first `k` of both paired,
where `k` is the smaller number. Costs are shared out before that: the share of a success is the
cost of all failures of its arm and group divided by the number of its successes, so the sum over
the successes is the cost of the whole arm. -/

namespace AdaptiveLlm

namespace RouteControl

/-- An observation with its quality, which only the pairing reads. -/
structure ScoredObservation extends LiveObservation where
  quality : ℚ
  deriving DecidableEq

/-- What two observations have to agree on to be compared. -/
abbrev CohortKey := String × String × RiskTier × String × Bool

namespace ScoredObservation

variable (r r' : ScoredObservation)

/-- The key of the group. -/
def cohort : CohortKey :=
  (r.tenantId, r.features.task, r.features.riskTier, r.features.language, r.features.contextSupplied)

/-- The order of the sort key `(created_at, interaction_id)`. -/
def le : Bool :=
  r.createdAt < r'.createdAt || r.createdAt = r'.createdAt && r.interactionId ≤ r'.interactionId

end ScoredObservation

/-- `x / n`, which Python refuses to evaluate for `n = 0`. -/
def divide (x n : ℕ) : Except String ℚ :=
  if n = 0 then .error "ZeroDivisionError" else .ok (x / n)

/-- What the observations of one arm of a group count, in the order of their times. -/
def armValues (costs : Bool) (rows : List ScoredObservation) : Except String (List ℚ) :=
  let ordered := rows.mergeSort ScoredObservation.le
  if costs then
    let successes := ordered.filter (·.success)
    let failedCost := ((ordered.filter (!·.success)).map (·.totalCostMicros)).sum
    successes.mapM fun r => do
      let share ← divide failedCost successes.length
      .ok (r.totalCostMicros + share)
  else .ok (ordered.map (·.quality))

/-- The dictionary `groups`, with the two arms of each group. -/
def cohorts (left right : List ScoredObservation) :
    List (CohortKey × List ScoredObservation × List ScoredObservation) :=
  right.foldl (fun groups r => Grouping.update r.cohort ([], []) (fun arms =>
    (arms.1, arms.2 ++ [r])) groups)
    (left.foldl (fun groups r =>
      Grouping.update r.cohort ([], []) (fun arms => (arms.1 ++ [r], arms.2)) groups) [])

/-- The body of the loop over the groups. -/
def addCohort (costs : Bool) (acc : List ℚ × List ℚ)
    (group : CohortKey × List ScoredObservation × List ScoredObservation) :
    Except String (List ℚ × List ℚ) := do
  let x ← armValues costs group.2.1
  let y ← armValues costs group.2.2
  -- `zip` stops with the shorter arm
  .ok (acc.1 ++ (x.zip y).map (·.1), acc.2 ++ (x.zip y).map (·.2))

/-- `matched`. -/
def matched (left right : List ScoredObservation) (costs : Bool) : Except String (List ℚ × List ℚ) :=
  (cohorts left right).foldlM (addCohort costs) ([], [])

/-! ## The arms of a group -/

/-- The observations of an arm that belong to a group. -/
def inCohort (rows : List ScoredObservation) (k : CohortKey) : List ScoredObservation :=
  rows.filter (·.cohort = k)

/-- Counted by its cost, only a success is paired. -/
def usable (costs : Bool) (r : ScoredObservation) : Bool := !costs || r.success

/-- What an observation counts among those of its arm in the group. -/
def value (costs : Bool) (rows : List ScoredObservation) (r : ScoredObservation) : ℚ :=
  if costs then
    r.totalCostMicros + (((rows.filter (!·.success)).map (·.totalCostMicros)).sum : ℕ) /
      (rows.countP (·.success) : ℕ)
  else r.quality

/-- The observations of an arm that are paired, in the order of their times. -/
def candidates (costs : Bool) (rows : List ScoredObservation) : List ScoredObservation :=
  (rows.mergeSort ScoredObservation.le).filter (usable costs)

theorem candidates_perm (costs : Bool) (rows : List ScoredObservation) :
    (candidates costs rows).Perm (rows.filter (usable costs)) :=
  (List.mergeSort_perm rows _).filter _

theorem foldl_left (rows : List ScoredObservation)
    (arms : List ScoredObservation × List ScoredObservation) :
    rows.foldl (fun arms r => (arms.1 ++ [r], arms.2)) arms = (arms.1 ++ rows, arms.2) := by
  induction rows generalizing arms with
  | nil => simp
  | cons r rows ih => simp [ih]

theorem foldl_right (rows : List ScoredObservation)
    (arms : List ScoredObservation × List ScoredObservation) :
    rows.foldl (fun arms r => (arms.1, arms.2 ++ [r])) arms = (arms.1, arms.2 ++ rows) := by
  induction rows generalizing arms with
  | nil => simp
  | cons r rows ih => simp [ih]

/-- The arms of a group are what the two lists have of it. -/
theorem get_cohorts (left right : List ScoredObservation) (k : CohortKey) :
    Grouping.get ([], []) (cohorts left right) k = (inCohort left k, inCohort right k) := by
  rw [cohorts, Grouping.get_foldl_update ScoredObservation.cohort, foldl_right,
    Grouping.get_foldl_update ScoredObservation.cohort, foldl_left, Grouping.get_nil]
  rfl

theorem nodup_cohorts (left right : List ScoredObservation) : ((cohorts left right).map (·.1)).Nodup :=
  Grouping.nodup_keys_foldl_update _ _ _ _ (Grouping.nodup_keys_foldl_update _ _ _ _ List.nodup_nil)

/-! ## The values of an arm

By quality the value of an observation is its success. By cost it is what the success has cost
itself, with its share of what the failures of its arm in the group have cost. -/

theorem usable_false : usable false = fun _ => true := rfl

theorem usable_true : usable true = fun r => r.success := rfl

theorem value_false (rows : List ScoredObservation) : value false rows = fun r => r.quality := rfl

theorem value_true (rows : List ScoredObservation) : value true rows = fun (r : ScoredObservation) =>
    (r.totalCostMicros : ℚ) + (((rows.filter (!·.success)).map (·.totalCostMicros)).sum : ℕ) /
      (rows.countP (·.success) : ℕ) := rfl

theorem candidates_costs (rows : List ScoredObservation) :
    candidates true rows = (rows.mergeSort ScoredObservation.le).filter (·.success) := by
  rw [candidates, usable_true]

theorem length_candidates_costs (rows : List ScoredObservation) :
    (candidates true rows).length = rows.countP (·.success) := by
  rw [(candidates_perm true rows).length_eq, List.countP_eq_length_filter, usable_true]

/-- **No division by zero**: the share of a success is evaluated where there is one. -/
theorem armValues_eq (costs : Bool) (rows : List ScoredObservation) :
    armValues costs rows = .ok ((candidates costs rows).map (value costs rows)) := by
  cases costs with
  | false => simp [armValues, candidates, usable_false, value_false]
  | true =>
    have hfailed : (((rows.mergeSort ScoredObservation.le).filter (!·.success)).map
        (·.totalCostMicros)).sum = ((rows.filter (!·.success)).map (·.totalCostMicros)).sum :=
      (((List.mergeSort_perm rows _).filter _).map _).sum_eq
    rw [armValues, if_pos rfl, ← candidates_costs]
    refine Except.mapM_eq_ok_map fun r hr => ?_
    have hpos : (candidates true rows).length ≠ 0 := List.length_pos_of_mem hr |>.ne'
    rw [divide, if_neg hpos, hfailed, length_candidates_costs]
    rfl

/-- **The cost of an arm is shared out** among its successes, where there is one. -/
theorem sum_value (rows : List ScoredObservation) (h : 0 < rows.countP (·.success)) :
    ((candidates true rows).map (value true rows)).sum = ((rows.map (·.totalCostMicros)).sum : ℕ) := by
  have hne : (rows.countP (·.success) : ℚ) ≠ 0 := by exact_mod_cast h.ne'
  have hsplit : (rows.map (·.totalCostMicros)).sum =
      ((rows.filter (·.success)).map (·.totalCostMicros)).sum +
        ((rows.filter (!·.success)).map (·.totalCostMicros)).sum := by
    rw [← List.sum_append, ← List.map_append]
    exact ((List.filter_append_perm (·.success) rows).map (·.totalCostMicros)).sum_eq.symm
  have hsuccesses : ((candidates true rows).map fun r => (r.totalCostMicros : ℚ)).sum =
      (((rows.filter (·.success)).map (·.totalCostMicros)).sum : ℕ) := by
    rw [Nat.cast_list_sum, List.map_map]
    exact ((candidates_perm true rows).map _).sum_eq
  rw [value_true, List.sum_map_add, hsuccesses, List.map_const', List.sum_replicate,
    length_candidates_costs, hsplit, nsmul_eq_mul, mul_div_cancel₀ _ hne]
  push_cast
  ring

/-! ## The pairs

The pairs of a group are the two sorted arms side by side, as far as the shorter one goes. So an
observation is in as many pairs as it was observed, at most. -/

/-- The pairs of a group. -/
def pairsOf (costs : Bool) (group : CohortKey × List ScoredObservation × List ScoredObservation) :
    List (ScoredObservation × ScoredObservation) :=
  (candidates costs group.2.1).zip (candidates costs group.2.2)

/-- All pairs. -/
def pairs (left right : List ScoredObservation) (costs : Bool) :
    List (ScoredObservation × ScoredObservation) :=
  (cohorts left right).flatMap (pairsOf costs)

theorem mem_inCohort {rows : List ScoredObservation} {k : CohortKey} {r : ScoredObservation}
    (h : r ∈ inCohort rows k) : r ∈ rows ∧ r.cohort = k := by
  simpa [inCohort] using h

theorem mem_of_mem_candidates {costs : Bool} {rows : List ScoredObservation} {r : ScoredObservation}
    (h : r ∈ candidates costs rows) : r ∈ rows :=
  (List.mem_filter.1 ((candidates_perm costs rows).mem_iff.1 h)).1

/-- The arms of a group are what the two lists have of it. -/
theorem arms_eq {left right : List ScoredObservation}
    {group : CohortKey × List ScoredObservation × List ScoredObservation}
    (h : group ∈ cohorts left right) : group.2 = (inCohort left group.1, inCohort right group.1) := by
  rw [← get_cohorts, Grouping.get_of_mem (nodup_cohorts left right) h]

theorem cohort_of_mem_pairsOf {left right : List ScoredObservation} {costs : Bool}
    {group : CohortKey × List ScoredObservation × List ScoredObservation} (h : group ∈ cohorts left right)
    {p : ScoredObservation × ScoredObservation} (hp : p ∈ pairsOf costs group) :
    p.1.cohort = group.1 ∧ p.2.cohort = group.1 := by
  rw [pairsOf, arms_eq h] at hp
  obtain ⟨hleft, hright⟩ := List.of_mem_zip hp
  exact ⟨(mem_inCohort (mem_of_mem_candidates hleft)).2, (mem_inCohort (mem_of_mem_candidates hright)).2⟩

/-- The pairs of a key. -/
theorem filter_pairs (left right : List ScoredObservation) (costs : Bool) (k : CohortKey) :
    (pairs left right costs).filter (·.1.cohort = k) =
      (candidates costs (inCohort left k)).zip (candidates costs (inCohort right k)) := by
  have hempty : pairsOf costs (k, ([], [])) = [] := by simp [pairsOf, candidates]
  rw [pairs, Grouping.filter_flatMap (nodup_cohorts left right)
    (fun group hgroup p hp => (cohort_of_mem_pairsOf hgroup hp).1) hempty, get_cohorts]
  rfl

theorem mem_pairs {left right : List ScoredObservation} {costs : Bool}
    {p : ScoredObservation × ScoredObservation} (hp : p ∈ pairs left right costs) :
    p.1.cohort = p.2.cohort := by
  obtain ⟨group, hgroup, hp⟩ := List.mem_flatMap.1 hp
  obtain ⟨hleft, hright⟩ := cohort_of_mem_pairsOf hgroup hp
  rw [hleft, hright]

/-- What a group adds. -/
theorem addCohort_eq {left right : List ScoredObservation} {costs : Bool} (acc : List ℚ × List ℚ)
    {group : CohortKey × List ScoredObservation × List ScoredObservation} (h : group ∈ cohorts left right) :
    addCohort costs acc group =
      .ok (acc.1 ++ (pairsOf costs group).map fun p => value costs (inCohort left p.1.cohort) p.1,
        acc.2 ++ (pairsOf costs group).map fun p => value costs (inCohort right p.2.cohort) p.2) := by
  have hzip : ((candidates costs group.2.1).map (value costs group.2.1)).zip
        ((candidates costs group.2.2).map (value costs group.2.2)) =
      (pairsOf costs group).map fun p => (value costs (inCohort left p.1.cohort) p.1,
        value costs (inCohort right p.2.cohort) p.2) := by
    rw [List.zip_map, ← pairsOf]
    refine List.map_congr_left fun p hp => ?_
    obtain ⟨hleft, hright⟩ := cohort_of_mem_pairsOf h hp
    rw [Prod.map, hleft, hright, arms_eq h]
  rw [addCohort, armValues_eq, armValues_eq, Except.ok_bind, Except.ok_bind, hzip,
    List.map_map, List.map_map]
  rfl

/-- The loop over the groups. -/
theorem matched_eq (left right : List ScoredObservation) (costs : Bool) :
    matched left right costs =
      .ok ((pairs left right costs).map fun p => value costs (inCohort left p.1.cohort) p.1,
        (pairs left right costs).map fun p => value costs (inCohort right p.2.cohort) p.2) := by
  have hloop : ∀ groups : List (CohortKey × List ScoredObservation × List ScoredObservation),
      (∀ group ∈ groups, group ∈ cohorts left right) → ∀ acc,
      groups.foldlM (addCohort costs) acc =
        .ok (acc.1 ++ (groups.flatMap (pairsOf costs)).map fun p =>
            value costs (inCohort left p.1.cohort) p.1,
          acc.2 ++ (groups.flatMap (pairsOf costs)).map fun p =>
            value costs (inCohort right p.2.cohort) p.2) := by
    intro groups
    induction groups with
    | nil =>
      intro _ acc
      rw [List.flatMap_nil, List.map_nil, List.map_nil, List.append_nil, List.append_nil]
      rfl
    | cons group groups ih =>
      intro hgroups acc
      rw [List.foldlM_cons, addCohort_eq acc (hgroups group List.mem_cons_self), Except.ok_bind,
        ih fun g hg => hgroups g (List.mem_cons_of_mem _ hg)]
      simp only [List.flatMap_cons, List.map_append, List.append_assoc]
  exact hloop _ (fun _ h => h) ([], [])

theorem map_fst_zip_sublist {α β : Type} (as : List α) (bs : List β) :
    ((as.zip bs).map (·.1)).Sublist as := by
  rw [List.zip_eq_zip_take_min, List.map_fst_zip (by simp)]
  exact List.take_sublist _ _

theorem map_snd_zip_sublist {α β : Type} (as : List α) (bs : List β) :
    ((as.zip bs).map (·.2)).Sublist bs := by
  rw [List.zip_eq_zip_take_min, List.map_snd_zip (by simp)]
  exact List.take_sublist _ _

/-- No side of the pairs has an observation more often than the arm has. -/
theorem subperm_side {left right rows : List ScoredObservation} {costs : Bool}
    {side : ScoredObservation × ScoredObservation → ScoredObservation}
    (hcohort : ∀ p ∈ pairs left right costs, (side p).cohort = p.1.cohort)
    (hside : ∀ k, (((candidates costs (inCohort left k)).zip (candidates costs (inCohort right k))).map
      side).Sublist (candidates costs (inCohort rows k))) :
    ((pairs left right costs).map side).Subperm (rows.filter (usable costs)) := by
  refine List.subperm_ext_iff.2 fun r _ => ?_
  have hfilter : ((pairs left right costs).map side).filter (fun x => decide (x.cohort = r.cohort)) =
      ((pairs left right costs).filter (·.1.cohort = r.cohort)).map side := by
    rw [List.filter_map]
    refine congrArg (List.map side) (List.filter_congr fun p hp => ?_)
    rw [Function.comp_apply, hcohort p hp]
  calc ((pairs left right costs).map side).count r
      = (((pairs left right costs).map side).filter fun x => decide (x.cohort = r.cohort)).count r :=
        (List.count_filter (by simp)).symm
    _ ≤ (candidates costs (inCohort rows r.cohort)).count r := by
        rw [hfilter, filter_pairs]
        exact (hside r.cohort).count_le r
    _ = ((inCohort rows r.cohort).filter (usable costs)).count r := (candidates_perm costs _).count_eq r
    _ ≤ (rows.filter (usable costs)).count r := (List.filter_sublist.filter _).count_le r

theorem length_candidates (costs : Bool) (rows : List ScoredObservation) (k : CohortKey) :
    (candidates costs (inCohort rows k)).length = (rows.filter (usable costs)).countP (·.cohort = k) := by
  rw [(candidates_perm costs _).length_eq, inCohort, List.filter_comm, ← List.countP_eq_length_filter]

/-- The returned values of an arm, in a group whose pairs leave no success out, are its cost. -/
theorem sum_side {rows : List ScoredObservation} {k : CohortKey}
    {ps : List (ScoredObservation × ScoredObservation)}
    {side : ScoredObservation × ScoredObservation → ScoredObservation}
    (hall : ps.map side = candidates true (inCohort rows k))
    (hsuccess : 0 < (inCohort rows k).countP (·.success)) :
    (ps.map fun p => value true (inCohort rows (side p).cohort) (side p)).sum =
      (((inCohort rows k).map (·.totalCostMicros)).sum : ℕ) := by
  rw [← sum_value _ hsuccess, ← hall, List.map_map]
  refine congrArg List.sum (List.map_congr_left fun p hp => ?_)
  have hmem : side p ∈ candidates true (inCohort rows k) := hall ▸ List.mem_map_of_mem hp
  rw [Function.comp_apply, (mem_inCohort (mem_of_mem_candidates hmem)).2]

/-- **Matching pairs once and conserves the cost.** `matched` divides by no zero and returns the values of
some pairs. A pair lies in one group; no observation is in more pairs than it was observed, and by cost
only successes are; and a group has as many pairs as its smaller arm has observations to pair. By cost, the
values of a group whose arms have the same positive number of successes sum up, for each arm, to the cost of
all its requests. -/
theorem matched_pairs (left right : List ScoredObservation) (costs : Bool) :
    ∃ pairs : List (ScoredObservation × ScoredObservation),
      matched left right costs =
        .ok (pairs.map fun p => value costs (inCohort left p.1.cohort) p.1,
          pairs.map fun p => value costs (inCohort right p.2.cohort) p.2) ∧
      (∀ p ∈ pairs, p.1.cohort = p.2.cohort) ∧
      (pairs.map (·.1)).Subperm (left.filter (usable costs)) ∧
      (pairs.map (·.2)).Subperm (right.filter (usable costs)) ∧
      (∀ k, (pairs.filter (·.1.cohort = k)).length =
        min ((left.filter (usable costs)).countP (·.cohort = k))
          ((right.filter (usable costs)).countP (·.cohort = k))) ∧
      (costs = true → ∀ k, 0 < (inCohort left k).countP (·.success) →
        (inCohort left k).countP (·.success) = (inCohort right k).countP (·.success) →
        ((pairs.filter (·.1.cohort = k)).map fun p => value costs (inCohort left p.1.cohort) p.1).sum =
          (((inCohort left k).map (·.totalCostMicros)).sum : ℕ) ∧
        ((pairs.filter (·.1.cohort = k)).map fun p => value costs (inCohort right p.2.cohort) p.2).sum =
          (((inCohort right k).map (·.totalCostMicros)).sum : ℕ)) := by
  refine ⟨pairs left right costs, matched_eq left right costs, fun p hp => mem_pairs hp,
    subperm_side (fun _ _ => rfl) fun k => map_fst_zip_sublist _ _,
    subperm_side (fun p hp => (mem_pairs hp).symm) fun k => map_snd_zip_sublist _ _, fun k => ?_, ?_⟩
  · rw [filter_pairs, List.length_zip, length_candidates, length_candidates]
  · rintro rfl k hpos hsame
    have hlength : (candidates true (inCohort left k)).length =
        (candidates true (inCohort right k)).length := by
      rw [length_candidates_costs, length_candidates_costs, hsame]
    rw [filter_pairs]
    have hleft := List.map_fst_zip hlength.le
    have hright := List.map_snd_zip hlength.ge
    exact ⟨sum_side hleft hpos, sum_side hright (hsame ▸ hpos)⟩

end RouteControl

end AdaptiveLlm
