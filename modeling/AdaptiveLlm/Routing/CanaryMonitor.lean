import AdaptiveLlm.Routing.Canary
import AdaptiveLlm.Routing.Disablement

set_option autoImplicit false

/-! # Automatic rollback

What breaches the limits of a policy is said of the observations themselves, in whatever order, and
shown to be what the reasons of a report tell. A round of the monitor then disables the versions that
are to be disabled, one transaction each, and no others.

The reasons name the version or a segment, and a reason is there exactly when the aggregate of those
rows breaches a limit. So the breach of a version is stated on the multiset of its observations in
the window, without reports. The loop over the versions disables one at a time in transactions of
their own; since disabling a version does not change the observations, the versions after it are
judged as they would have been before. -/

namespace AdaptiveLlm

namespace RouteControl

/-! ## Breaches

A breach is stated by counts and order statistics of the observations, with the arithmetic of the
source. No aggregate, report or reason occurs in it. -/

section Breaches

variable (cv : CanaryServices)

/-- The observations of a version. -/
def attempts (version : String) (rows : List LiveObservation) : List LiveObservation :=
  rows.filter (·.specialistVersion = some version)

/-- The observations of the foundation. -/
def controls (rows : List LiveObservation) : List LiveObservation :=
  rows.filter (·.specialistVersion = none)

/-- The cost of a success against one of the foundation. -/
def costRatio (tried control : List LiveObservation) : Option ℚ :=
  (reduction cv (outcomes cv tried) (outcomes cv control)).map fun savings => cv.round (1 - savings)

/-- The 95th percentile of the latencies, rounded as Python does. -/
def p95Latency (rows : List LiveObservation) : Option ℚ :=
  roundedPercentile cv.round (rows.map (·.latencyMs)) (cv.round (95 / 100))

/-- There are enough observations, and one of their measured values exceeds its limit. -/
def Exceeds (limits : RollbackThresholds) (tried control : List LiveObservation) : Prop :=
  limits.minimumSamples ≤ tried.length ∧
    ((∃ x ∈ rate cv (·.validationFailure) tried, x > limits.validationFailureRateMax) ∨
      (∃ x ∈ rate cv (·.error) tried, x > limits.errorRateMax) ∨
      (∃ x ∈ p95Latency cv tried, x > limits.p95LatencyMsMax) ∨
      ∃ x ∈ costRatio cv tried control, x > limits.costRatioMax)

/-- The version has had a critical incident, or exceeds a limit overall or in a segment. -/
inductive Breaches (limits : RollbackThresholds) (rows : List LiveObservation) (version : String) : Prop
  | critical (row : LiveObservation) (mem : row ∈ rows) (tried : row.specialistVersion = some version)
      (incident : 0 < row.criticalSafetyIncidents)
  | overall (exceeds : Exceeds cv limits (attempts version rows) (controls rows))
  | segment (key : String) (exceeds : Exceeds cv limits (attempts version (segment cv key rows))
      (controls (segment cv key rows)))

variable {cv} {limits : RollbackThresholds} {rows rows' : List LiveObservation}

/-! ### Order -/

theorem rate_perm (h : rows.Perm rows') (flag : LiveObservation → Bool) :
    rate cv flag rows = rate cv flag rows' := by
  have hnil : rows = [] ↔ rows' = [] := by
    rw [← List.length_eq_zero_iff, ← List.length_eq_zero_iff, h.length_eq]
  unfold rate
  rw [h.countP_eq, h.length_eq]
  simp only [hnil]

theorem outcomes_perm (h : rows.Perm rows') : outcomes cv rows = outcomes cv rows' := by
  unfold outcomes
  rw [h.countP_eq, h.length_eq, rate_perm h, rate_perm h, (h.map _).sum_eq, (h.map _).sum_eq,
    roundedPercentile_perm cv.round (h.map _)]

theorem Exceeds.perm {control control' : List LiveObservation} (h : Exceeds cv limits rows control)
    (hrows : rows.Perm rows') (hcontrol : control.Perm control') : Exceeds cv limits rows' control' := by
  unfold Exceeds costRatio p95Latency at *
  rwa [← hrows.length_eq, ← rate_perm hrows, ← rate_perm hrows, ← outcomes_perm hrows,
    ← outcomes_perm hcontrol, ← roundedPercentile_perm cv.round (hrows.map _)]

/-- The order of the observations does not matter. -/
theorem Breaches.perm {version : String} (h : Breaches cv limits rows version) (hrows : rows.Perm rows') :
    Breaches cv limits rows' version := by
  cases h with
  | critical row mem tried incident => exact .critical row (hrows.mem_iff.1 mem) tried incident
  | overall exceeds => exact .overall (exceeds.perm (hrows.filter _) (hrows.filter _))
  | segment key exceeds =>
    exact .segment key (exceeds.perm ((hrows.filter _).filter _) ((hrows.filter _).filter _))

/-! ### Reasons

The monitor asks for the reasons of each version apart, over the observations of that version in the
window. A version is breached if one of its aggregates exceeds a limit or has a critical incident.
-/

theorem criticalReason_ne_nil : (if (outcomes cv rows).criticalSafetyIncidents ≠ 0 then
      ["critical_safety_incident"] else []) ≠ [] ↔ ∃ row ∈ rows, 0 < row.criticalSafetyIncidents := by
  have hsum : (outcomes cv rows).criticalSafetyIncidents ≠ 0 ↔
      ∃ row ∈ rows, 0 < row.criticalSafetyIncidents := by
    rw [← Nat.pos_iff_ne_zero, outcomes, List.sum_pos_iff_exists_pos_nat]
    simp
  by_cases hzero : (outcomes cv rows).criticalSafetyIncidents ≠ 0 <;> simp [← hsum, hzero]

theorem limitReasons_ne_nil {control : List LiveObservation} :
    (if (outcomes cv rows).interactions ≥ limits.minimumSamples then
      (measurements cv limits (outcomes cv rows)
        (reduction cv (outcomes cv rows) (outcomes cv control))).filterMap fun (name, value, maximum) =>
          if value.any (· > maximum) then some name else none
    else []) ≠ [] ↔ Exceeds cv limits rows control := by
  unfold Exceeds
  by_cases hmin : limits.minimumSamples ≤ rows.length
  · rw [if_pos (show (outcomes cv rows).interactions ≥ limits.minimumSamples from hmin), ne_eq,
      List.filterMap_eq_nil_iff, and_iff_right hmin]
    simp only [measurements, List.mem_cons, List.not_mem_nil, or_false, forall_eq_or_imp, forall_eq,
      ite_eq_right_iff, reduceCtorEq, imp_false, Option.any_eq_true, decide_eq_true_eq, not_and_or,
      not_not]
    exact Iff.rfl
  · rw [if_neg (show ¬(outcomes cv rows).interactions ≥ limits.minimumSamples from hmin)]
    exact iff_of_false (fun h => h rfl) fun h => hmin h.1

/-- An aggregate has a reason if there is a critical incident or a limit is exceeded. -/
theorem aggregate_breachReasons : (aggregate cv rows limits).breachReasons ≠ [] ↔
    (∃ row ∈ rows, row.specialistVersion.isSome ∧ 0 < row.criticalSafetyIncidents) ∨
      Exceeds cv limits (rows.filter (·.specialistVersion.isSome))
        (rows.filter (·.specialistVersion.isNone)) := by
  have hreasons : (aggregate cv rows limits).breachReasons = _ ++ _ := rfl
  rw [hreasons, ne_eq, List.append_eq_nil_iff, not_and_or, ← ne_eq, ← ne_eq, limitReasons_ne_nil,
    criticalReason_ne_nil]
  simp only [List.mem_filter, and_assoc]

theorem versionRows_isSome (version : String) (rows : List LiveObservation) :
    (versionRows version rows).filter (·.specialistVersion.isSome) = attempts version rows := by
  unfold versionRows attempts
  rw [List.filter_filter]
  refine List.filter_congr fun row _ => ?_
  cases row.specialistVersion <;> simp

theorem versionRows_isNone (version : String) (rows : List LiveObservation) :
    (versionRows version rows).filter (·.specialistVersion.isNone) = controls rows := by
  unfold versionRows controls
  rw [List.filter_filter]
  refine List.filter_congr fun row _ => ?_
  cases row.specialistVersion <;> simp

theorem segment_versionRows (key version : String) (rows : List LiveObservation) :
    segment cv key (versionRows version rows) = versionRows version (segment cv key rows) := by
  unfold segment versionRows
  rw [List.filter_filter, List.filter_filter]
  exact List.filter_congr fun _ _ => Bool.and_comm ..

/-- The reasons of a version's rows are about its observations. -/
theorem aggregate_versionRows {version : String} :
    (aggregate cv (versionRows version rows) limits).breachReasons ≠ [] ↔
      (∃ row ∈ rows, row.specialistVersion = some version ∧ 0 < row.criticalSafetyIncidents) ∨
        Exceeds cv limits (attempts version rows) (controls rows) := by
  rw [aggregate_breachReasons, versionRows_isSome, versionRows_isNone]
  refine or_congr (exists_congr fun row => ?_) Iff.rfl
  rw [versionRows, List.mem_filter, and_assoc, decide_eq_true_eq]
  refine and_congr_right fun _ => ?_
  cases row.specialistVersion <;> simp

/-- Of a segment without observations of the version nothing is exceeded. -/
theorem not_exceeds_nil (control : List LiveObservation) : ¬Exceeds cv limits [] control := by
  rintro ⟨-, ⟨x, hx, -⟩ | ⟨x, hx, -⟩ | ⟨x, hx, -⟩ | ⟨x, hx, -⟩⟩
  · cases hx
  · cases hx
  · simp [p95Latency, roundedPercentile] at hx
  · simp [costRatio, reduction, outcomes] at hx

/-- **The reasons of a version**: it breaches the limits of the policy. -/
theorem measureVersion_breachReasons {policy : LivePolicy} {version : String} :
    (measureVersion cv policy rows version).breachReasons ≠ [] ↔
      Breaches cv policy.rollback rows version := by
  have hreasons : (measureVersion cv policy rows version).breachReasons ≠ [] ↔
      (aggregate cv (versionRows version rows) policy.rollback).breachReasons ≠ [] ∨
        ∃ key ∈ segmentKeys cv rows,
          (aggregate cv (segment cv key (versionRows version rows))
              policy.rollback).breachReasons ≠ [] := by
    have hsorted : ∀ l : List String, l.dedup.insertionSort (· ≤ ·) ≠ [] ↔ l ≠ [] := fun l => by
      rw [ne_eq, ← List.length_eq_zero_iff, List.length_insertionSort, List.length_eq_zero_iff,
        List.dedup_eq_nil]
    unfold measureVersion
    rw [hsorted, ne_eq, List.append_eq_nil_iff, not_and_or, List.flatMap_eq_nil_iff]
    simp
  rw [hreasons, aggregate_versionRows]
  constructor
  · rintro ((⟨row, hrow, htried, hincident⟩ | hexceeds) | ⟨key, -, hkey⟩)
    · exact .critical row hrow htried hincident
    · exact .overall hexceeds
    · rw [segment_versionRows, aggregate_versionRows] at hkey
      rcases hkey with ⟨row, hrow, htried, hincident⟩ | hexceeds
      · exact .critical row (List.mem_of_mem_filter hrow) htried hincident
      · exact .segment key hexceeds
  · rintro (⟨row, hrow, htried, hincident⟩ | hexceeds | ⟨key, hexceeds⟩)
    · exact .inl (.inl ⟨row, hrow, htried, hincident⟩)
    · exact .inl (.inr hexceeds)
    · refine .inr ⟨key, ?_, ?_⟩
      · -- an observation of the version has the label
        have hne : attempts version (segment cv key rows) ≠ [] := fun hnil =>
          not_exceeds_nil _ (hnil ▸ hexceeds)
        obtain ⟨row, hrow⟩ := List.exists_mem_of_ne_nil _ hne
        have hrow := List.mem_filter.1 (List.mem_of_mem_filter hrow)
        rw [segmentKeys, List.mem_insertionSort, List.mem_dedup]
        exact List.mem_flatMap.2 ⟨row, hrow.1, by simpa using hrow.2⟩
      · rw [segment_versionRows, aggregate_versionRows]
        exact .inr hexceeds

end Breaches

/-! ## A round of the monitor

A round takes one report and then disables versions one after the other. Each disablement is a call
of the control plane, which may find that it has nothing to do. -/

/-- The registry has the version in the canary or in production. -/
def InService (model : String → ControlIdentity → ControlResult RoutedModel)
    (identity : ControlIdentity) (version : String) : Prop :=
  ∃ m, model version identity = .ok m ∧ m.state ∈ [LifecycleState.canary, .production]

/-- The observations of the policy in the window that a round looks at. -/
def window (cv : CanaryServices) (policy : LivePolicy) (observations : List LiveObservation) :
    List LiveObservation :=
  observations.filter fun row => row.policyId = policy.policyId &&
    row.createdAt ≥ cv.clock 0 - windowLength policy && row.createdAt ≤ cv.clock 1

namespace ControlState

section Round

variable {cfg : ControlSettings} {s s' : ControlState} {row : ActiveRow} {policyId : String}
  {identity : ControlIdentity}

/-- What an automatic disablement for a reason leaves of the active row. -/
theorem automaticDisable_specialists {sv : ControlServices} (hrow : s.active = some row)
    (hpolicy : row.policyId = some policyId) {version : String} {reasons : List String}
    (hreasons : reasons ≠ []) {effective : Bool}
    (h : s.automaticDisable cfg sv policyId version reasons identity = .ok (effective, s')) :
    ∃ values, s'.active = some { row with disabledSpecialists := values } ∧ ∀ v, v ∈ values ↔
      v ∈ row.disabledSpecialists ∨ v = version ∧ InService sv.model identity version := by
  unfold automaticDisable at h
  simp only [hrow, hreasons, hpolicy, ne_eq, not_true_eq_false, false_or] at h
  split at h
  · next hdisabled =>
    cases h
    refine ⟨row.disabledSpecialists, hrow, fun v => ⟨.inl, ?_⟩⟩
    rintro (hv | ⟨rfl, -⟩)
    · exact hv
    · exact hdisabled
  · obtain ⟨model, hmodel, h⟩ := Except.bind_eq_ok.1 h
    split at h
    · next hstate =>
      cases h
      refine ⟨row.disabledSpecialists, hrow, fun v => ⟨.inl, ?_⟩⟩
      rintro (hv | ⟨-, m, hm, hservice⟩)
      · exact hv
      · rw [hmodel] at hm
        cases hm
        exact absurd hservice hstate
    · next hstate =>
      obtain ⟨note, -, h⟩ := Except.bind_eq_ok.1 h
      obtain ⟨s₁, haudit, h⟩ := Except.bind_eq_ok.1 h
      cases h
      refine ⟨_, audit_active haudit, fun v => ?_⟩
      rw [mem_updateValues]
      have hservice : InService sv.model identity version := ⟨model, hmodel, not_not.1 hstate⟩
      by_cases hv : v = version
      · simp [hv, hservice]
      · simp [hv]

/-- What the loop leaves of it, when it ends. -/
theorem disableBreaching_specialists {cv : CanaryServices} {snapshot : RouteSnapshot}
    {entries : List (String × CanaryAggregate)} (hrow : s.active = some row)
    (hpolicy : row.policyId = some policyId)
    (h : disableBreaching cfg cv snapshot policyId identity entries s = (none, s')) :
    ∃ values, s'.active = some { row with disabledSpecialists := values } ∧ ∀ v, v ∈ values ↔
      v ∈ row.disabledSpecialists ∨ ∃ m, (v, m) ∈ entries ∧ v ∉ snapshot.disabledSpecialists ∧
        m.breachReasons ≠ [] ∧ InService cv.model identity v := by
  induction entries generalizing s row with
  | nil =>
    cases h
    exact ⟨row.disabledSpecialists, hrow, fun v => by simp⟩
  | cons entry rest ih =>
    obtain ⟨version, measurement⟩ := entry
    rw [disableBreaching] at h
    by_cases hbreach : version ∉ snapshot.disabledSpecialists ∧ measurement.breachReasons ≠ []
    · rw [if_pos hbreach] at h
      cases hdisable : s.automaticDisable cfg (cv.control version) policyId version
          measurement.breachReasons identity with
      | error e =>
        rw [hdisable] at h
        cases h
      | ok r =>
        rw [hdisable] at h
        obtain ⟨values, hvalues, hmem⟩ := automaticDisable_specialists hrow hpolicy hbreach.2 hdisable
        obtain ⟨values', hvalues', hmem'⟩ := ih hvalues hpolicy h
        refine ⟨values', hvalues', fun v => ?_⟩
        rw [hmem', hmem, or_assoc]
        refine or_congr Iff.rfl ⟨?_, ?_⟩
        · rintro (⟨rfl, hservice⟩ | ⟨m, hm, hrest⟩)
          · exact ⟨measurement, List.mem_cons_self, hbreach.1, hbreach.2, hservice⟩
          · exact ⟨m, List.mem_cons_of_mem _ hm, hrest⟩
        · rintro ⟨m, hm, hnew, hreasons, hservice⟩
          rcases List.mem_cons.1 hm with heq | hm
          · cases heq
            exact .inl ⟨rfl, hservice⟩
          · exact .inr ⟨m, hm, hnew, hreasons, hservice⟩
    · rw [if_neg hbreach] at h
      obtain ⟨values, hvalues, hmem⟩ := ih hrow hpolicy h
      refine ⟨values, hvalues, fun v => (hmem v).trans (or_congr Iff.rfl ⟨?_, ?_⟩)⟩
      · rintro ⟨m, hm, hrest⟩
        exact ⟨m, List.mem_cons_of_mem _ hm, hrest⟩
      · rintro ⟨m, hm, hnew, hreasons, hservice⟩
        rcases List.mem_cons.1 hm with heq | hm
        · cases heq
          exact absurd ⟨hnew, hreasons⟩ hbreach
        · exact ⟨m, hm, hnew, hreasons, hservice⟩

/-! ### Policies -/

/-- The primary key of `route_policies`. -/
def PolicyKeys (s : ControlState) : Prop := (s.policies.map (·.data.policyId)).Nodup

theorem audit_policies {sv : ControlServices} {note : RouteControlNote} {policyId : Option String}
    {action : String} {state : RouteState}
    (h : s.audit cfg sv identity note policyId action state = .ok s') : s'.policies = s.policies := by
  unfold audit at h
  split at h
  · cases h
  · cases h
    rfl

theorem automaticDisable_policies {sv : ControlServices} {version : String} {reasons : List String}
    {effective : Bool}
    (h : s.automaticDisable cfg sv policyId version reasons identity = .ok (effective, s')) :
    s'.policies = s.policies := by
  unfold automaticDisable at h
  split at h
  · cases h
    rfl
  split at h
  · cases h
    rfl
  obtain ⟨model, -, h⟩ := Except.bind_eq_ok.1 h
  split at h
  · cases h
    rfl
  obtain ⟨note, -, h⟩ := Except.bind_eq_ok.1 h
  obtain ⟨s₁, haudit, h⟩ := Except.bind_eq_ok.1 h
  cases h
  exact (audit_policies haudit).trans rfl

theorem policyKeys_serve (h : s.PolicyKeys) (cfg : ControlSettings)
    (call : ControlServices × ControlCall) : (s.serve cfg call).PolicyKeys := by
  obtain ⟨sv, call⟩ := call
  unfold ControlState.serve
  cases htransact : call.transact cfg sv s with
  | error e => exact h
  | ok r =>
    cases call with
    | create policy identity =>
      obtain ⟨s', hcreate, rfl⟩ := Except.map_eq_ok.1 htransact
      obtain ⟨_, -, hcreate⟩ := Except.bind_eq_ok.1 hcreate
      obtain ⟨_, hnew, hcreate⟩ := Except.bind_eq_ok.1 hcreate
      cases hcreate
      have hnew : ∀ row ∈ s.policies, row.data.policyId ≠ policy.policyId := by
        simpa using check_eq_ok.1 hnew
      unfold PolicyKeys
      rw [List.map_append, List.map_singleton]
      exact List.nodup_append'.2 ⟨h, List.nodup_singleton _, by simpa [List.disjoint_singleton] using hnew⟩
    | activate policyId identity note =>
      obtain ⟨s', hactivate, rfl⟩ := Except.map_eq_ok.1 htransact
      obtain ⟨_, -, hactivate⟩ := Except.bind_eq_ok.1 hactivate
      obtain ⟨_, -, hactivate⟩ := Except.bind_eq_ok.1 hactivate
      obtain ⟨_, -, hactivate⟩ := Except.bind_eq_ok.1 hactivate
      obtain ⟨_, -, hactivate⟩ := Except.bind_eq_ok.1 hactivate
      rwa [PolicyKeys, audit_policies hactivate]
    | switch disabled identity note =>
      obtain ⟨s', hswitch, rfl⟩ := Except.map_eq_ok.1 htransact
      obtain ⟨_, -, hswitch⟩ := Except.bind_eq_ok.1 hswitch
      obtain ⟨_, -, hswitch⟩ := Except.bind_eq_ok.1 hswitch
      obtain ⟨row, -, hswitch⟩ := Except.bind_eq_ok.1 hswitch
      rwa [PolicyKeys, audit_policies hswitch]
    | automaticDisable policyId version breachReasons identity =>
      obtain ⟨⟨effective, s'⟩, hdisable, rfl⟩ := Except.map_eq_ok.1 htransact
      rwa [PolicyKeys, automaticDisable_policies hdisable]

theorem policyKeys_run (cfg : ControlSettings) (calls : List (ControlServices × ControlCall)) :
    (calls.foldl (serve cfg) {}).PolicyKeys := by
  have hfold : ∀ s : ControlState, s.PolicyKeys → (calls.foldl (serve cfg) s).PolicyKeys := by
    induction calls with
    | nil => exact fun _ h => h
    | cons call calls ih => exact fun s h => ih _ (policyKeys_serve h cfg call)
  exact hfold {} List.nodup_nil

/-- The policy of a snapshot is the one that is read again. -/
theorem get_snapshot_policy (hkeys : s.PolicyKeys) {policy policy' : LivePolicy}
    (hpolicy : s.routeSnapshot.policy = some policy)
    (hget : s.get cfg policy.policyId identity = .ok policy') :
    policy' = policy ∧ ∃ row, s.active = some row ∧ row.policyId = some policy.policyId ∧
      s.routeSnapshot.disabledSpecialists = row.disabledSpecialists := by
  unfold routeSnapshot at hpolicy ⊢
  cases hrow : s.active with
  | none =>
    rw [hrow] at hpolicy
    cases hpolicy
  | some row =>
    rw [hrow] at hpolicy
    obtain ⟨policyId, hid, hfind⟩ := Option.bind_eq_some_iff.1 hpolicy
    obtain ⟨stored, hstored, rfl⟩ := Option.map_eq_some_iff.1 hfind
    have hmatch : stored.data.policyId = policyId := by simpa using List.find?_some hstored
    obtain ⟨_, -, hget⟩ := Except.bind_eq_ok.1 hget
    split at hget
    · cases hget
    · next found hfound =>
      split at hget
      · cases hget
        have hsame := List.find?_some hfound
        simp only [Bool.and_eq_true, decide_eq_true_eq] at hsame
        have heq : found = stored := List.inj_on_of_nodup_map hkeys (List.mem_of_find?_eq_some hfound)
          (List.mem_of_find?_eq_some hstored) hsame.1
        exact ⟨congrArg StoredPolicy.data heq, row, rfl, hid.trans (congrArg some hmatch.symm), rfl⟩
      · cases hget

/-- The rows of a report are those in the window, for an identity that is granted their tenants. -/
theorem selectRows_perm {cv : CanaryServices} {policy : LivePolicy} {observations : List LiveObservation}
    (hgranted : ∀ row ∈ observations, row.tenantId ∈ identity.datasetTenants) :
    ((selectRows observations policy.policyId (cv.clock 0 - windowLength policy) (cv.clock 1)).filter
      (·.tenantId ∈ identity.datasetTenants)).Perm (window cv policy observations) := by
  have hsorted : (selectRows observations policy.policyId (cv.clock 0 - windowLength policy)
      (cv.clock 1)).Perm (window cv policy observations) := List.perm_insertionSort _ _
  rw [List.filter_eq_self.2]
  · exact hsorted
  · intro row hrow
    exact decide_eq_true (hgranted row (List.mem_of_mem_filter (hsorted.mem_iff.1 hrow)))

/-! ### The law -/

/-- **Rollback.** After any calls of the control plane, with a policy that allows live specialists and
    no kill switch, a round that ends has disabled what was disabled before and, of the eligible
    versions in the canary or in production, those that breach the limits in the window. -/
theorem disabled_workOnce (calls : List (ControlServices × ControlCall)) {cv : CanaryServices}
    {observations : List LiveObservation} {policy : LivePolicy}
    (hpolicy : (calls.foldl (serve cfg) {}).routeSnapshot.policy = some policy)
    (hallowed : policy.liveSpecialistsAllowed = true)
    (hkilled : (calls.foldl (serve cfg) {}).routeSnapshot.killed = false)
    (hgranted : ∀ row ∈ observations, row.tenantId ∈ identity.datasetTenants)
    (h : workOnce cfg cv observations identity (calls.foldl (serve cfg) {}).routeSnapshot
      (calls.foldl (serve cfg) {}) = (none, s')) (version : String) :
    version ∈ s'.routeSnapshot.disabledSpecialists ↔
      version ∈ (calls.foldl (serve cfg) {}).routeSnapshot.disabledSpecialists ∨
        version ∈ policy.eligibleSpecialistVersions ∧ InService cv.model identity version ∧
          Breaches cv policy.rollback (window cv policy observations) version := by
  have hkeys := policyKeys_run cfg calls
  generalize calls.foldl (serve cfg) {} = s at hpolicy hkilled h hkeys ⊢
  unfold workOnce at h
  rw [hpolicy] at h
  simp only [hallowed, hkilled, Bool.not_true, Bool.or_false, Bool.false_eq_true, if_false] at h
  cases hreport : s.canaryReport cv cfg observations policy.policyId
      (cv.clock 0 - windowLength policy) identity with
  | error e =>
    rw [hreport] at h
    cases h
  | ok report =>
    rw [hreport] at h
    obtain ⟨policy', hget, hreport⟩ := Except.bind_eq_ok.1 hreport
    obtain ⟨rfl, row, hrow, hid, hdisabled⟩ := get_snapshot_policy hkeys hpolicy hget
    cases hreport
    obtain ⟨values, hvalues, hmem⟩ := disableBreaching_specialists hrow hid h
    have hafter : s'.routeSnapshot.disabledSpecialists = values := by rw [routeSnapshot, hvalues]
    rw [hafter, hmem, hdisabled]
    have hperm := @selectRows_perm identity cv policy' observations hgranted
    by_cases hbefore : version ∈ row.disabledSpecialists
    · exact iff_of_true (.inl hbefore) (.inl hbefore)
    refine or_congr Iff.rfl ⟨?_, ?_⟩
    · rintro ⟨m, hm, -, hreasons, hservice⟩
      obtain ⟨version, heligible, heq⟩ := List.mem_map.1 hm
      cases heq
      exact ⟨heligible, hservice, (measureVersion_breachReasons.1 hreasons).perm hperm⟩
    · rintro ⟨heligible, hservice, hbreaches⟩
      exact ⟨_, List.mem_map.2 ⟨version, heligible, rfl⟩, hbefore,
        measureVersion_breachReasons.2 (hbreaches.perm hperm.symm), hservice⟩

end Round

end ControlState

/-! A policy with three specialists: one fails in German, one has an incident, and so has one that is
not live. -/

namespace BreachedPolicy

/-- Settings of one tenant. -/
def settings : ControlSettings :=
  { environment := "prod", foundationId := "f", tenants := ["t"] }

/-- A version as the registry has it. -/
def registered (version : String) (state : LifecycleState) (adapterArchitecture : String) : RoutedModel :=
  { registryId := "m", version, state, tenantIds := ["t"], datasets := [], adapterArchitecture
    trainingJobId := "j", artifactDigest := "a", storageLocation := "l", baseModelId := "b" }

/-- A registry of the router, two specialists in canary and one in shadow. -/
def model (version : String) (_ : ControlIdentity) : ControlResult RoutedModel :=
  .ok (if version = "router" then registered version .approved "router-logistic-v1"
    else registered version (if version = "shadowed" then .shadow else .canary) "qwen")

/-- An operator of the tenant. -/
def operator : ControlIdentity :=
  { keyClass := .operator, subjectIdPseudonymous := some "op", datasetTenants := ["t"]
    tenantId := "t", environment := "prod" }

/-- A live policy of all three specialists. -/
def policy : LivePolicy :=
  { policyId := "p"
    foundationFallback := "f"
    eligibleSpecialistVersions := ["german", "unsafe", "shadowed"]
    liveSpecialistsAllowed := true
    routerVersion := some "router"
    rollback := { minimumSamples := 2, errorRateMax := 1 / 2 } }

/-- The policy is made and activated. -/
def calls : List (ControlServices × ControlCall) :=
  [(⟨model, toString⟩, .create policy operator),
    (⟨model, toString⟩, .activate "p" operator
      { reason := "r", nonblank := by decide, length_le := by decide, one_scope := by simp })]

/-- One observation of a specialist. -/
def observed (id version language : String) (error : Bool) (incidents : ℕ) : LiveObservation :=
  { interactionId := id
    policyId := "p"
    tenantId := "t"
    createdAt := 0
    features := { task := "general", language }
    specialistVersion := some version
    success := true
    error
    criticalSafetyIncidents := incidents
    totalCostMicros := 1
    latencyMs := 2 }

/-- Errors in one of two languages of a specialist, and an incident under each of the others. -/
def observations : List LiveObservation :=
  [observed "1" "german" "en" false 0, observed "2" "german" "de" true 0,
    observed "3" "german" "de" true 0, observed "4" "german" "en" false 0,
    observed "5" "unsafe" "en" false 1, observed "6" "shadowed" "en" false 1]

/-- A clock that counts the reads. -/
def services : CanaryServices :=
  { clock := fun k => k, model, pseudonym := id, uid := fun _ => toString }

/-- One round of the monitor. -/
def round : Option ControlError × ControlState :=
  workOnce settings services observations operator
    (calls.foldl (ControlState.serve settings) {}).routeSnapshot
    (calls.foldl (ControlState.serve settings) {})

end BreachedPolicy

open BreachedPolicy in
/-- The round ends, and disables the version with the incident that is live, and not the other. -/
theorem breached_disabled : round.1 = none ∧
    "unsafe" ∈ round.2.routeSnapshot.disabledSpecialists ∧
      "shadowed" ∉ round.2.routeSnapshot.disabledSpecialists := by
  have hround : round.1 = none := by decide +kernel
  have hdisabled := @ControlState.disabled_workOnce settings round.2 operator calls services observations
    policy (by decide +kernel) rfl (by decide +kernel) (by decide) (Prod.ext hround rfl)
  refine ⟨hround, (hdisabled "unsafe").2 (.inr ⟨by decide, ?_, ?_⟩), fun hmem => ?_⟩
  · exact ⟨_, rfl, by decide⟩
  · exact .critical (observed "5" "unsafe" "en" false 1) (by decide +kernel) rfl (by decide)
  · rcases (hdisabled "shadowed").1 hmem with hbefore | ⟨-, ⟨m, hm, hservice⟩, -⟩
    · revert hbefore
      decide +kernel
    · cases hm
      revert hservice
      decide

open BreachedPolicy in
example : round.2.pointer.disabledSpecialists = ["german", "unsafe"] := by decide +kernel

end RouteControl

end AdaptiveLlm
