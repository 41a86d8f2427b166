import AdaptiveLlm.Routing.Live

set_option autoImplicit false

/-! # Safety of the live plan

A plan is the foundation, before it at most one specialist. What every check contributes is taken
from the step that makes it: the hard and the soft rejection, the candidate of a version, the choice.
`SafeSpecialist` puts it together for the specialist of a plan.

Every reading of a control, a manifest or a breaker is an answer given at that moment; what was true
at one reading need not be at the next. So safety is said of the answers that the planner was given:
the specialist in a plan is one whose checks were all made in this call, with these answers. Nothing
is lost by that, as nobody could promise more. -/

namespace AdaptiveLlm

namespace Live

variable {π φ ρ : Type}

/-! ## The rejections -/

section Rejections

variable {cfg : PlannerSettings π} {turn : PlanTurn π φ ρ} {selection : RouteSelection φ}
  {policy : LivePolicy} {snapshot : RouteSnapshot} {tenantId version : String}
  {request : ProviderRequest} {decision : PolicyDecision} {model : RoutedModel}

/-- One check of a rejection, passed. -/
theorem rejection_eq_none {p : Prop} [Decidable p] {reason : Reason} {rest : Option Reason} :
    (if p then some reason else rest) = none ↔ ¬p ∧ rest = none := by
  by_cases hp : p <;> simp [hp]

/-- One check of a rejection, for a reason that it does not give. -/
theorem rejection_ne {p : Prop} [Decidable p] {reason other : Reason} {rest : Option Reason}
    (hreason : reason ≠ other) (hrest : rest ≠ some other) :
    (if p then some reason else rest) ≠ some other := by
  by_cases hp : p
  · rw [if_pos hp]
    exact fun h => hreason (Option.some.inj h)
  · rw [if_neg hp]
    exact hrest

/-- The conditions under which no hard check rejects a specialist. -/
structure HardAdmission (cfg : PlannerSettings π) (turn : PlanTurn π φ ρ)
    (selection : RouteSelection φ) (policy : LivePolicy) (snapshot : RouteSnapshot)
    (tenantId : String) (request : ProviderRequest) (decision : PolicyDecision) (version : String)
    (model : RoutedModel) : Prop where
  enabled : version ∉ snapshot.disabledSpecialists
  state : model.state = .canary ∨ model.state = .production
  processing : decision.processingAllowed = true
  residency : model.processingRegion = decision.residency
  tenant : tenantId ∈ model.tenantIds
  modality : "text" ∈ model.modalities
  context : request.inputTokens + request.maxOutputTokens ≤ model.contextLimit
  breaker : ((turn.breakers version).available version policy.breaker
    (turn.breakerClock version)).1 = true
  fraction : model.state = .canary → policy.canary.trafficFraction ≤ canaryFractionMax
  allowlist : policy.canary.tenantAllowlist = [] ∨
    cfg.pseudonym tenantId "canary-tenant" ∈ policy.canary.tenantAllowlist
  assigned : assigned cfg selection.interactionId policy = true

theorem hardRejection_eq_none (h : hardRejection cfg turn selection policy snapshot tenantId request
    decision version model = none) :
    HardAdmission cfg turn selection policy snapshot tenantId request decision version model := by
  unfold hardRejection at h
  simp only [rejection_eq_none] at h
  obtain ⟨hdisabled, hstate, hprocessing, htenant, hmodality, hcontext, hbreaker, hfraction,
    hallowlist, hassigned, -⟩ := h
  rw [not_or] at hprocessing
  constructor
  · exact hdisabled
  · simpa [or_iff_not_imp_left] using hstate
  · simpa using hprocessing.1
  · simpa using hprocessing.2
  · simpa using htenant
  · simpa using hmodality
  · omega
  · simpa using hbreaker
  · intro hcanary
    exact le_of_not_gt fun hgt => hfraction ⟨hcanary, hgt⟩
  · by_contra hnone
    rw [not_or] at hnone
    exact hallowlist hnone
  · simpa using hassigned

/-- The conditions under which the estimate and the price do not reject a specialist. -/
structure SoftAdmission (selection : RouteSelection φ) (policy : LivePolicy)
    (request : ProviderRequest) (deployment : Deployment) (estimate : Estimate) : Prop where
  ood : estimate.ood ≤ policy.oodThresholdMax
  quality : policy.qualityThreshold ≤ estimate.suitability
  confidence : policy.routerConfidenceThreshold ≤ estimate.confidence
  price : deployment.quote request ≤ selection.deployment.quote request

theorem softRejection_eq_none {deployment : Deployment} {estimate : Estimate}
    (h : softRejection selection policy request deployment estimate = none) :
    SoftAdmission selection policy request deployment estimate := by
  unfold softRejection at h
  simp only [rejection_eq_none] at h
  obtain ⟨hood, hquality, hconfidence, hprice, -⟩ := h
  exact ⟨le_of_not_gt hood, le_of_not_gt hquality, le_of_not_gt hconfidence, Nat.le_of_not_gt hprice⟩

/-- Neither check gives the reason that the choice gives. -/
theorem hardRejection_ne_notSelected :
    hardRejection cfg turn selection policy snapshot tenantId request decision version model ≠
      some .notSelected := by
  unfold hardRejection
  iterate 10 refine rejection_ne (by decide) ?_
  exact Option.some_ne_none _ ∘ Eq.symm

theorem softRejection_ne_notSelected {deployment : Deployment} {estimate : Estimate} :
    softRejection selection policy request deployment estimate ≠ some .notSelected := by
  unfold softRejection
  iterate 4 refine rejection_ne (by decide) ?_
  exact Option.some_ne_none _ ∘ Eq.symm

end Rejections

/-! ## The candidate of a version

A candidate is returned only at the end of all checks, so its qualification is read off the
successful run through them, one fact for each check. -/

section Consider

variable {cfg : PlannerSettings π} {turn : PlanTurn π φ ρ} {selection : RouteSelection φ}
  {planner : Planner ρ} {policy : LivePolicy} {snapshot : RouteSnapshot} {tenantId version : String}
  {request : ProviderRequest} {features : φ} {decision : PolicyDecision} {router : ρ}
  {c : LiveCandidate π}

/-- The estimate a candidate carries. -/
def LiveCandidate.estimate (c : LiveCandidate π) : Estimate where
  suitability := c.quality
  confidence := c.confidence
  ood := c.oodScore
  latencyMs := c.estimatedLatencyMs

/-- What a considered version went through when nothing rejected it. -/
structure Qualified (cfg : PlannerSettings π) (turn : PlanTurn π φ ρ)
    (selection : RouteSelection φ) (policy : LivePolicy) (snapshot : RouteSnapshot)
    (tenantId : String) (request : ProviderRequest) (features : φ) (decision : PolicyDecision)
    (router : ρ) (model : RoutedModel) (c : LiveCandidate π) : Prop where
  hard : HardAdmission cfg turn selection policy snapshot tenantId request decision c.name model
  estimated : turn.estimate router features c.name = .ok c.estimate
  soft : SoftAdmission selection policy request c.deployment c.estimate
  loaded : turn.load c.name = .ok c.provider

theorem consider_eq_ok (h : consider cfg turn selection planner policy snapshot tenantId request
    features decision router version = .ok c) :
    c.name = version ∧ c.specialist = true ∧ c.rejectionReason ≠ some .notSelected ∧
      ∃ model, planner.manifests.lookup version = some model ∧
        c.deployment = specialistDeployment selection version model ∧
        (c.rejectionReason = none → Qualified cfg turn selection policy snapshot tenantId request
          features decision router model c) := by
  unfold consider at h
  obtain ⟨model, hmodel, h⟩ := Except.bind_eq_ok.1 h
  have hlookup : planner.manifests.lookup version = some model := by
    unfold Planner.manifest at hmodel
    split at hmodel
    · rename_i found hfound
      cases hmodel
      exact hfound
    · cases hmodel
  dsimp only at h
  split at h
  · rename_i reason hreason
    cases h
    refine ⟨rfl, rfl, ?_, model, hlookup, rfl, fun hnone => ?_⟩
    · exact hardRejection_ne_notSelected
    · exact absurd (hreason.symm.trans hnone) (by simp)
  · rename_i hhard
    obtain ⟨estimate, hestimate, h⟩ := Except.bind_eq_ok.1 h
    split at h
    · rename_i reason hreason
      cases h
      refine ⟨rfl, rfl, ?_, model, hlookup, rfl, fun hnone => ?_⟩
      · rw [← hreason]
        exact softRejection_ne_notSelected
      · cases hnone
    · rename_i hsoft
      obtain ⟨provider, hload, h⟩ := Except.bind_eq_ok.1 h
      cases h
      exact ⟨rfl, rfl, by rw [hhard]; simp, model, hlookup, rfl, fun _ =>
        ⟨hardRejection_eq_none hhard, hestimate, softRejection_eq_none hsoft, hload⟩⟩

end Consider

/-! ## The choice -/

section Choice

variable {request : ProviderRequest} {latest : RouteSnapshot} {c c' : LiveCandidate π}
  {candidates : List (LiveCandidate π)}

@[simp] theorem markDisabled_name : (markDisabled latest c).name = c.name := by
  unfold markDisabled
  split <;> rfl

@[simp] theorem markDisabled_sortKey : sortKey request (markDisabled latest c) = sortKey request c := by
  unfold markDisabled
  split <;> rfl

/-- A candidate that keeps no reason is the one it was, and not disabled. -/
theorem markDisabled_eq_none (latest : RouteSnapshot) (h : (markDisabled latest c).rejectionReason = none) :
    markDisabled latest c = c ∧ c.name ∉ latest.disabledSpecialists := by
  unfold markDisabled at *
  split at h
  · cases h
  · rename_i hmem
    exact ⟨if_neg hmem, hmem⟩

theorem markDisabled_ne_notSelected (latest : RouteSnapshot) (h : c.rejectionReason ≠ some .notSelected) :
    (markDisabled latest c).rejectionReason ≠ some .notSelected := by
  unfold markDisabled
  split
  · simp
  · exact h

/-- After the first one, no candidate is left without a reason. -/
theorem filter_markUnselected_true :
    (markUnselected true candidates).filter (·.rejectionReason = none) = [] := by
  induction candidates with
  | nil => rfl
  | cons c rest ih =>
    unfold markUnselected
    by_cases hc : c.rejectionReason = none
    · simp [hc, ih]
    · simp [hc, ih]

/-- The loop leaves the first candidate without a reason. -/
theorem filter_markUnselected :
    (markUnselected false candidates).filter (·.rejectionReason = none) =
      (candidates.find? (·.rejectionReason = none)).toList := by
  induction candidates with
  | nil => rfl
  | cons c rest ih =>
    unfold markUnselected
    by_cases hc : c.rejectionReason = none
    · simp [hc, filter_markUnselected_true]
    · simp [hc, ih]

/-- What is left of a candidate after the loop, selected or not. -/
theorem mem_markUnselected (request : ProviderRequest) {selected : Bool}
    (h : c ∈ markUnselected selected candidates) :
    ∃ c₀ ∈ candidates, c.specialist = c₀.specialist ∧ sortKey request c = sortKey request c₀ ∧
      (c.rejectionReason = c₀.rejectionReason ∨ c₀.rejectionReason = none) := by
  induction candidates generalizing selected with
  | nil => cases h
  | cons c₀ rest ih =>
    unfold markUnselected at h
    split at h
    · rename_i hnone
      obtain rfl | h := List.mem_cons.1 h
      · refine ⟨c₀, List.mem_cons_self, ?_, ?_, .inr hnone⟩ <;> split <;> rfl
      · obtain ⟨c₁, hc₁, hrest⟩ := ih h
        exact ⟨c₁, List.mem_cons_of_mem _ hc₁, hrest⟩
    · obtain rfl | h := List.mem_cons.1 h
      · exact ⟨c, List.mem_cons_self, rfl, rfl, .inl rfl⟩
      · obtain ⟨c₁, hc₁, hrest⟩ := ih h
        exact ⟨c₁, List.mem_cons_of_mem _ hc₁, hrest⟩

/-- In a sorted list the first candidate without a reason is the least of them. -/
theorem find?_le (hsorted : candidates.Pairwise fun a b => sortKey request a ≤ sortKey request b)
    (hfind : candidates.find? (·.rejectionReason = none) = some c) (hc' : c' ∈ candidates)
    (hnone : c'.rejectionReason = none) : sortKey request c ≤ sortKey request c' := by
  obtain ⟨_, before, after, rfl, hbefore⟩ := List.find?_eq_some_iff_append.1 hfind
  rw [List.pairwise_append, List.pairwise_cons] at hsorted
  obtain hmem | hmem := List.mem_append.1 hc'
  · have := hbefore c' hmem
    simp [hnone] at this
  · obtain rfl | hmem := List.mem_cons.1 hmem
    · exact le_rfl
    · exact hsorted.2.1.1 c' hmem

end Choice

/-! ## The plan

The choice marks candidates and picks the first by its sort key. What it picks is one of the
qualified ones, and the foundation is put behind it, or stands alone. -/

section Plan

variable {cfg : PlannerSettings π} {turn : PlanTurn π φ ρ} {selection : RouteSelection φ}

/-- What a plan promises of the specialist it puts first: `model` is its manifest among those that
    the planner used, `first` and `latest` are the snapshots read before and after the estimates. -/
structure SafeSpecialist (cfg : PlannerSettings π) (turn : PlanTurn π φ ρ)
    (selection : RouteSelection φ) (planner : Planner ρ) (plan : LivePlan π)
    (tenantId task : String) (first latest : RouteSnapshot) (request : ProviderRequest)
    (features : φ) (decision : PolicyDecision) (router : ρ) (model : RoutedModel)
    (c : LiveCandidate π) : Prop
    extends Qualified cfg turn selection plan.policy first tenantId request features decision router
      model c where
  firstRead : ∃ object, turn.firstSnapshot = .ok (object, first)
  latestRead : ∃ object, turn.latestSnapshot = .ok (object, latest)
  policy : first.policy = some plan.policy ∧ latest.policy = some plan.policy
  allowed : plan.policy.liveSpecialistsAllowed = true
  live : first.enabled tenantId task = true ∧ latest.enabled tenantId task = true
  stillEnabled : c.name ∉ latest.disabledSpecialists
  selected : selection.request = some request ∧ selection.features = some features ∧
    selection.policy = some decision
  specialist : c.specialist = true
  eligible : c.name ∈ plan.policy.eligibleSpecialistVersions
  manifest : planner.manifests.lookup c.name = some model
  deployment : c.deployment = specialistDeployment selection c.name model
  least : ∀ other ∈ plan.considered, other.specialist = true →
    other.rejectionReason = none ∨ other.rejectionReason = some .notSelected →
      sortKey request c ≤ sortKey request other

/-- The candidates of a plan: one specialist at most, and the foundation. -/
structure SafePlan (cfg : PlannerSettings π) (turn : PlanTurn π φ ρ) (selection : RouteSelection φ)
    (planner : Planner ρ) (plan : LivePlan π) (tenantId task : String)
    (chosen : List (LiveCandidate π)) : Prop where
  candidates : plan.candidates = chosen ++ [foundationCandidate cfg selection]
  length_le : chosen.length ≤ 1
  safe : ∀ c ∈ chosen, ∃ first latest request features decision router model,
    SafeSpecialist cfg turn selection planner plan tenantId task first latest request features
      decision router model c

/-- The foundation alone, with whatever reason. -/
theorem safePlan_foundation {planner : Planner ρ} {plan : LivePlan π} {tenantId task : String}
    (h : plan.candidates = [foundationCandidate cfg selection]) :
    SafePlan cfg turn selection planner plan tenantId task [] where
  candidates := h
  length_le := Nat.zero_le 1
  safe c hc := by cases hc

/-- The candidates after the estimates, in the order of the sort and marked by the latest
    snapshot. -/
def markedCandidates (latest : RouteSnapshot) (request : ProviderRequest)
    (candidates : List (LiveCandidate π)) : List (LiveCandidate π) :=
  (candidates.insertionSort fun a b => sortKey request a ≤ sortKey request b).map
    (markDisabled latest)

theorem markedCandidates_sorted (latest : RouteSnapshot) (request : ProviderRequest)
    (candidates : List (LiveCandidate π)) :
    (markedCandidates latest request candidates).Pairwise fun a b =>
      sortKey request a ≤ sortKey request b := by
  unfold markedCandidates
  rw [List.pairwise_map]
  simp only [markDisabled_sortKey]
  exact List.pairwise_insertionSort _ _

theorem mem_markedCandidates {latest : RouteSnapshot} {request : ProviderRequest}
    {candidates : List (LiveCandidate π)} {c : LiveCandidate π}
    (h : c ∈ markedCandidates latest request candidates) :
    ∃ c₀ ∈ candidates, markDisabled latest c₀ = c := by
  obtain ⟨c₀, hc₀, rfl⟩ := List.mem_map.1 h
  exact ⟨c₀, (List.mem_insertionSort _).1 hc₀, rfl⟩

/-- The plan of `choose`: the first of the marked candidates without a reason, if there is one. -/
theorem choose_candidates (foundation : LivePlan π) (policy : LivePolicy) (latest : RouteSnapshot)
    (candidates : List (LiveCandidate π)) :
    (choose foundation policy latest candidates).candidates =
      ((candidates.map (markDisabled latest)).find? (·.rejectionReason = none)).toList ++
        foundation.candidates := by
  rw [← filter_markUnselected]
  rfl

/-- The specialists from the manifests on. -/
theorem planSpecialists_safe {planner planner' : Planner ρ} {foundation plan : LivePlan π}
    {policy : LivePolicy} {first : RouteSnapshot} {tenantId task : String}
    {request : ProviderRequest} {features : φ} {decision : PolicyDecision} {routerVersion : String}
    {object : ℕ} (hfoundation : foundation.candidates = [foundationCandidate cfg selection])
    (hread : turn.firstSnapshot = .ok (object, first)) (hpolicy : first.policy = some policy)
    (hallowed : policy.liveSpecialistsAllowed = true) (henabled : first.enabled tenantId task = true)
    (hselected : selection.request = some request ∧ selection.features = some features ∧
      selection.policy = some decision)
    (h : planSpecialists cfg turn selection planner foundation policy first tenantId task request
      features decision routerVersion = .ok (plan, planner')) :
    ∃ chosen, SafePlan cfg turn selection planner' plan tenantId task chosen := by
  unfold planSpecialists at h
  obtain ⟨manifest, _, h⟩ := Except.bind_eq_ok.1 h
  split at h
  · cases h
    exact ⟨[], safePlan_foundation hfoundation⟩
  obtain ⟨⟨router, planner₁⟩, hrouter, h⟩ := Except.bind_eq_ok.1 h
  obtain ⟨candidates, hcandidates, h⟩ := Except.bind_eq_ok.1 h
  obtain ⟨⟨object', latest⟩, hlatest, h⟩ := Except.bind_eq_ok.1 h
  dsimp only at h
  split at h
  · cases h
    exact ⟨[], safePlan_foundation hfoundation⟩
  rename_i hstill
  rw [not_or] at hstill
  cases h
  refine ⟨((markedCandidates latest request candidates).find? (·.rejectionReason = none)).toList,
    ?_, Option.length_toList_le, ?_⟩
  · rw [choose_candidates, hfoundation]
    rfl
  intro c hc
  have hfind := Option.mem_toList.1 hc
  have hnone : c.rejectionReason = none := by simpa using List.find?_some hfind
  obtain ⟨c₀, hc₀, hmark⟩ := mem_markedCandidates (List.mem_of_find?_eq_some hfind)
  obtain ⟨hsame, hdisabled⟩ := markDisabled_eq_none latest (hmark ▸ hnone)
  obtain rfl : c₀ = c := hsame.symm.trans hmark
  obtain ⟨version, hversion, hconsider⟩ := Except.mem_of_mapM_eq_ok hcandidates hc₀
  obtain ⟨rfl, hspecialist, _, model, hmodel, hdeployment, hqualified⟩ := consider_eq_ok hconsider
  refine ⟨first, latest, request, features, decision, router, model, {
    toQualified := hqualified hnone
    firstRead := ⟨object, hread⟩
    latestRead := ⟨object', hlatest⟩
    policy := ⟨hpolicy, not_not.1 hstill.1⟩
    allowed := hallowed
    live := ⟨henabled, by simpa using hstill.2⟩
    stillEnabled := hdisabled
    selected := hselected
    specialist := hspecialist
    eligible := hversion
    manifest := hmodel
    deployment := hdeployment
    least := ?_ }⟩
  intro other hother hspec hreason
  obtain hother | hother := List.mem_append.1 hother
  · obtain ⟨c₁, hc₁, _, hkey, hsame⟩ := mem_markUnselected request hother
    have hnone₁ : c₁.rejectionReason = none := by
      obtain ⟨c₂, hc₂, rfl⟩ := mem_markedCandidates hc₁
      obtain ⟨_, _, hconsider₂⟩ := Except.mem_of_mapM_eq_ok hcandidates hc₂
      have hne := markDisabled_ne_notSelected latest (consider_eq_ok hconsider₂).2.2.1
      obtain hsame | hsame := hsame
      · exact hsame ▸ hreason.resolve_right (hsame ▸ hne)
      · exact hsame
    rw [hkey]
    exact find?_le (markedCandidates_sorted latest request candidates) hfind hc₁ hnone₁
  · rw [hfoundation] at hother
    obtain rfl := List.mem_singleton.1 hother
    cases hspec

/-- The live path, when no step of it raises. -/
theorem live_safe {planner planner' : Planner ρ} {foundation plan : LivePlan π}
    {tenantId task : String}
    (hfoundation : foundation.candidates = [foundationCandidate cfg selection])
    (h : live cfg turn selection planner foundation tenantId task = .ok (plan, planner')) :
    ∃ chosen, SafePlan cfg turn selection planner' plan tenantId task chosen := by
  unfold live at h
  obtain ⟨⟨object, first⟩, hread, h⟩ := Except.bind_eq_ok.1 h
  dsimp only at h
  cases hpolicy : first.policy with
  | none =>
    rw [hpolicy] at h
    cases h
    exact ⟨[], safePlan_foundation hfoundation⟩
  | some policy =>
    simp only [hpolicy] at h
    split at h
    · cases h
      exact ⟨[], safePlan_foundation hfoundation⟩
    rename_i hallowed
    split at h
    · cases h
      exact ⟨[], safePlan_foundation hfoundation⟩
    rename_i henabled
    split at h
    · rename_i request features decision routerVersion hrequest hfeatures hdecision hrouter
      obtain ⟨planner₁, _, h⟩ := Except.bind_eq_ok.1 h
      exact planSpecialists_safe hfoundation hread hpolicy (by simpa using hallowed)
        (by simpa using henabled) ⟨hrequest, hfeatures, hdecision⟩ h
    · cases h
      exact ⟨[], safePlan_foundation hfoundation⟩

/-- Every plan is a safe one. -/
theorem exists_safePlan (cfg : PlannerSettings π) (turn : PlanTurn π φ ρ) (selection : RouteSelection φ)
    (planner : Planner ρ) (options : PlanOptions) (tenantId task : String) :
    ∃ chosen, SafePlan cfg turn selection (plan cfg turn selection planner options tenantId task).2
      (plan cfg turn selection planner options tenantId task).1 tenantId task chosen := by
  unfold plan
  dsimp only
  split
  · exact ⟨[], safePlan_foundation rfl⟩
  · split
    · rename_i result hlive
      exact live_safe rfl hlive
    · exact ⟨[], safePlan_foundation rfl⟩

/-- **Safety of the live plan.** Whatever the store, the registry, the breakers, the router, the
    loader and the caches of the planner answer, a plan is at most one specialist, one that passed
    every check, and then the foundation, which is in it once. When a step of the live path raises,
    the foundation is all. -/
theorem plan_safe (cfg : PlannerSettings π) (turn : PlanTurn π φ ρ) (selection : RouteSelection φ)
    (planner : Planner ρ) (options : PlanOptions) (tenantId task : String) :
    (∃ chosen, SafePlan cfg turn selection (plan cfg turn selection planner options tenantId task).2
      (plan cfg turn selection planner options tenantId task).1 tenantId task chosen) ∧
    (plan cfg turn selection planner options tenantId task).1.candidates.filter (!·.specialist) =
      [foundationCandidate cfg selection] ∧
    ∀ e, live cfg turn selection planner (foundationPlan cfg turn selection options) tenantId task =
        .error e →
      (plan cfg turn selection planner options tenantId task).1.candidates =
        [foundationCandidate cfg selection] := by
  have hsafe : ∃ chosen, SafePlan cfg turn selection
      (plan cfg turn selection planner options tenantId task).2
      (plan cfg turn selection planner options tenantId task).1 tenantId task chosen := by
    unfold plan
    dsimp only
    split
    · exact ⟨[], safePlan_foundation rfl⟩
    · split
      · rename_i result hlive
        exact live_safe rfl hlive
      · exact ⟨[], safePlan_foundation rfl⟩
  refine ⟨hsafe, ?_, fun e he => ?_⟩
  · obtain ⟨chosen, h⟩ := hsafe
    have hspecialists : chosen.filter (!·.specialist) = [] := by
      refine List.filter_eq_nil_iff.2 fun c hc => ?_
      obtain ⟨_, _, _, _, _, _, _, hc⟩ := h.safe c hc
      simp [hc.specialist]
    rw [h.candidates, List.filter_append, hspecialists]
    rfl
  · unfold plan
    dsimp only
    split
    · rfl
    · rw [he]
      rfl

end Plan

namespace Samples

/-- A version as the registry has it. -/
def manifest (version architecture : String) : RoutedModel where
  registryId := "support"
  version := version
  state := .production
  tenantIds := ["acme"]
  adapterArchitecture := architecture
  datasets := []
  trainingJobId := "job"
  artifactDigest := "digest"
  storageLocation := "models"
  baseModelId := "base"

/-- A live policy of two specialists. -/
def policy : LivePolicy where
  policyId := "p1"
  eligibleSpecialistVersions := ["v2", "v1"]
  tenantEnabled := [("acme", true)]
  taskEnabled := [("general", true)]
  liveSpecialistsAllowed := true
  routerVersion := some "router"
  canary := { trafficFraction := 1 }
  unique_specialists := by decide
  promoted_router := by decide

/-- Two specialists that pass every check, at one price. -/
def turn : PlanTurn Unit Unit Unit where
  foundationSnapshot := .ok { policy := some policy }
  firstSnapshot := .ok (1, { policy := some policy })
  latestSnapshot := .ok (1, { policy := some policy })
  manifest version :=
    .ok (manifest version (if version = "router" then "router-logistic-v1" else "lora"))
  latestManifest version := .ok (manifest version "router-logistic-v1")
  readRouter _ := .ok ()
  estimate _ _ _ := .ok { suitability := 1, confidence := 1, ood := 0, latencyMs := 1 }
  breakers _ := {}
  breakerClock _ := 0
  load _ := .ok ()

/-- The route of one interaction. -/
def selection : RouteSelection Unit where
  interactionId := "i1"
  deployment :=
    { modelDeploymentId := "foundation"
      modelProvider := "fake"
      modelId := "foundation"
      modelVersion := "1"
      processingRegion := "local"
      priceList :=
        { version := "1", inputMicrosPer1000Tokens := 2000, outputMicrosPer1000Tokens := 2000 } }
  features := some ()
  request := some { inputTokens := 100, maxOutputTokens := 100 }
  policy := some {}

end Samples

open Samples in
example :
    (plan ⟨(), fun _ purpose => purpose, fun _ => 0⟩ turn selection {} { mode := .auto } "acme"
      "general").1.considered.map (fun c => (c.name, c.rejectionReason)) =
      [("v1", none), ("v2", some .notSelected), ("foundation", none)] := by
  decide +kernel

end Live

end AdaptiveLlm
