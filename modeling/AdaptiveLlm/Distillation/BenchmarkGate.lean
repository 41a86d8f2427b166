import AdaptiveLlm.Distillation.Benchmarks
import AdaptiveLlm.Registry.History

set_option autoImplicit false

/-! # The benchmark gate

The registry and the benchmarks side by side (`registry/sqlite.py`, `distillation/benchmark.py`):
calls of the registry, whose gate is `allows` over the reports stored by then, and runs of benchmarks,
which read the registry when they begin and publish later. No model that needs a benchmark is approved
or in use without one that it passed, whatever the order of the steps.

Where pruning research is enabled, `app.py` installs another gate, which answers for pruned models
itself and asks the ordinary one about all others, and the research service publishes reports in the
same table. What it asks and measures is not modelled: its answers about pruned models and its reports
are any. So with research on, what is said of approvals is said of the distilled models that are not
pruned, and what is said of the contents of a report is said with research off.

The invariant has one part for each place where a report is used: the rows of the registry, the runs
under way, which have read the registry as it was when they began, and the reports stored. A run can
be overtaken by any call, so all that it has read is stated as something that stays: stored
evaluations are never changed, and of a model nothing that a report names (`Succeeds`). Then what a
report names still holds when it is published, and what an approval rested on still holds later. -/

namespace AdaptiveLlm

namespace Distillation

/-! ## The system -/

/-- The registry, the stored benchmark reports and the runs that have begun. -/
structure BenchmarkSystem where
  registry : Registry := {}
  /-- `benchmark_reports` -/
  reports : List BenchmarkReport := []
  /-- the runs that are measuring -/
  running : List Prepared := []

/-- `benchmarker.allows`. An exception ends the call that asked; to count it as a no only lets more calls
    through. -/
def ordinaryGate (thresholds : Targets) (sv : BenchmarkServices) (checks : RegistryChecks)
    (s : BenchmarkSystem)
    (model : ModelManifest) (evaluation : EvaluationReport) (identity : Identity) : Bool :=
  match allows thresholds sv checks s.registry s.reports identity model evaluation with
  | .ok allowed => allowed
  | .error _ => false

/-- An answer about a model to be approved on an evaluation. -/
abbrev GateAnswer : Type := ModelManifest → EvaluationReport → Identity → Bool

/-- The `benchmark_gate` of the registry: with pruning research, `pruned` is what the research service says
    about pruned models. -/
def gate (thresholds : Targets) (sv : BenchmarkServices) (checks : RegistryChecks) (s : BenchmarkSystem)
    (pruned : Option GateAnswer) : GateAnswer := fun model evaluation identity =>
  match pruned with
  | none => ordinaryGate thresholds sv checks s model evaluation identity
  | some answer =>
    if model.adapterArchitecture = "pruned-full-v1" then answer model evaluation identity
    else ordinaryGate thresholds sv checks s model evaluation identity

/-- The checks of a registry that has the gate. -/
def gated (thresholds : Targets) (sv : BenchmarkServices) (checks : RegistryChecks) (s : BenchmarkSystem)
    (pruned : Option GateAnswer) : RegistryChecks :=
  { checks with benchmarkGate := some (gate thresholds sv checks s pruned) }

section System

variable (thresholds : Targets) (research : Bool)

/-- `research` says whether pruning research is enabled. -/
inductive BenchmarkStep : BenchmarkSystem → BenchmarkSystem → Prop
  /-- a call of the registry -/
  | call {s : BenchmarkSystem} {sv : BenchmarkServices} {checks : RegistryChecks} {call : RegistryCall}
      {r : Registry} (pruned : Option GateAnswer) (wired : pruned.isSome = research)
      (ran : call.run (gated thresholds sv checks s pruned) s.registry = .ok r) :
      BenchmarkStep s { s with registry := r }
  /-- a transaction about training jobs -/
  | unrelated {s : BenchmarkSystem} {r : Registry} (other : Unrelated s.registry r) :
      BenchmarkStep s { s with registry := r }
  /-- a run has read what it needs -/
  | begin {s : BenchmarkSystem} {sv : BenchmarkServices} {checks : RegistryChecks} {identity : Identity}
      {isLocal : Bool} {specification : BenchmarkSpecification} {p : Prepared}
      (began : begin sv checks s.registry s.reports identity isLocal specification = .ok (.inr p)) :
      BenchmarkStep s { s with running := s.running ++ [p] }
  /-- a run has measured and publishes -/
  | finish {s : BenchmarkSystem} {sv : BenchmarkServices} {checks : RegistryChecks} {identity : Identity}
      {p : Prepared} {measured : Measured} {reports : List BenchmarkReport} (running : p ∈ s.running)
      (published : publish sv s.reports identity (p.report thresholds checks measured) = .ok reports) :
      BenchmarkStep s { s with reports, running := s.running.erase p }
  /-- a run fails or its process ends -/
  | abandon {s : BenchmarkSystem} {p : Prepared} : BenchmarkStep s { s with running := s.running.erase p }
  /-- the research service publishes a report of its own -/
  | research {s : BenchmarkSystem} {sv : BenchmarkServices} {identity : Identity} {report : BenchmarkReport}
      {reports : List BenchmarkReport} (enabled : research = true)
      (published : publish sv s.reports identity report = .ok reports) : BenchmarkStep s { s with reports }

/-- The states of a system that starts empty. -/
def BenchmarkSystem.Reachable (s : BenchmarkSystem) : Prop :=
  Relation.ReflTransGen (BenchmarkStep thresholds research) {} s

end System

/-! ## What a call of the registry makes of the models

A call either approves one model, with all that an approval has checked, or brings no model into use
that was not approved before. This is the one place where the calls are taken apart. -/

/-- The later row of a model: its state and what follows from it may have changed. -/
structure Succeeds (m m' : ModelManifest) : Prop where
  version : m'.version = m.version
  artifactDigest : m'.artifactDigest = m.artifactDigest
  adapterArchitecture : m'.adapterArchitecture = m.adapterArchitecture
  distillation : m'.distillation = m.distillation
  history : m.lifecycleHistory <+: m'.lifecycleHistory

theorem Succeeds.refl (m : ModelManifest) : Succeeds m m := ⟨rfl, rfl, rfl, rfl, List.prefix_rfl⟩

theorem Succeeds.trans {m m' m'' : ModelManifest} (h : Succeeds m m') (h' : Succeeds m' m'') :
    Succeeds m m'' :=
  ⟨h'.version.trans h.version, h'.artifactDigest.trans h.artifactDigest,
    h'.adapterArchitecture.trans h.adapterArchitecture, h'.distillation.trans h.distillation,
    h.history.trans h'.history⟩

/-- The model was approved at some time. -/
def Used (m : ModelManifest) : Prop := ∃ entry ∈ m.lifecycleHistory, entry.toState.approvedUse = true

/-- Models stay, reports stay, and none of the models was approved. -/
structure Kept (r r' : Registry) : Prop where
  models : ∀ v m, r.modelVersions v = some m → ∃ m', r'.modelVersions v = some m' ∧ Succeeds m m'
  used : ∀ v m', r'.modelVersions v = some m' → Used m' → ∃ m, r.modelVersions v = some m ∧
    Used m ∧ Succeeds m m'
  evaluations : ∀ id stored, r.evaluationReports id = some stored → r'.evaluationReports id = some stored

theorem Kept.refl (r : Registry) : Kept r r :=
  ⟨fun _ m h => ⟨m, h, .refl m⟩, fun _ m h hused => ⟨m, h, hused, .refl m⟩, fun _ _ h => h⟩

theorem Kept.trans {r r' r'' : Registry} (h : Kept r r') (h' : Kept r' r'') : Kept r r'' := by
  refine ⟨fun v m hm => ?_, fun v m'' hm'' hused'' => ?_, fun id stored hid =>
    h'.evaluations id stored (h.evaluations id stored hid)⟩
  · obtain ⟨m', hm', hnext⟩ := h.models v m hm
    obtain ⟨m'', hm'', hnext'⟩ := h'.models v m' hm'
    exact ⟨m'', hm'', hnext.trans hnext'⟩
  · obtain ⟨m', hm', hused', hnext'⟩ := h'.used v m'' hm'' hused''
    obtain ⟨m, hm, hused, hnext⟩ := h.used v m' hm' hused'
    exact ⟨m, hm, hused, hnext.trans hnext'⟩

section Moves

variable {checks : RegistryChecks} {identity : Identity} {r r' : Registry}

theorem kept_of_eq (hmodels : r'.modelVersions = r.modelVersions)
    (hevaluations : ∀ id stored, r.evaluationReports id = some stored → r'.evaluationReports id =
      some stored) :
    Kept r r' :=
  ⟨fun _ m hm => ⟨m, hmodels ▸ hm, .refl m⟩, fun _ m hm hused => ⟨m, hmodels ▸ hm, hused, .refl m⟩,
    hevaluations⟩

theorem kept_of_unrelated (h : Unrelated r r') : Kept r r' := kept_of_eq h.modelVersions h.evaluationReports

/-- One model has changed its row. -/
theorem kept_of_update {m m' : ModelManifest} (hm : r.modelVersions m.version = some m)
    (hnext : Succeeds m m')
    (hused : Used m' → Used m) (hmodels : r'.modelVersions =
      Function.update r.modelVersions m.version (some m'))
    (hevaluations : r'.evaluationReports = r.evaluationReports) : Kept r r' := by
  refine ⟨fun v n hn => ?_, fun v n' hn' hused' => ?_, fun id stored hid => hevaluations ▸ hid⟩
  · by_cases hv : v = m.version
    · subst hv
      obtain rfl := Option.some.inj (hm.symm.trans hn)
      exact ⟨m', by rw [hmodels, Function.update_self], hnext⟩
    · exact ⟨n, by rw [hmodels, Function.update_of_ne hv, hn], .refl n⟩
  · rw [hmodels] at hn'
    by_cases hv : v = m.version
    · subst hv
      rw [Function.update_self] at hn'
      obtain rfl := Option.some.inj hn'
      exact ⟨m, hm, hused hused', hnext⟩
    · rw [Function.update_of_ne hv] at hn'
      exact ⟨n', hn', hused', .refl n'⟩

theorem succeeds_of_transitioned {m updated : ModelManifest} {request : PromotionRequest} {rollback : Bool}
    {entry : LifecycleTransition} (h : Registry.Transitioned checks identity r
      m request rollback entry updated r') :
    Succeeds m updated := by
  obtain ⟨reports, rfl⟩ := h.manifest
  exact ⟨rfl, rfl, rfl, rfl, List.prefix_append _ _⟩

/-- A transition other than the approval leaves it to the models to have been approved. -/
theorem kept_of_transitioned {m updated : ModelManifest} {request : PromotionRequest} {rollback : Bool}
    {entry : LifecycleTransition} (hinv : HistoryInv r) (hm : r.modelVersions m.version = some m)
    (htarget : request.targetState ≠ .approved)
    (h : Registry.Transitioned checks identity r m request rollback entry updated r') : Kept r r' := by
  refine kept_of_update hm (succeeds_of_transitioned h) ?_ ?_ (by rw [h.registry]; rfl)
  · rintro ⟨e, he, hused⟩
    obtain ⟨reports, rfl⟩ := h.manifest
    rcases List.mem_append.1 he with he | he
    · exact ⟨e, he, hused⟩
    · obtain rfl := List.mem_singleton.1 he
      rcases h.evidence (hinv.models _ _ hm) (fun _ => htarget) hused with ⟨-, hto, -⟩ | hbefore
      · exact absurd (h.toState.symm.trans hto) htarget
      · exact hbefore
  · rw [h.registry, Registry.record_modelVersions, Registry.setModel, (succeeds_of_transitioned h).version]

theorem kept_of_recordEvaluation (hkeyed : r.Keyed) {report : EvaluationReport}
    (h : r.recordEvaluation checks identity report = .ok r') : Kept r r' := by
  rcases Registry.recordEvaluation_eq_ok h with rfl | ⟨m, reports, hm, rfl⟩
  · exact .refl r'
  · exact @kept_of_update r _ m { m with evaluationReports := reports } (hkeyed.found hm)
      ⟨rfl, rfl, rfl, rfl, List.prefix_rfl⟩ (fun hused => hused) rfl rfl

/-- An approval: the one transition by which a model comes to have been approved. -/
structure Approved (checks : RegistryChecks) (r r' : Registry) (m updated : ModelManifest)
    (identity : Identity)
    (request : PromotionRequest) (entry : LifecycleTransition) : Prop where
  found : r.modelVersions m.version = some m
  target : request.targetState = .approved
  transitioned : Registry.Transitioned checks identity r m request false entry updated r'

theorem kept_of_promote (hkeyed : r.Keyed) (hinv : HistoryInv r) {request : PromotionRequest}
    {updated : ModelManifest} (h : r.promote checks identity request = .ok (updated, r')) :
    Kept r r' ∨ ∃ m entry, Approved checks r r' m updated identity request entry := by
  obtain ⟨m, hm, ⟨-, rfl⟩ | hpromoted⟩ := Registry.promote_eq_ok h
  · exact .inl (.refl r')
  have hm := hkeyed.found hm
  cases hpromoted with
  | moved _ hmoved =>
    by_cases htarget : request.targetState = .approved
    · exact .inr ⟨m, _, hm, htarget, hmoved⟩
    · exact .inl (kept_of_transitioned hinv hm htarget hmoved)
  | deployed htarget hmoved _ =>
    exact .inl ((kept_of_transitioned hinv hm (by simp [htarget]) hmoved).trans
      (kept_of_eq rfl fun _ _ h => h))
  | replaced htarget hmoved _ hincumbent _ _ hnote hretired =>
    have hkeyed₁ := hkeyed.transitioned hm hmoved
    have hinv₁ := hinv.move hkeyed (.transition hm (by simp) hmoved)
    exact .inl (((kept_of_transitioned hinv hm (by simp [htarget]) hmoved).trans
      (kept_of_transitioned hinv₁ (hkeyed₁.found hincumbent) (by simp [hnote]) hretired)).trans
        (kept_of_eq rfl fun _ _ h => h))

theorem kept_of_rollback (hkeyed : r.Keyed) (hinv : HistoryInv r) {deploymentId reason : String}
    {models : List ModelManifest} (h : r.rollback checks identity deploymentId reason = .ok (models, r')) :
    Kept r r' := by
  obtain ⟨current, previous, hrolled⟩ := Registry.rollback_eq_ok h
  obtain ⟨row, -, hcurrent, version, -, hprevious⟩ := hrolled.row
  obtain ⟨retire, restore, _, _, _, _, r₁, r₂, hretire, hretired, hrestore, hrestored, rfl⟩ := hrolled.steps
  have hcurrent := hkeyed.found hcurrent
  have hprevious : r₁.modelVersions previous.version = some previous :=
    (hretired.other (hrolled.distinct hkeyed)).trans (hkeyed.found hprevious)
  have hinv₁ := hinv.move hkeyed (.transition hcurrent (by simp [hretire]) hretired)
  exact ((kept_of_transitioned hinv hcurrent (by simp [hretire]) hretired).trans
    (kept_of_transitioned hinv₁ hprevious (by simp [hrestore]) hrestored)).trans
      (kept_of_eq rfl fun _ _ h => h)

/-- A new model was not approved yet. -/
theorem kept_of_complete {job : TrainingJob} {manifest : ModelManifest} {entry : LifecycleTransition}
    {architecture : String} (hfirst : FirstEntry manifest entry)
    (h : r.complete checks job manifest architecture = .ok r') : Kept r r' := by
  obtain ⟨hnew, -, data, -, rfl⟩ := Registry.complete_effect h
  rw [hfirst.history, List.foldl_cons, List.foldl_nil]
  refine ⟨fun v m hm => ?_, fun v m hm hused => ?_, fun _ _ h => h⟩
  · have hne : v ≠ manifest.version := by
      rintro rfl
      simp [hnew] at hm
    exact ⟨m, (Function.update_of_ne hne _ _).trans hm, .refl m⟩
  · replace hm : Function.update r.modelVersions manifest.version (some manifest) v = some m := hm
    by_cases hv : v = manifest.version
    · rw [hv, Function.update_self] at hm
      obtain rfl := Option.some.inj hm
      obtain ⟨e, he, hused⟩ := hused
      rw [hfirst.history, List.mem_singleton] at he
      rw [he, hfirst.toState] at hused
      cases hused
    · rw [Function.update_of_ne hv] at hm
      exact ⟨m, hm, hused, .refl m⟩

theorem kept_of_publish (hkeyed : r.Keyed) {report : EvaluationReport} {tenants : List String}
    {lockBaseline : Bool} {expectedBaseline : Option String}
    (h : r.publish checks identity report tenants lockBaseline expectedBaseline = .ok r') : Kept r r' := by
  obtain ⟨hnew, data, -, hrecord⟩ := Registry.publish_eq_ok h
  have hstored : Kept r ((r.storeReport report tenants lockBaseline).emit checks tenants data) := by
    refine kept_of_eq rfl fun id stored hid => ?_
    have hne : id ≠ report.specification.evaluationId := by
      rintro rfl
      simp [hnew] at hid
    exact (Function.update_of_ne hne _ _).trans hid
  exact hstored.trans (kept_of_recordEvaluation (hkeyed.of_modelVersions rfl) hrecord)

/-- **A call of the registry approves a model, or leaves it to them to have been approved.** -/
theorem kept_of_call (hkeyed : r.Keyed) (hinv : HistoryInv r) {call : RegistryCall}
    (h : call.run checks r = .ok r') :
    Kept r r' ∨ ∃ m updated identity request entry,
        Approved checks r r' m updated identity request entry := by
  cases call with
  | complete job manifest entry first => exact .inl (kept_of_complete first h)
  | promote identity request =>
    obtain ⟨⟨updated, _⟩, hcall, rfl⟩ := Except.map_eq_ok.1 h
    obtain hkept | ⟨m, entry, happroved⟩ := kept_of_promote hkeyed hinv hcall
    · exact .inl hkept
    · exact .inr ⟨m, updated, identity, request, entry, happroved⟩
  | rollback identity deploymentId reason =>
    obtain ⟨⟨models, _⟩, hcall, rfl⟩ := Except.map_eq_ok.1 h
    exact .inl (kept_of_rollback hkeyed hinv hcall)
  | publish identity report tenants lockBaseline expectedBaseline => exact .inl (kept_of_publish hkeyed h)

/-! ## What an approval rests on -/

/-- The models that the registry asks the ordinary gate about: distilled ones, and pruned ones that the
    research service does not answer for. -/
def NeedsBenchmark (research : Bool) (m : ModelManifest) : Prop :=
  m.adapterArchitecture ≠ "router-logistic-v1" ∧
    if m.adapterArchitecture = "pruned-full-v1" then research = false else m.distillation.isSome = true

/-- A stored report of the model that has passed. -/
structure Evaluated (r : Registry) (m : ModelManifest) (id : String)
    (evaluation : EvaluationReport) : Prop where
  stored : ∃ tenants, r.evaluationReports id = some (tenants, evaluation)
  passed : evaluation.passed = true
  candidate : evaluation.specification.candidateDeploymentId = m.version
  artifact : evaluation.candidateArtifactDigest = some m.artifactDigest

theorem evaluated_of_matches {m : ModelManifest} {id : String} {evaluation : EvaluationReport}
    {dataset : DatasetLineage}
    (h : r.evaluation checks identity id = .ok (some evaluation))
    (hmatches : Registry.reportMatches checks m dataset evaluation = true) :
    Evaluated r m id evaluation := by
  simp only [Registry.reportMatches, Bool.and_eq_true, decide_eq_true_eq] at hmatches
  exact ⟨Registry.evaluation_eq_ok h, hmatches.1.1.1.1.1.1.1, hmatches.1.1.1.1.1.2, hmatches.1.1.1.2⟩

/-- A yes of `_passed` about a model that needs a benchmark is one of the gate as well. -/
theorem passed_gated {research : Bool} {m : ModelManifest} (hneeds : NeedsBenchmark research m)
    {evaluationId : Option String}
    (h : r.passed checks identity m evaluationId = .ok true) :
    ∃ id evaluation, evaluationId = some id ∧ Evaluated r m id evaluation ∧
      (checks.benchmarkGate.any fun gate => gate m evaluation identity) = true := by
  unfold Registry.passed at h
  obtain ⟨dataset, -, h⟩ := Except.bind_eq_ok.1 h
  cases evaluationId with
  | none => cases h
  | some id =>
    obtain ⟨found, hfound, h⟩ := Except.bind_eq_ok.1 h
    rw [if_neg hneeds.1] at h
    cases found with
    | none => cases h
    | some evaluation =>
      refine ⟨id, evaluation, rfl, ?_⟩
      dsimp only at h
      cases hbaseline : evaluation.specification.baselineDeploymentId with
      | none => rw [hbaseline] at h; cases h
      | some baselineId =>
        rw [hbaseline] at h
        dsimp only at h
        split at h
        · cases h
        rename_i hpruned
        split at h
        · cases h
        rename_i hdistilled
        obtain ⟨baseline, -, h⟩ := Except.bind_eq_ok.1 h
        cases baseline with
        | none => simp at h
        | some baseline =>
          simp only [Option.any_some, Except.ok.injEq, Bool.and_eq_true] at h
          refine ⟨evaluated_of_matches hfound h.1.1.1.2, by_contra fun hgate => ?_⟩
          -- without the gate one of the two branches above is taken
          have hneeded := hneeds.2
          split_ifs at hneeded with harchitecture
          · exact hpruned ⟨harchitecture, .inr hgate⟩
          · exact hdistilled ⟨hneeded, .inr hgate⟩

end Moves

/-! ## What the gate rests on

The gate looks for reports of the evaluation and asks of one that it passed, that it meets the
thresholds and that it names the model as it is. What a run has found before it measures is what it
still says when it publishes, as evaluations and lineages do not change. -/

section Gate

variable {thresholds : Targets} {sv : BenchmarkServices} {checks : RegistryChecks} {r : Registry}
  {reports : List BenchmarkReport} {identity : Identity}

theorem get_eq_ok {benchmarkId : String} {report : BenchmarkReport}
    (h : get sv reports identity benchmarkId = .ok (some report)) :
    report ∈ reports ∧ report.specification.benchmarkId = benchmarkId := by
  unfold get at h
  obtain ⟨_, -, h⟩ := Except.bind_eq_ok.1 h
  split at h
  · cases h
  rename_i stored hstored
  obtain ⟨_, -, h⟩ := Except.bind_eq_ok.1 h
  have hid := List.find?_some hstored
  split_ifs at h
  · obtain rfl := Option.some.inj (Except.ok.inj h)
    exact ⟨List.mem_of_find?_eq_some hstored, of_decide_eq_true hid⟩
  · cases h

theorem mem_of_forEvaluation {candidate evaluation : String} {found : List BenchmarkReport}
    (h : forEvaluation sv reports identity candidate evaluation = .ok found) {report : BenchmarkReport}
    (hreport : report ∈ found) : report ∈ reports := by
  unfold forEvaluation at h
  obtain ⟨_, -, h⟩ := Except.bind_eq_ok.1 h
  obtain ⟨answers, hanswers, h⟩ := Except.bind_eq_ok.1 h
  obtain rfl := Except.ok.inj h
  obtain ⟨answer, hanswer, hsome⟩ := List.mem_filterMap.1 (List.mem_filter.1 hreport).1
  obtain rfl : answer = some report := hsome
  obtain ⟨row, -, hget⟩ := Except.mem_of_mapM_eq_ok hanswers hanswer
  exact (get_eq_ok hget).1

theorem allows_eq_true {m : ModelManifest} {evaluation : EvaluationReport}
    (h : allows thresholds sv checks r reports identity m evaluation = .ok true) :
    ∃ lineage, m.distillation = some lineage ∧ evaluation.distillation = some lineage ∧
      ∃ report ∈ reports, supports thresholds m lineage evaluation report = true := by
  unfold allows at h
  split at h
  · cases h
  rename_i lineage hlineage
  split at h
  · cases h
  rename_i hevaluation
  obtain ⟨teacher, -, h⟩ := Except.bind_eq_ok.1 h
  split at h
  · cases h
  obtain ⟨found, hfound, h⟩ := Except.bind_eq_ok.1 h
  obtain ⟨report, hreport, hsupports⟩ := List.any_eq_true.1 (Except.ok.inj h)
  exact ⟨lineage, hlineage, not_not.1 hevaluation, report, mem_of_forEvaluation hfound hreport, hsupports⟩

theorem publish_eq_ok {report : BenchmarkReport} {reports' : List BenchmarkReport}
    (h : publish sv reports identity report = .ok reports') :
    reports' = reports ++ [report] ∧
      ∀ old ∈ reports, old.specification.benchmarkId ≠ report.specification.benchmarkId := by
  unfold publish at h
  obtain ⟨_, -, h⟩ := Except.bind_eq_ok.1 h
  obtain ⟨_, -, h⟩ := Except.bind_eq_ok.1 h
  obtain ⟨_, hnew, h⟩ := Except.bind_eq_ok.1 h
  have hnew := demand_eq_ok.1 hnew
  simp only [Bool.not_eq_true', List.any_eq_false, decide_eq_true_eq] at hnew
  exact ⟨(Except.ok.inj h).symm, hnew⟩

/-- What a run has found when it begins to measure. -/
structure Prepared.Sound (r : Registry) (p : Prepared) : Prop where
  candidate : p.model.version = p.specification.candidateVersion
  model : ∃ m, r.modelVersions p.specification.candidateVersion = some m ∧ Succeeds p.model m
  distilled : p.model.distillation = some p.lineage
  stored : ∃ tenants, r.evaluationReports p.specification.evaluationId = some (tenants, p.evaluation)
  lineage : p.evaluation.distillation = some p.lineage
  artifact : p.evaluation.candidateArtifactDigest = some p.model.artifactDigest
  covered : 0 < p.read.cases ∧ p.read.cases ≤ p.specification.requests

theorem sound_of_begin (hkeyed : r.Keyed) {isLocal : Bool} {specification : BenchmarkSpecification}
    {p : Prepared}
    (h : begin sv checks r reports identity isLocal specification = .ok (.inr p)) : p.Sound r := by
  unfold begin at h
  obtain ⟨_, -, h⟩ := Except.bind_eq_ok.1 h
  obtain ⟨_, -, h⟩ := Except.bind_eq_ok.1 h
  obtain ⟨existing, -, h⟩ := Except.bind_eq_ok.1 h
  cases existing with
  | some existing =>
    obtain ⟨_, -, h⟩ := Except.bind_eq_ok.1 h
    cases h
  | none =>
    obtain ⟨m, hget, h⟩ := Except.bind_eq_ok.1 h
    have hfound := Registry.get_eq_ok (Except.mapError_eq_ok.1 hget)
    obtain ⟨found, hevaluation, h⟩ := Except.bind_eq_ok.1 h
    cases found with
    | none => cases h
    | some evaluation =>
      have hstored := Registry.evaluation_eq_ok (Except.mapError_eq_ok.1 hevaluation)
      dsimp only at h
      split at h
      · cases h
      rename_i lineage hlineage
      obtain ⟨_, hmatches, h⟩ := Except.bind_eq_ok.1 h
      obtain ⟨teacher, -, h⟩ := Except.bind_eq_ok.1 h
      obtain ⟨_, -, h⟩ := Except.bind_eq_ok.1 h
      obtain ⟨_, -, h⟩ := Except.bind_eq_ok.1 h
      obtain ⟨read, -, h⟩ := Except.bind_eq_ok.1 h
      obtain ⟨_, hcovered, h⟩ := Except.bind_eq_ok.1 h
      obtain rfl := Sum.inr.inj (Except.ok.inj h)
      have hmatches := demand_eq_ok.1 hmatches
      have hcovered := demand_eq_ok.1 hcovered
      simp only [Bool.and_eq_true, decide_eq_true_eq] at hmatches hcovered
      exact ⟨(hkeyed _ _ hfound).1, ⟨m, hfound, .refl m⟩, hlineage, hstored, hmatches.1.1, hmatches.2,
        hcovered.2, hcovered.1⟩

end Gate

/-! ## The invariant

A report, an approval and a run that has begun each refer to rows of the registry. `Extends` says
which changes keep these references good, and every step is one of them. -/

/-- Where a stored report comes from: the model and the evaluation it names, and what it means that it has
    passed. -/
structure Recorded (thresholds : Targets) (r : Registry) (report : BenchmarkReport) (m : ModelManifest)
    (lineage : DistillationLineage) (evaluation : EvaluationReport) : Prop where
  model : r.modelVersions report.specification.candidateVersion = some m
  distilled : m.distillation = some lineage
  artifact : report.candidateArtifactDigest = m.artifactDigest
  teacher : report.teacherVersion = lineage.teacherVersion ∧
    report.teacherArtifactDigest = lineage.teacherArtifactDigest
  stored : ∃ tenants, r.evaluationReports report.specification.evaluationId = some (tenants, evaluation)
  evaluated : evaluation.distillation = some lineage ∧ evaluation.candidateArtifactDigest =
    some m.artifactDigest
  requests : report.student.requests = report.specification.requests ∧
    report.teacher.requests = report.specification.requests
  passed : report.passed = true → evaluation.passed = true ∧ passes thresholds report = true

/-- The benchmark that an approval of the model rested on. -/
def Benchmarked (thresholds : Targets) (s : BenchmarkSystem) (m : ModelManifest) : Prop :=
  ∃ lineage, m.distillation = some lineage ∧
    ∃ entry ∈ m.lifecycleHistory, entry.fromState = some .evaluating ∧ entry.toState = .approved ∧
      ∃ id evaluation, entry.evaluationId = some id ∧ Evaluated s.registry m id evaluation ∧
        evaluation.distillation = some lineage ∧
        ∃ report ∈ s.reports, supports thresholds m lineage evaluation report = true

/-- What every run keeps: of the reports, of the runs that measure, and of the models in use. -/
structure BenchmarkInv (thresholds : Targets) (research : Bool) (s : BenchmarkSystem) : Prop where
  keyed : s.registry.Keyed
  history : HistoryInv s.registry
  ids : (s.reports.map fun report => report.specification.benchmarkId).Nodup
  running : ∀ p ∈ s.running, p.Sound s.registry
  reports : research = false → ∀ report ∈ s.reports,
    ∃ m lineage evaluation, Recorded thresholds s.registry report m lineage evaluation
  benchmarked : ∀ v m, s.registry.modelVersions v = some m → NeedsBenchmark research m → Used m →
    Benchmarked thresholds s m

section Invariant

variable {thresholds : Targets} {research : Bool} {s s' : BenchmarkSystem} {r' : Registry}

/-- What the later rows of the registry leave true of a run and of a report. -/
structure Extends (r r' : Registry) : Prop where
  models : ∀ v m, r.modelVersions v = some m → ∃ m', r'.modelVersions v = some m' ∧ Succeeds m m'
  evaluations : ∀ id stored, r.evaluationReports id = some stored → r'.evaluationReports id = some stored

theorem Prepared.Sound.extends {r r' : Registry} {p : Prepared} (h : p.Sound r)
    (hr : Extends r r') : p.Sound r' := by
  obtain ⟨m, hm, hnext⟩ := h.model
  obtain ⟨m', hm', hnext'⟩ := hr.models _ m hm
  obtain ⟨tenants, hstored⟩ := h.stored
  exact { h with
    model := ⟨m', hm', hnext.trans hnext'⟩
    stored := ⟨tenants, hr.evaluations _ _ hstored⟩ }

theorem Recorded.extends {r r' : Registry} {report : BenchmarkReport} {m : ModelManifest}
    {lineage : DistillationLineage} {evaluation : EvaluationReport}
    (h : Recorded thresholds r report m lineage evaluation) (hr : Extends r r') :
    ∃ m', Recorded thresholds r' report m' lineage evaluation := by
  obtain ⟨m', hm', hnext⟩ := hr.models _ m h.model
  obtain ⟨tenants, hstored⟩ := h.stored
  exact ⟨m', { h with
    model := hm'
    distilled := hnext.distillation.trans h.distilled
    artifact := h.artifact.trans hnext.artifactDigest.symm
    stored := ⟨tenants, hr.evaluations _ _ hstored⟩
    evaluated := ⟨h.evaluated.1, h.evaluated.2.trans (congrArg some hnext.artifactDigest.symm)⟩ }⟩

theorem Benchmarked.extends {m m' : ModelManifest} (h : Benchmarked thresholds s m) (hnext : Succeeds m m')
    (hevaluations : ∀ id stored, s.registry.evaluationReports id = some stored →
      s'.registry.evaluationReports id = some stored) (hreports : ∀ report ∈ s.reports,
        report ∈ s'.reports) :
    Benchmarked thresholds s' m' := by
  obtain ⟨lineage, hlineage, entry, hentry, hfrom, hto, id, evaluation, hid, hevaluated,
    hdistilled, report, hreport, hsupports⟩ := h
  obtain ⟨tenants, hstored⟩ := hevaluated.stored
  refine ⟨lineage, hnext.distillation.trans hlineage, entry, hnext.history.subset hentry,
    hfrom, hto, id, evaluation, hid, ⟨⟨tenants, hevaluations _ _ hstored⟩, hevaluated.passed,
    hevaluated.candidate.trans hnext.version.symm,
      hevaluated.artifact.trans (congrArg some hnext.artifactDigest.symm)⟩, hdistilled,
        report, hreports report hreport, ?_⟩
  rw [supports, hnext.version, hnext.artifactDigest]
  exact hsupports

theorem recorded_of_sound {r : Registry} {p : Prepared} (h : p.Sound r) (checks : RegistryChecks)
    (measured : Measured) : ∃ m, Recorded thresholds r (p.report thresholds checks measured)
    m p.lineage p.evaluation := by
  obtain ⟨m, hm, hnext⟩ := h.model
  refine ⟨m, hm, hnext.distillation.trans h.distilled, hnext.artifactDigest.symm, ⟨rfl, rfl⟩, h.stored,
    ⟨h.lineage, h.artifact.trans (congrArg some hnext.artifactDigest.symm)⟩, ⟨rfl, rfl⟩, fun hpassed => ?_⟩
  have hpassed : (p.evaluation.passed && checks.gatesPass p.evaluation &&
      passes thresholds (p.report thresholds checks measured)) = true := hpassed
  simp only [Bool.and_eq_true] at hpassed
  exact ⟨hpassed.1.1, hpassed.2⟩

/-! ## Steps

A step is a transaction of the registry, with the gate as it is at that moment, or one of the
benchmarks. The first can only move a model to approved past the gate; the second can only add a
report, and no report is taken away, so what an approval rested on stays. -/

theorem Kept.extends {r r' : Registry} (h : Kept r r') : Extends r r' := ⟨h.models, h.evaluations⟩

theorem extends_of_transitioned {checks : RegistryChecks} {identity : Identity}
    {r : Registry} {m updated : ModelManifest} {request : PromotionRequest} {rollback : Bool}
    {entry : LifecycleTransition}
    (hm : r.modelVersions m.version = some m)
    (h : Registry.Transitioned checks identity r m request rollback entry updated r') : Extends r r' := by
  refine ⟨fun v n hn => ?_, fun id stored hid => by rw [h.registry]; exact hid⟩
  by_cases hv : v = m.version
  · subst hv
    obtain rfl := Option.some.inj (hm.symm.trans hn)
    exact ⟨updated, h.found, succeeds_of_transitioned h⟩
  · exact ⟨n, (h.other hv).trans hn, .refl n⟩

theorem needsBenchmark_of_succeeds {m m' : ModelManifest} (hnext : Succeeds m m')
    (h : NeedsBenchmark research m') : NeedsBenchmark research m := by
  rw [NeedsBenchmark, hnext.adapterArchitecture, hnext.distillation] at h
  exact h

/-- About a model that needs a benchmark it is the ordinary gate that answers. -/
theorem gate_eq_ordinaryGate {sv : BenchmarkServices} {checks : RegistryChecks} {pruned : Option GateAnswer}
    (hwired : pruned.isSome = research) {m : ModelManifest} (hneeds : NeedsBenchmark research m)
    (evaluation : EvaluationReport) (identity : Identity) :
    gate thresholds sv checks s pruned m evaluation identity =
      ordinaryGate thresholds sv checks s m evaluation identity := by
  cases pruned with
  | none => rfl
  | some answer =>
    have hneeded := hneeds.2
    split_ifs at hneeded with harchitecture
    · rw [hneeded] at hwired
      cases hwired
    · simp only [gate, if_neg harchitecture]

/-- The gate is asked about an approval, and says yes. -/
theorem benchmarked_of_approved {sv : BenchmarkServices} {checks : RegistryChecks}
    {pruned : Option GateAnswer}
    (hwired : pruned.isSome = research) {m updated : ModelManifest} {identity : Identity}
    {request : PromotionRequest} {entry : LifecycleTransition}
    (h : Approved (gated thresholds sv checks s pruned) s.registry r' m updated identity request entry)
    (hneeds : NeedsBenchmark research m) : Benchmarked thresholds s updated := by
  obtain ⟨passed, hpassed, hvalid⟩ := h.transitioned.valid
  obtain rfl : passed = true := hvalid.approved h.target
  obtain ⟨id, evaluation, hid, hevaluated, hgate⟩ := passed_gated hneeds hpassed
  have hallows : allows thresholds sv checks s.registry s.reports identity m evaluation = .ok true := by
    simp only [gated, Option.any_some] at hgate
    rw [gate_eq_ordinaryGate hwired hneeds, ordinaryGate] at hgate
    split at hgate
    · rename_i allowed hallowed
      rw [hallowed, hgate]
    · cases hgate
  obtain ⟨lineage, hlineage, hdistilled, report, hreport, hsupports⟩ := allows_eq_true hallows
  have hevaluating : m.state = .evaluating := by
    have hedge := h.transitioned.edge
    rw [h.target] at hedge
    cases hstate : m.state <;> rw [hstate] at hedge <;> first | rfl | exact absurd hedge (by decide)
  have hnext := succeeds_of_transitioned h.transitioned
  refine ⟨lineage, hnext.distillation.trans hlineage, entry, ?_, ?_,
    h.transitioned.toState.trans h.target, id, evaluation, h.transitioned.evaluationId.trans hid,
    ⟨hevaluated.stored, hevaluated.passed,
      hevaluated.candidate.trans hnext.version.symm,
      hevaluated.artifact.trans (congrArg some hnext.artifactDigest.symm)⟩, hdistilled, report, hreport, ?_⟩
  · obtain ⟨reports, rfl⟩ := h.transitioned.manifest
    exact List.mem_append_right _ List.mem_cons_self
  · rw [h.transitioned.fromState, hevaluating]
  · rw [supports, hnext.version, hnext.artifactDigest]
    exact hsupports

theorem HistoryInv.registryStep {r r' : Registry} (hkeyed : r.Keyed) (h : HistoryInv r)
    (hstep : RegistryStep r r') : HistoryInv r' := by
  have keep : ∀ t t' : Registry, t.Keyed ∧ HistoryInv t → RegistryMove t t' → t'.Keyed ∧ HistoryInv t' :=
    fun _ _ h hmove => ⟨h.1.move hmove, h.2.move h.1 hmove⟩
  exact (Runs.reflTransGen_of_invariant keep ⟨hkeyed, h⟩ (hstep.moves hkeyed)).2

/-- A transaction of the registry, given what it makes of the models. -/
theorem BenchmarkInv.registry (h : BenchmarkInv thresholds research s)
    (hstep : RegistryStep s.registry r') (hextends : Extends s.registry r')
    (hbenchmarked : ∀ v m, r'.modelVersions v = some m → NeedsBenchmark research m → Used m →
      Benchmarked thresholds { s with registry := r' } m) :
    BenchmarkInv thresholds research { s with registry := r' } where
  keyed := hstep.keyed h.keyed
  history := HistoryInv.registryStep h.keyed h.history hstep
  ids := h.ids
  running p hp := (h.running p hp).extends hextends
  reports hoff report hreport := by
    obtain ⟨m, lineage, evaluation, hrecorded⟩ := h.reports hoff report hreport
    obtain ⟨m', hrecorded'⟩ := hrecorded.extends hextends
    exact ⟨m', lineage, evaluation, hrecorded'⟩
  benchmarked := hbenchmarked

theorem BenchmarkInv.kept (h : BenchmarkInv thresholds research s) (hstep : RegistryStep s.registry r')
    (hkept : Kept s.registry r') : BenchmarkInv thresholds research { s with registry := r' } := by
  refine h.registry hstep hkept.extends fun v m' hm' hneeds hused' => ?_
  obtain ⟨m, hm, hused, hnext⟩ := hkept.used v m' hm' hused'
  exact (h.benchmarked v m hm (needsBenchmark_of_succeeds hnext hneeds) hused).extends
    hnext hkept.evaluations fun _ hreport => hreport

/-- The ids stay apart when a report is published. -/
theorem nodup_of_publish {sv : BenchmarkServices} {identity : Identity}
    {reports reports' : List BenchmarkReport} {report : BenchmarkReport}
    (hids : (reports.map fun report => report.specification.benchmarkId).Nodup)
    (h : publish sv reports identity report = .ok reports') :
    (reports'.map fun report => report.specification.benchmarkId).Nodup := by
  obtain ⟨rfl, hnew⟩ := publish_eq_ok h
  rw [List.map_append, List.nodup_append]
  refine ⟨hids, List.nodup_singleton _, fun a ha b hb => ?_⟩
  obtain ⟨old, hold, rfl⟩ := List.mem_map.1 ha
  obtain rfl := List.mem_singleton.1 hb
  exact hnew old hold

/-- **Step lemma.** -/
theorem BenchmarkInv.step (h : BenchmarkInv thresholds research s)
    (hstep : BenchmarkStep thresholds research s s') : BenchmarkInv thresholds research s' := by
  cases hstep with
  | @call sv checks call r pruned wired ran =>
    have hstep := RegistryCall.step ran
    obtain hkept | ⟨m, updated, identity, request, entry, happroved⟩ := kept_of_call h.keyed h.history ran
    · exact h.kept hstep hkept
    · have hextends := extends_of_transitioned happroved.found happroved.transitioned
      refine h.registry hstep hextends fun v n hn hneeds hused => ?_
      by_cases hv : v = m.version
      · subst hv
        obtain rfl := Option.some.inj (happroved.transitioned.found.symm.trans hn)
        have hnext := succeeds_of_transitioned happroved.transitioned
        exact (benchmarked_of_approved wired happroved (needsBenchmark_of_succeeds hnext hneeds)).extends
          (.refl _) hextends.evaluations fun _ hreport => hreport
      · rw [happroved.transitioned.other hv] at hn
        exact (h.benchmarked v n hn hneeds hused).extends (.refl n) hextends.evaluations
          fun _ hreport => hreport
  | unrelated other => exact h.kept (.unrelated other) (kept_of_unrelated other)
  | @begin sv checks identity isLocal specification p began =>
    refine { h with running := fun q hq => ?_, benchmarked := h.benchmarked }
    rcases List.mem_append.1 hq with hq | hq
    · exact h.running q hq
    · obtain rfl := List.mem_singleton.1 hq
      exact sound_of_begin h.keyed began
  | @finish sv checks identity p measured reports running published =>
    have hids := nodup_of_publish h.ids published
    obtain ⟨rfl, -⟩ := publish_eq_ok published
    refine { h with
      ids := hids
      running := fun q hq => h.running q (List.mem_of_mem_erase hq)
      reports := fun hoff report hreport => ?_
      benchmarked := fun v m hm hneeds hused => ?_ }
    · rcases List.mem_append.1 hreport with hreport | hreport
      · exact h.reports hoff report hreport
      · obtain rfl := List.mem_singleton.1 hreport
        obtain ⟨m, hrecorded⟩ := recorded_of_sound (h.running p running) checks measured
        exact ⟨m, p.lineage, p.evaluation, hrecorded⟩
    · exact (h.benchmarked v m hm hneeds hused).extends (.refl m) (fun _ _ hid => hid)
        fun report hreport => List.mem_append_left _ hreport
  | research enabled published =>
    have hids := nodup_of_publish h.ids published
    obtain ⟨rfl, -⟩ := publish_eq_ok published
    refine { h with
      ids := hids
      reports := fun hoff => ?_
      benchmarked := fun v m hm hneeds hused => ?_ }
    · rw [hoff] at enabled
      cases enabled
    · exact (h.benchmarked v m hm hneeds hused).extends (.refl m) (fun _ _ hid => hid)
        fun report hreport => List.mem_append_left _ hreport
  | abandon =>
    exact { h with
      running := fun q hq => h.running q (List.mem_of_mem_erase hq)
      benchmarked := h.benchmarked }

theorem BenchmarkInv.empty : BenchmarkInv thresholds research {} where
  keyed v m hm := by cases hm
  history := HistoryInv.empty
  ids := List.nodup_nil
  running p hp := by cases hp
  reports _ report hreport := by cases hreport
  benchmarked v m hm := by cases hm

/-- **Run lemma.** -/
theorem BenchmarkInv.run (h : BenchmarkInv thresholds research s)
    (hrun : Relation.ReflTransGen (BenchmarkStep thresholds research) s s') :
    BenchmarkInv thresholds research s' :=
  Runs.reflTransGen_of_invariant (fun _ _ h hstep => h.step hstep) h hrun

/-! A distilled model whose teacher is the foundation model, to run the system on. -/

/-- What a list of registry calls makes of the system; a failed call leaves it. -/
def BenchmarkSystem.after (thresholds : Targets) (sv : BenchmarkServices) (checks : RegistryChecks)
    (calls : List RegistryCall) (s : BenchmarkSystem) : BenchmarkSystem :=
  calls.foldl (fun s call =>
    { s with
      registry := (call.run (gated thresholds sv checks s none) s.registry).toOption.getD s.registry }) s

theorem BenchmarkSystem.run_after (sv : BenchmarkServices) (checks : RegistryChecks)
    (calls : List RegistryCall) : Relation.ReflTransGen (BenchmarkStep thresholds false)
    s (s.after thresholds sv checks calls) := by
  induction calls generalizing s with
  | nil => exact .refl
  | cons call calls ih =>
    refine .trans ?_ ih
    show Relation.ReflTransGen (BenchmarkStep thresholds false) s
      { s with
        registry := (call.run (gated thresholds sv checks s none) s.registry).toOption.getD s.registry }
    cases hrun : call.run (gated thresholds sv checks s none) s.registry with
    | error e => exact .refl
    | ok r => exact .single (.call none rfl hrun)

namespace Distilled

open SupportModels

/-- `initial-targets.json`. -/
def initialTargets : Targets := ⟨1/50, 4, 1/5, 3/10⟩

/-- A foundation model, and a benchmark that measures no difference. -/
def services : BenchmarkServices :=
  { configured := fun id => if id = "foundation" then some ⟨"foundation-1", "weights"⟩ else none
    foundationId := "foundation"
    loads := fun _ => .ok ()
    verifyReport := fun _ => true
    signs := true
    read := fun _ _ => .ok ⟨["acme"], "digest", 4⟩ }

/-- The lineage of a model distilled from it. -/
def lineage : DistillationLineage :=
  ⟨"tickets", "1", "digest", "foundation", "foundation-1", "weights", "mix"⟩

/-- The distilled model. -/
def model : ModelManifest :=
  { registryId := "support", version := "d1", tenantIds := ["acme"], datasets := [tickets],
    trainingJobId := "d1", artifactDigest := "d1", storageLocation := "d1",
    lifecycleHistory := [entry], distillation := some lineage }

/-- The report on the foundation model. -/
def baseline : EvaluationReport :=
  { specification := ⟨"base", "foundation", none, "tickets", "1", [.golden]⟩
    candidateManifestVersion := "foundation-1", candidateArtifactDigest := some "weights"
    baselineManifestVersion := none, baselineReportId := none, datasetContentDigest := "digest",
      passed := true }

/-- The report on the distilled one. -/
def evaluation : EvaluationReport :=
  { specification := ⟨"d1", "d1", some "foundation", "tickets", "1", [.golden]⟩
    candidateManifestVersion := "d1", candidateArtifactDigest := some "d1"
    baselineManifestVersion := some "foundation-1", baselineReportId := some "base",
      datasetContentDigest := "digest"
    passed := true, distillation := some lineage }

/-- What brings the model into evaluation. -/
def toEvaluating : List RegistryCall :=
  [.complete (job "d1") model entry ⟨rfl, rfl, rfl, rfl, by decide, by decide⟩,
    .publish operator baseline ["acme"] true none,
      .publish operator evaluation ["acme"] false (some "base"),
    .promote operator (request "d1" .evaluating)]

/-- The system then. -/
def evaluated : BenchmarkSystem :=
  ({} : BenchmarkSystem).after initialTargets services acceptAll toEvaluating

/-- The benchmark that is asked for. -/
def specification : BenchmarkSpecification := ⟨"b1", "d1", "d1", 40⟩

/-- It has been checked, and is being measured. -/
def prepared : Prepared :=
  { specification, evaluation, lineage, read := ⟨["acme"], "digest", 4⟩
    model := { model with
      state := .evaluating, evaluationReports := [("d1", true)]
      lifecycleHistory := [entry, ⟨some .candidate, .evaluating, "operator", "release", some "d1"⟩] } }

theorem begun :
    begin services acceptAll evaluated.registry evaluated.reports operator true specification =
        .ok (.inr prepared) := by
  decide +kernel

/-- What it finds. -/
def measured : BenchmarkReport :=
  prepared.report initialTargets acceptAll ⟨40, 40, ⟨some 0, some (-1/100), some (1/100), 4⟩,
    some (1/2), none⟩

/-- The system once the report is stored. -/
def benchmarked : BenchmarkSystem :=
  { evaluated with reports := [measured], running := (evaluated.running ++ [prepared]).erase prepared }

theorem benchmarked_reachable : benchmarked.Reachable initialTargets false := by
  have hevaluated : evaluated.Reachable initialTargets false :=
    BenchmarkSystem.run_after services acceptAll toEvaluating
  have hpublish : publish services evaluated.reports operator measured = .ok [measured] := by decide +kernel
  exact .tail (.tail hevaluated (.begin begun))
    (.finish (List.mem_append_right _ List.mem_cons_self) hpublish)

/-- What brings the model into shadow. -/
def toShadow : List RegistryCall :=
  [.promote operator (request "d1" .approved), .promote operator (request "d1" .shadow)]

/-- The system then. -/
def shadowed : BenchmarkSystem := benchmarked.after initialTargets services acceptAll toShadow

theorem shadowed_run : Relation.ReflTransGen (BenchmarkStep initialTargets false) benchmarked shadowed :=
  BenchmarkSystem.run_after services acceptAll toShadow

end Distilled

/-- **Every approval of a model that needs a benchmark rests on one.** Whatever the order in which
    registry calls, benchmark runs and the research service take their steps: a distilled model that
    is not pruned (with research off, any distilled or pruned one) and that was ever approved or in
    use is a distilled one, and was approved on a stored evaluation of it, for which a report is
    stored that passes the thresholds and names the model, its artifact, its teacher and the
    dataset. -/
theorem approved_benchmarked (hs : s.Reachable thresholds research) {v : String} {m : ModelManifest}
    (hm : s.registry.modelVersions v = some m) (hneeds : NeedsBenchmark research m)
    (hused : ∃ entry ∈ m.lifecycleHistory, entry.toState ∈ [LifecycleState.approved,
      .shadow, .canary, .production]) :
    Benchmarked thresholds s m := by
  obtain ⟨entry, hentry, hstate⟩ := hused
  refine (BenchmarkInv.empty.run hs).benchmarked v m hm hneeds ⟨entry, hentry, ?_⟩
  simpa [LifecycleState.approvedUse, or_assoc] using hstate

open Distilled in
theorem shadowed_benchmarked :
    ∃ m, shadowed.registry.modelVersions "d1" = some m ∧ m.state = .shadow ∧
        Benchmarked initialTargets shadowed m := by
  obtain ⟨m, hm, hshadow⟩ : ∃ m, shadowed.registry.modelVersions "d1" = some m ∧
      (m.state = .shadow ∧ m.adapterArchitecture = "deterministic-fake-adapter-v1" ∧
        m.distillation = some lineage ∧ ⟨some .approved, .shadow, "operator", "release",
        some "d1"⟩ ∈ m.lifecycleHistory) := by
    have h : (shadowed.registry.modelVersions "d1").any (fun m => m.state = .shadow ∧
        m.adapterArchitecture = "deterministic-fake-adapter-v1" ∧ m.distillation = some lineage ∧
          ⟨some .approved, .shadow, "operator", "release", some "d1"⟩ ∈ m.lifecycleHistory) = true := by
      decide +kernel
    simpa [Option.any_eq_true] using h
  obtain ⟨hstate, harchitecture, hlineage, hentry⟩ := hshadow
  refine ⟨m, hm, hstate, approved_benchmarked (benchmarked_reachable.trans shadowed_run)
    hm ?_ ⟨_, hentry, by decide⟩⟩
  exact ⟨by rw [harchitecture]; decide, by rw [harchitecture, hlineage]; rfl⟩

/-! ## Reports stay

The list of reports is only appended to, and an id is in it once. A run whose id is there already
ends with the report that is there, as soon as it looks. -/

theorem BenchmarkStep.reports_subset (hstep : BenchmarkStep thresholds research s s') :
    s.reports ⊆ s'.reports := by
  cases hstep with
  | finish _ published | research _ published =>
    obtain ⟨rfl, -⟩ := publish_eq_ok published
    exact List.subset_append_left _ _
  | _ => exact List.Subset.refl _

theorem mem_reports_of_run {report : BenchmarkReport}
    (hrun : Relation.ReflTransGen (BenchmarkStep thresholds research) s s')
    (hreport : report ∈ s.reports) : report ∈ s'.reports := by
  have keep : ∀ t t', report ∈ t.reports → BenchmarkStep thresholds research t t' → report ∈ t'.reports :=
    fun _ _ h hstep => hstep.reports_subset h
  exact Runs.reflTransGen_of_invariant keep hreport hrun

/-- The one report of its id is what the store answers, if it answers. -/
theorem get_of_mem {sv : BenchmarkServices} {identity : Identity} {reports : List BenchmarkReport}
    {report : BenchmarkReport} {found : Option BenchmarkReport}
    (hids : (reports.map fun report => report.specification.benchmarkId).Nodup) (hreport : report ∈ reports)
    (h : get sv reports identity report.specification.benchmarkId = .ok found) :
    found = if report.tenantIds ⊆ identity.datasetTenants then some report else none := by
  unfold get at h
  obtain ⟨_, -, hanswer⟩ := Except.bind_eq_ok.1 h
  split at hanswer
  · rename_i hnone
    exact absurd (decide_eq_true rfl) (List.find?_eq_none.1 hnone report hreport)
  rename_i stored hstored
  obtain ⟨_, -, hfound⟩ := Except.bind_eq_ok.1 hanswer
  have hid := List.find?_some hstored
  obtain rfl := List.inj_on_of_nodup_map hids (List.mem_of_find?_eq_some hstored)
    hreport (of_decide_eq_true hid)
  exact (Except.ok.inj hfound).symm

/-- A run with the id of a stored report ends with that report, or was begun by someone who must not
    see it. -/
theorem begin_of_mem {sv : BenchmarkServices} {checks : RegistryChecks} {r : Registry} {identity : Identity}
    {reports : List BenchmarkReport} {isLocal : Bool} {specification : BenchmarkSpecification}
    {report : BenchmarkReport} {answer : BenchmarkReport ⊕ Prepared}
    (hids : (reports.map fun report => report.specification.benchmarkId).Nodup) (hreport : report ∈ reports)
    (hid : specification.benchmarkId = report.specification.benchmarkId)
    (h : begin sv checks r reports identity isLocal specification = .ok answer) :
    answer = .inl report ∧ report.specification = specification ∨
        ¬report.tenantIds ⊆ identity.datasetTenants := by
  unfold begin at h
  obtain ⟨_, -, h⟩ := Except.bind_eq_ok.1 h
  obtain ⟨_, -, h⟩ := Except.bind_eq_ok.1 h
  obtain ⟨existing, hget, h⟩ := Except.bind_eq_ok.1 h
  rw [hid] at hget
  obtain rfl := get_of_mem hids hreport hget
  split_ifs at h with hgranted
  · obtain ⟨_, hsame, h⟩ := Except.bind_eq_ok.1 h
    exact .inl ⟨(Except.ok.inj h).symm, of_decide_eq_true (demand_eq_ok.1 hsame)⟩
  · exact .inr hgranted

/-- **Benchmark reports are final.** A stored report is stored in every later state, whatever other
    runs and calls do: with the model and the evaluation that it names and what its passing means of
    them (where the research service, whose reports are any, is off), as what every later run of its
    id that returns ends with (the caller sees its tenants, or the run cannot publish), and as the
    only report that is ever published under its id. A run of its id with another specification does
    not return: it ends with `benchmark_id_conflict`. -/
theorem reports_final (hs : s.Reachable thresholds research) {report : BenchmarkReport}
    (hreport : report ∈ s.reports)
    (hrun : Relation.ReflTransGen (BenchmarkStep thresholds research) s s') :
    report ∈ s'.reports ∧
    (research = false →
      ∃ m lineage evaluation, Recorded thresholds s'.registry report m lineage evaluation) ∧
    (∀ sv checks identity isLocal specification answer,
      specification.benchmarkId = report.specification.benchmarkId →
      begin sv checks s'.registry s'.reports identity isLocal specification = .ok answer →
      answer = .inl report ∧ report.specification = specification ∨
        ¬report.tenantIds ⊆ identity.datasetTenants) ∧
    ∀ sv identity other reports, other.specification.benchmarkId = report.specification.benchmarkId →
      publish sv s'.reports identity other ≠ .ok reports := by
  have hinv := BenchmarkInv.empty.run (hs.trans hrun)
  have hmem := mem_reports_of_run hrun hreport
  refine ⟨hmem, fun hoff => hinv.reports hoff report hmem, ?_, ?_⟩
  · intro sv checks identity isLocal specification answer hid hbegin
    exact begin_of_mem hinv.ids hmem hid hbegin
  · intro sv identity other reports hid hpublish
    exact (publish_eq_ok hpublish).2 report hmem hid.symm

open Distilled SupportModels in
theorem benchmark_b1_final :
    measured ∈ shadowed.reports ∧ ∀ other reports, other.specification.benchmarkId = "b1" →
      publish services shadowed.reports operator other ≠ .ok reports := by
  have h := reports_final benchmarked_reachable List.mem_cons_self shadowed_run
  exact ⟨h.1, fun other reports hid => h.2.2.2 services operator other reports hid⟩

end Invariant

end Distillation

end AdaptiveLlm
