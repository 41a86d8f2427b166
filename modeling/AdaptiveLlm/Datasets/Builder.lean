import AdaptiveLlm.Datasets.Construction
import AdaptiveLlm.Datasets.JointSplit
import AdaptiveLlm.Lib.Grouping

set_option autoImplicit false

/-! # Staging a dataset

`_stage` (`datasets/builder.py`) curates and splits the examples and writes one shard for each tenant
and split, with the manifest. The shards are their rows here. `_deleted` finds the candidates that a
tombstone took meanwhile.

The counts of a manifest are computed from the accepted examples before anything is written, and the
shards from the same splits afterwards; `stage_counts` says that the two agree, for every tenant and
split. What the publication loop does with a staged directory is in `Datasets/Publication.lean`, and
the encryption of the shards in `Datasets/Artifacts.lean`. -/

namespace AdaptiveLlm

/-- The split as a manifest writes it. -/
def Split.name : Split → String
  | .train => "train"
  | .validation => "validation"
  | .test => "test"

namespace Datasets

open Stored (Fields Store)

/-- The splits in the order in which their shards are written. -/
def SPLITS : List Split := [.train, .validation, .test]

/-! ## Shards -/

/-- The examples of a tenant in a split, which its shard has the rows of. -/
structure Shard where
  tenantId : String
  split : Split
  examples : List BuiltExample

/-- What is written of an example. -/
def stagedRow (revision : String) (split : Split) (e : BuiltExample) : Fields :=
  Json.setFields [("split", .str split.name), ("transformation_code_revision", .str revision)] e.row

/-- The rows that a shard holds. -/
def Shard.rows (revision : String) (shard : Shard) : List Fields :=
  shard.examples.map (stagedRow revision shard.split)

/-- The shards of some splits, by tenant and split. -/
def shardsOf (tenants : List String) (splits : Split → List BuiltExample) : List Shard :=
  tenants.flatMap fun tenant => SPLITS.map fun split =>
    { tenantId := tenant, split, examples := (splits split).filter (·.tenantId = tenant) }

/-! ## Manifest -/

/-- `DatasetQualitySummary` of what was considered, taken and left out. -/
structure DatasetQualitySummary where
  considered : ℕ
  acceptedRate : ℚ
  duplicateRate : ℚ
  exclusions : String → ℕ
  labelMix : String → ℕ
  languages : String → ℕ

/-- A manifest without its digests and signature. -/
structure DatasetManifest where
  datasetId : String
  version : String
  purpose : DatasetPurpose
  tenantIds : List String
  createdAt : ℤ
  sourceWindow : SourceWindow
  eligibilityPolicyVersion : String
  transformationCodeRevision : String
  examples : Split → ℕ
  deletionsAppliedThrough : ℤ
  qualitySummary : DatasetQualitySummary

/-- What a staging directory holds. -/
structure Directory where
  shards : List Shard
  manifest : DatasetManifest

/-! ## Staging -/

section Stage

variable (sv : BuildServices) (spec : BuildSpecification)

/-- The accepted examples, their splits and the exclusions. -/
structure Staging where
  accepted : List BuiltExample
  splits : Split → List BuiltExample
  counts : String → ℕ

/-- What `curate` accepts; the examples of a router or a distillation are accepted as they are. -/
def acceptedExamples (built : Built) : Except BuildError (List BuiltExample × (String → ℕ)) :=
  match spec.purpose with
  | .routerTraining | .distillation => .ok (built.examples, built.exclusions)
  | .adapterTraining | .evaluation =>
    expect (curate sv.unicode sv.golden spec.nearDuplicateThreshold built.examples built.exclusions)

/-- The splits: those of the source for a distillation, new ones else. -/
def stageSplits (distilled : Bool) (accepted : List BuiltExample) :
    Except BuildError (Split → List BuiltExample) :=
  if distilled then
    .ok fun split => accepted.filter fun e => textField e.row "split" = some split.name
  else expect (splitExamples sv.shuffle accepted spec.toDatasetSpecification)

/-- The first half of `_stage`. -/
def staging (built : Built) : Except BuildError Staging := do
  let (accepted, counts) ← acceptedExamples sv spec built
  let splits ← stageSplits sv spec built.softTargets.isSome accepted
  if (splits .train).length < spec.minimumExamples then .error .insufficientTrainingExamples
  else .ok { accepted, splits, counts }

/-- `considered`, to which a distillation adds what no teacher made. -/
def consideredOf (considered : ℕ) (distilled : Bool) (splits : Split → List BuiltExample) : ℕ :=
  if distilled then
    considered +
      ((splits .train).filter fun e => textField e.row "distillation_kind" ≠ some "teacher").length
  else considered

/-- The manifest of what was staged. -/
def manifestOf (version : String) (asOf createdAt : ℤ) (considered : ℕ) (st : Staging) :
    DatasetManifest where
  datasetId := spec.datasetId
  version
  purpose := spec.purpose
  tenantIds := spec.sortedTenants
  createdAt
  sourceWindow := spec.sourceWindow
  eligibilityPolicyVersion := spec.eligibilityPolicyVersion
  transformationCodeRevision := sv.revision
  examples split := (st.splits split).length
  deletionsAppliedThrough := asOf
  qualitySummary :=
    { considered
      acceptedRate := Python.float ((st.accepted.length : ℚ) / max 1 considered)
      duplicateRate := Python.float
        (((st.counts "exact_duplicate" + st.counts "near_duplicate" : ℕ) : ℚ) / max 1 considered)
      exclusions := st.counts
      labelMix source := st.accepted.countP (·.targetSource = source)
      languages language := st.accepted.countP (·.language = language) }

/-- `_stage`. -/
def stage (version : String) (asOf createdAt : ℤ) (considered : ℕ) (built : Built) :
    Except BuildError Directory := do
  let st ← staging sv spec built
  .ok
    { shards := shardsOf spec.sortedTenants st.splits
      manifest := manifestOf sv spec version asOf createdAt
        (consideredOf considered built.softTargets.isSome st.splits) st }

end Stage

/-! ## Deletions -/

/-- The candidate's interaction or subject has a tombstone. -/
def Example.deletedIn (s : Store) (c : Example) : Bool :=
  (s.getTombstone c.interaction.tenantId c.interaction.interactionId).isSome ||
    c.interaction.subjectIdPseudonymous.any fun subject =>
      (s.getSubjectTombstone c.interaction.tenantId subject).isSome

/-- `_deleted`: the keys of the candidates that are gone, each once. -/
def deleted (s : Store) (candidates : List Example) : List (String × String) :=
  ((candidates.filter (·.deletedIn s)).map (·.key)).dedup

/-! ## What is staged

The publish loop stages again when a transaction finds deletions. These lemmas say that a round only
ever stages what the candidates were built to, and that a round that finds a deletion has fewer
candidates behind it, which is the measure of the loop. -/

section Staged

variable {sv : BuildServices} {spec : BuildSpecification} {built : Built}

/-- What is accepted was built. -/
theorem acceptedExamples_subset {accepted : List BuiltExample} {counts : String → ℕ}
    (h : acceptedExamples sv spec built = .ok (accepted, counts)) : accepted ⊆ built.examples := by
  unfold acceptedExamples at h
  split at h
  · cases h
    exact List.Subset.refl _
  · cases h
    exact List.Subset.refl _
  all_goals
    obtain ⟨accepted', counter, hcurate, hcurated⟩ := curate_curated sv.unicode sv.golden
      spec.thresholdNonneg built.examples built.exclusions
    rw [hcurate] at h
    cases h
    exact fun e he => (sortExamples_perm _).subset (hcurated.sublist.subset he)

/-- What is in a split was accepted. -/
theorem stageSplits_subset {distilled : Bool} {accepted : List BuiltExample}
    {splits : Split → List BuiltExample} (h : stageSplits sv spec distilled accepted = .ok splits)
    (split : Split) : splits split ⊆ accepted := by
  unfold stageSplits at h
  split at h
  · cases h
    exact fun e he => List.mem_of_mem_filter he
  · obtain ⟨result, hresult, hperm⟩ :=
      splitExamples_perm sv.shuffle accepted spec.toDatasetSpecification
    rw [hresult] at h
    cases h
    refine fun e he => hperm.subset ?_
    cases split
    · exact List.mem_append_left _ (List.mem_append_left _ he)
    · exact List.mem_append_left _ (List.mem_append_right _ he)
    · exact List.mem_append_right _ he

theorem staging_subset {st : Staging} (h : staging sv spec built = .ok st) (split : Split) :
    st.splits split ⊆ built.examples := by
  obtain ⟨⟨accepted, counts⟩, haccepted, h⟩ := Except.bind_eq_ok.1 h
  obtain ⟨splits, hsplits, h⟩ := Except.bind_eq_ok.1 h
  split at h
  · cases h
  · cases h
    exact fun e he => acceptedExamples_subset haccepted (stageSplits_subset hsplits split he)

/-- The shards of one split, a tenant each. -/
theorem filter_shardsOf (tenants : List String) (splits : Split → List BuiltExample)
    (split : Split) : (shardsOf tenants splits).filter (·.split = split) =
      tenants.map fun tenant =>
        { tenantId := tenant, split, examples := (splits split).filter (·.tenantId = tenant) } := by
  unfold shardsOf
  induction tenants with
  | nil => rfl
  | cons tenant rest ih =>
    rw [List.flatMap_cons, List.filter_append, ih, List.map_cons]
    cases split <;> simp [SPLITS]

/-- **Counts.** A split count of the manifest is the number of rows in the shards of the split. -/
theorem stage_counts {version : String} {asOf createdAt : ℤ} {considered : ℕ} {d : Directory}
    (htenants : ∀ e ∈ built.examples, e.tenantId ∈ spec.tenantIds)
    (h : stage sv spec version asOf createdAt considered built = .ok d) (split : Split) :
    d.manifest.examples split =
      ((d.shards.filter (·.split = split)).map fun shard => (shard.rows sv.revision).length).sum := by
  obtain ⟨st, hst, h⟩ := Except.bind_eq_ok.1 h
  cases h
  have hcover : ∀ e ∈ st.splits split, e.tenantId ∈ spec.sortedTenants := fun e he =>
    spec.sortedTenants_perm.mem_iff.2 (htenants e (staging_subset hst split he))
  show (st.splits split).length = _
  rw [filter_shardsOf, List.map_map, ← Grouping.sum_length_filter spec.sortedTenants_nodup hcover]
  simp [Shard.rows, Function.comp_def]

/-- The examples of a shard were built, and are of its tenant. -/
theorem stage_examples {version : String} {asOf createdAt : ℤ} {considered : ℕ} {d : Directory}
    (h : stage sv spec version asOf createdAt considered built = .ok d) {shard : Shard}
    (hshard : shard ∈ d.shards) {e : BuiltExample} (he : e ∈ shard.examples) :
    e ∈ built.examples ∧ e.tenantId = shard.tenantId := by
  obtain ⟨st, hst, h⟩ := Except.bind_eq_ok.1 h
  cases h
  obtain ⟨tenant, -, hshard⟩ := List.mem_flatMap.1 hshard
  obtain ⟨split, -, rfl⟩ := List.mem_map.1 hshard
  obtain ⟨he, htenant⟩ := List.mem_filter.1 he
  exact ⟨staging_subset hst split he, of_decide_eq_true htenant⟩

/-- What is written of an example names its interaction still. -/
theorem stagedRow_text {name : String} (hname : name ∉ ["split", "transformation_code_revision"])
    (revision : String) (split : Split) (e : BuiltExample) :
    textField (stagedRow revision split e) name = textField e.row name :=
  congrArg (·.bind Json.str?) (Json.lookup_setFields_of_not_mem hname e.row)

end Staged

section Deleted

variable {s : Store} {candidates : List Example}

theorem mem_deleted {key : String × String} :
    key ∈ deleted s candidates ↔ ∃ c ∈ candidates, c.deletedIn s = true ∧ c.key = key := by
  simp [deleted, and_assoc]

/-- A round that finds deletions has fewer candidates after it. -/
theorem length_without_lt (h : deleted s candidates ≠ []) :
    (candidates.filter fun c => c.key ∉ deleted s candidates).length < candidates.length := by
  obtain ⟨key, hkey⟩ := List.exists_mem_of_ne_nil _ h
  obtain ⟨c, hc, -, rfl⟩ := mem_deleted.1 hkey
  exact List.length_filter_lt_length_iff_exists.2 ⟨c, hc, by simpa using hkey⟩

theorem not_deletedIn (h : deleted s candidates = []) {c : Example} (hc : c ∈ candidates) :
    c.deletedIn s = false := by
  refine Bool.eq_false_iff.2 fun hdeleted => ?_
  have hmem := mem_deleted.2 ⟨c, hc, hdeleted, rfl⟩
  rw [h] at hmem
  cases hmem

end Deleted

end Datasets

end AdaptiveLlm
