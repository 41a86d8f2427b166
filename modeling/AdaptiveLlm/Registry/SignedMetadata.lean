import AdaptiveLlm.Contracts.Models
import AdaptiveLlm.Datasets.ShardReads
import AdaptiveLlm.Lib.JsonWriter
import AdaptiveLlm.Signing.Records

set_option autoImplicit false

/-! # Signed metadata

`signed_metadata` (`registry/artifacts.py`) is the text that the signature or MAC of a model manifest
covers: its dump with sorted keys, without the fields that change and those of the signature. Manifests
of the older version leave out some fields more where they have their defaults, which
`verify_model_metadata` checks of those it could not tell.

Here the contracts have all their fields. An instant is its ISO text, and a number field keeps whether
its value was an integer, as defaults may be.

The text is a dump of a record with named fields, some of them excluded, so the argument is that of
`Lib/JsonWriter.lean`: equal texts with sorted keys exclude the same fields and agree on the others.
What an old version leaves out can still be told, as the check of its capabilities demands the
default there. Nothing is assumed of JSON; the writer is the one of the development, and its reader
inverts it. -/

namespace AdaptiveLlm

namespace Artifacts

/-! ## Contracts

A model manifest with all fields that enter the signed text, and the records inside it. Fields that
pydantic fills with defaults are present here, since the dump has them. -/

/-- `Precision`. -/
inductive Precision where
  | fp32
  | fp16
  | bf16
  deriving DecidableEq

/-- `PruningStructure`. -/
inductive PruningStructure where
  | attentionHeads
  | mlpChannels
  | layers
  deriving DecidableEq

/-- `Modality`. -/
inductive Modality where
  | text
  deriving DecidableEq

/-- The versions of the MAC of a manifest. -/
inductive MacVersion where
  | one
  | two
  deriving DecidableEq

/-- `Literal["1"]`. -/
inductive CapabilityVersion where
  | one
  deriving DecidableEq

/-- A value of a `float` field. -/
abbrev Number : Type := ℤ ⊕ Double

/-- `AdapterConfig`. -/
structure AdapterConfig where
  targetModules : List String := ["q_proj", "v_proj"]
  rank : ℤ := 8
  alpha : Number := .inl 16
  dropout : Number := .inl 0
  learningRate : Number
  precision : Precision := .fp32
  gradientAccumulation : ℤ := 1
  deriving DecidableEq

/-- `DatasetLineage`, as the signed text has it. -/
structure DatasetLineage where
  datasetId : String
  version : String
  contentDigest : String
  weight : Number := .inl 1
  deriving DecidableEq

/-- The entry of a soft target, as the signed text has it. -/
structure SoftTargetFile where
  tenantId : String
  exampleHash : String
  plaintextHash : String
  keyVersion : String
  deriving DecidableEq

/-- `DistillationLineage`, as the signed text has it. -/
structure DistillationLineage where
  sourceDatasetId : String
  sourceDatasetVersion : String
  sourceContentDigest : String
  teacherDeploymentId : String
  teacherVersion : String
  teacherArtifactDigest : String
  teacherParameterCount : Option ℤ := none
  tokenizerId : Option String := none
  chatTemplateVersion : Option String := none
  generationParameters : JsonDict (ℤ ⊕ Bool)
  judgeVersion : String
  rubricVersion : String
  minimumScore : Number
  requestedMixFraction : Number
  mixCounts : JsonDict ℤ
  mixContentDigest : String
  softTargetFiles : List SoftTargetFile := []
  deriving DecidableEq

/-- `PruningPlan`, as the signed text has it. -/
structure PruningPlan where
  structures : List PruningStructure := [.attentionHeads]
  maximumFraction : Number
  rankingRule : String := "ablation_sensitivity"
  deriving DecidableEq

/-- `PruningLineage`, as the signed text has it. -/
structure PruningLineage where
  studyId : String
  plan : PruningPlan
  removedIndices : JsonDict (List ℤ)
  parameterCountBefore : ℤ
  parameterCountAfter : ℤ
  baseDigest : String
  adapterVersion : Option String := none
  adapterDigest : Option String := none
  calibrationDataset : DatasetLineage
  evaluationDataset : DatasetLineage
  baselineEvaluationId : String
  deriving DecidableEq

/-- `LifecycleTransition`, as a manifest has it. -/
structure LifecycleTransition where
  fromState : Option LifecycleState
  toState : LifecycleState
  actor : String
  atTime : String
  reason : String
  evaluationId : Option String := none
  deriving DecidableEq

/-- `ModelManifest` with all fields that are signed or read for it. -/
structure ModelManifest extends Signing.SignedRecord where
  registryId : String
  version : String
  createdAt : String
  state : LifecycleState := .candidate
  tenantIds : List String
  baseModelId : String
  baseModelRevision : String
  baseModelLicence : String
  adapterArchitecture : String := "deterministic-fake-adapter-v1"
  adapterConfig : AdapterConfig
  tokenizerId : String
  chatTemplateVersion : String
  datasets : List DatasetLineage
  trainingJobId : String
  codeRevision : String
  containerDigest : String
  configurationDigest : String
  seed : ℤ
  hardwareClass : String
  evaluationReports : JsonDict Bool := ⟨[], .nil⟩
  intendedTasks : List String := ["synthetic-smoke"]
  excludedTasks : List String := ["real-inference"]
  languages : List String := ["en"]
  contextLimit : ℤ := 4096
  capabilitySignatureVersion : Option CapabilityVersion := none
  processingRegion : String := "local"
  modalities : List Modality := [.text]
  toolsSupported : Bool := false
  inputMicrosPer1000Tokens : ℤ := 1000
  outputMicrosPer1000Tokens : ℤ := 2000
  safetyNotes : List String := ["Synthetic adapter; no learned weights."]
  knownLimitations : List String := ["Local MAC, not asymmetric signing."]
  artifactHashes : JsonDict String
  artifactDigest : String
  artifactMac : String
  storageLocation : String
  lifecycleHistory : List LifecycleTransition := []
  studentArchitecture : Option String := none
  studentParameterCount : Option ℤ := none
  distillation : Option DistillationLineage := none
  manifestMacVersion : MacVersion := .one
  pruning : Option PruningLineage := none
  deriving DecidableEq

/-! ## Their dumps

Each record has a list of its fields in the order of the class, each with the writer of its type.
The dump and the proof that it determines the record both come from this list. -/

open JsonWriter

/-- The precision as JSON writes it. -/
def Precision.name : Precision → String
  | .fp32 => "fp32"
  | .fp16 => "fp16"
  | .bf16 => "bf16"

/-- The structure as JSON writes it. -/
def PruningStructure.name : PruningStructure → String
  | .attentionHeads => "attention_heads"
  | .mlpChannels => "mlp_channels"
  | .layers => "layers"

/-- The modality as JSON writes it. -/
def Modality.name : Modality → String
  | .text => "text"

/-- The version as JSON writes it. -/
def MacVersion.name : MacVersion → String
  | .one => "1"
  | .two => "2"

/-- The version as JSON writes it. -/
def CapabilityVersion.name : CapabilityVersion → String
  | .one => "1"

/-- The state as JSON writes it. -/
def stateName : LifecycleState → String
  | .candidate => "candidate"
  | .evaluating => "evaluating"
  | .approved => "approved"
  | .shadow => "shadow"
  | .canary => "canary"
  | .production => "production"
  | .deprecated => "deprecated"
  | .revoked => "revoked"

/-- Precisions are written apart. -/
def Precision.writer : JsonWriter Precision :=
  str.comap Precision.name fun a b h => by cases a <;> cases b <;> simp_all [Precision.name]

/-- Structures are written apart. -/
def PruningStructure.writer : JsonWriter PruningStructure :=
  str.comap PruningStructure.name fun a b h => by cases a <;> cases b <;> simp_all [PruningStructure.name]

/-- There is one modality. -/
def Modality.writer : JsonWriter Modality := str.comap Modality.name fun _ _ _ => rfl

/-- The versions of the MAC are written apart. -/
def MacVersion.writer : JsonWriter MacVersion :=
  str.comap MacVersion.name fun a b h => by cases a <;> cases b <;> simp_all [MacVersion.name]

/-- There is one version of the capabilities. -/
def CapabilityVersion.writer : JsonWriter CapabilityVersion :=
  str.comap CapabilityVersion.name fun _ _ _ => rfl

/-- States are written apart. -/
def stateWriter : JsonWriter LifecycleState :=
  str.comap stateName fun a b h => by cases a <;> cases b <;> simp_all [stateName]

/-- An integer or a float, which JSON keeps apart. -/
def number : JsonWriter Number :=
  int.either float fun a b h => by simp [int, float, JsonText.sortKeys] at h

/-- An integer or a boolean. -/
def intOrBool : JsonWriter (ℤ ⊕ Bool) :=
  int.either JsonWriter.bool fun a b h => by simp [int, JsonWriter.bool, JsonText.sortKeys] at h

/-- A text or null. -/
def optionalText : JsonWriter (Option String) := str.nullable fun _ => nofun

/-- An integer or null. -/
def optionalInt : JsonWriter (Option ℤ) := int.nullable fun _ => nofun

/-- The field that every record has with the same value. -/
def schemaVersion {α : Type} : RecordField α := .const "schema_version" "1.0"

/-- The fields of the record in their order. -/
def AdapterConfig.fields : List (RecordField AdapterConfig) :=
  [schemaVersion, .of "target_modules" (·.targetModules) (list str), .of "rank" (·.rank) int,
    .of "alpha" (·.alpha) number, .of "dropout" (·.dropout) number,
    .of "learning_rate" (·.learningRate) number, .of "precision" (·.precision) Precision.writer,
    .of "gradient_accumulation" (·.gradientAccumulation) int]

/-- The fields of the record in their order. -/
def DatasetLineage.fields : List (RecordField DatasetLineage) :=
  [schemaVersion, .of "dataset_id" (·.datasetId) str, .of "version" (·.version) str,
    .of "content_digest" (·.contentDigest) str, .of "weight" (·.weight) number]

/-- The fields of the record in their order. -/
def SoftTargetFile.fields : List (RecordField SoftTargetFile) :=
  [schemaVersion, .of "tenant_id" (·.tenantId) str, .of "example_hash" (·.exampleHash) str,
    .of "plaintext_hash" (·.plaintextHash) str, .of "key_version" (·.keyVersion) str]

/-- The fields of the record in their order. -/
def PruningPlan.fields : List (RecordField PruningPlan) :=
  [schemaVersion, .of "structures" (·.structures) (list PruningStructure.writer),
    .of "maximum_fraction" (·.maximumFraction) number, .of "ranking_rule" (·.rankingRule) str]

/-- The fields of the record in their order. -/
def LifecycleTransition.fields : List (RecordField LifecycleTransition) :=
  [schemaVersion, .of "from_state" (·.fromState) (stateWriter.nullable fun _ => nofun),
    .of "to_state" (·.toState) stateWriter, .of "actor" (·.actor) str, .of "at" (·.atTime) str,
    .of "reason" (·.reason) str, .of "evaluation_id" (·.evaluationId) optionalText]

/-! Records that agree on all their fields are one. -/

/-- The record is told apart by its fields. -/
def AdapterConfig.writer : JsonWriter AdapterConfig :=
  record AdapterConfig.fields (by decide) fun a b h => by
    simp only [AdapterConfig.fields, List.forall_mem_cons, RecordField.of] at h
    cases a
    cases b
    simp_all

/-- The record is told apart by its fields. -/
def DatasetLineage.writer : JsonWriter DatasetLineage :=
  record DatasetLineage.fields (by decide) fun a b h => by
    simp only [DatasetLineage.fields, List.forall_mem_cons, RecordField.of] at h
    cases a
    cases b
    simp_all

/-- The record is told apart by its fields. -/
def SoftTargetFile.writer : JsonWriter SoftTargetFile :=
  record SoftTargetFile.fields (by decide) fun a b h => by
    simp only [SoftTargetFile.fields, List.forall_mem_cons, RecordField.of] at h
    cases a
    cases b
    simp_all

/-- The record is told apart by its fields. -/
def PruningPlan.writer : JsonWriter PruningPlan :=
  record PruningPlan.fields (by decide) fun a b h => by
    simp only [PruningPlan.fields, List.forall_mem_cons, RecordField.of] at h
    cases a
    cases b
    simp_all

/-- The record is told apart by its fields. -/
def LifecycleTransition.writer : JsonWriter LifecycleTransition :=
  record LifecycleTransition.fields (by decide) fun a b h => by
    simp only [LifecycleTransition.fields, List.forall_mem_cons, RecordField.of] at h
    cases a
    cases b
    simp_all

/-- The fields of the record in their order. -/
def DistillationLineage.fields : List (RecordField DistillationLineage) :=
  [schemaVersion, .of "source_dataset_id" (·.sourceDatasetId) str,
    .of "source_dataset_version" (·.sourceDatasetVersion) str,
    .of "source_content_digest" (·.sourceContentDigest) str,
    .of "teacher_deployment_id" (·.teacherDeploymentId) str,
    .of "teacher_version" (·.teacherVersion) str,
    .of "teacher_artifact_digest" (·.teacherArtifactDigest) str,
    .of "teacher_parameter_count" (·.teacherParameterCount) optionalInt,
    .of "tokenizer_id" (·.tokenizerId) optionalText,
    .of "chat_template_version" (·.chatTemplateVersion) optionalText,
    .of "generation_parameters" (·.generationParameters) (dict intOrBool),
    .of "judge_version" (·.judgeVersion) str, .of "rubric_version" (·.rubricVersion) str,
    .of "minimum_score" (·.minimumScore) number,
    .of "requested_mix_fraction" (·.requestedMixFraction) number,
    .of "mix_counts" (·.mixCounts) (dict int), .of "mix_content_digest" (·.mixContentDigest) str,
    .of "soft_target_files" (·.softTargetFiles) (list SoftTargetFile.writer)]

/-- The record is told apart by its fields. -/
def DistillationLineage.writer : JsonWriter DistillationLineage :=
  record DistillationLineage.fields (by decide) fun a b h => by
    simp only [DistillationLineage.fields, List.forall_mem_cons, RecordField.of] at h
    cases a
    cases b
    simp_all

/-- The fields of the record in their order. -/
def PruningLineage.fields : List (RecordField PruningLineage) :=
  [schemaVersion, .of "study_id" (·.studyId) str, .of "plan" (·.plan) PruningPlan.writer,
    .of "removed_indices" (·.removedIndices) (dict (list int)),
    .of "parameter_count_before" (·.parameterCountBefore) int,
    .of "parameter_count_after" (·.parameterCountAfter) int, .of "base_digest" (·.baseDigest) str,
    .of "adapter_version" (·.adapterVersion) optionalText,
    .of "adapter_digest" (·.adapterDigest) optionalText,
    .of "calibration_dataset" (·.calibrationDataset) DatasetLineage.writer,
    .of "evaluation_dataset" (·.evaluationDataset) DatasetLineage.writer,
    .of "baseline_evaluation_id" (·.baselineEvaluationId) str]

/-- The record is told apart by its fields. -/
def PruningLineage.writer : JsonWriter PruningLineage :=
  record PruningLineage.fields (by decide) fun a b h => by
    simp only [PruningLineage.fields, List.forall_mem_cons, RecordField.of] at h
    cases a
    cases b
    simp_all

/-- The fields of the manifest in their order. -/
def ModelManifest.fields : List (RecordField ModelManifest) :=
  [schemaVersion, .of "signature" (·.signature) optionalText,
    .of "signature_key_id" (·.signatureKeyId) optionalText,
    .of "signature_version" (·.signatureVersion) optionalText,
    .of "registry_id" (·.registryId) str, .of "version" (·.version) str,
    .of "created_at" (·.createdAt) str, .of "state" (·.state) stateWriter,
    .of "tenant_ids" (·.tenantIds) (list str), .of "base_model_id" (·.baseModelId) str,
    .of "base_model_revision" (·.baseModelRevision) str,
    .of "base_model_licence" (·.baseModelLicence) str,
    .of "adapter_architecture" (·.adapterArchitecture) str,
    .of "adapter_config" (·.adapterConfig) AdapterConfig.writer,
    .of "tokenizer_id" (·.tokenizerId) str, .of "chat_template_version" (·.chatTemplateVersion) str,
    .of "datasets" (·.datasets) (list DatasetLineage.writer),
    .of "training_job_id" (·.trainingJobId) str, .of "code_revision" (·.codeRevision) str,
    .of "container_digest" (·.containerDigest) str,
    .of "configuration_digest" (·.configurationDigest) str, .of "seed" (·.seed) int,
    .of "hardware_class" (·.hardwareClass) str,
    .of "evaluation_reports" (·.evaluationReports) (dict JsonWriter.bool),
    .of "intended_tasks" (·.intendedTasks) (list str),
    .of "excluded_tasks" (·.excludedTasks) (list str), .of "languages" (·.languages) (list str),
    .of "context_limit" (·.contextLimit) int,
    .of "capability_signature_version" (·.capabilitySignatureVersion)
      (CapabilityVersion.writer.nullable fun _ => nofun),
    .of "processing_region" (·.processingRegion) str,
    .of "modalities" (·.modalities) (list Modality.writer),
    .of "tools_supported" (·.toolsSupported) JsonWriter.bool,
    .of "input_micros_per_1000_tokens" (·.inputMicrosPer1000Tokens) int,
    .of "output_micros_per_1000_tokens" (·.outputMicrosPer1000Tokens) int,
    .of "safety_notes" (·.safetyNotes) (list str),
    .of "known_limitations" (·.knownLimitations) (list str),
    .of "artifact_hashes" (·.artifactHashes) (dict str), .of "artifact_digest" (·.artifactDigest) str,
    .of "artifact_mac" (·.artifactMac) str, .of "storage_location" (·.storageLocation) str,
    .of "lifecycle_history" (·.lifecycleHistory) (list LifecycleTransition.writer),
    .of "student_architecture" (·.studentArchitecture) optionalText,
    .of "student_parameter_count" (·.studentParameterCount) optionalInt,
    .of "distillation" (·.distillation)
      (DistillationLineage.writer.nullable (record_json_ne_null _ _)),
    .of "manifest_mac_version" (·.manifestMacVersion) MacVersion.writer,
    .of "pruning" (·.pruning) (PruningLineage.writer.nullable (record_json_ne_null _ _))]

theorem ModelManifest.fields_nodup : (ModelManifest.fields.map (·.name)).Nodup := by decide +kernel

/-! ## The signed text -/

/-- The fields that `exclude_if` leaves out. -/
def ModelManifest.omitted (m : ModelManifest) : List String :=
  (if m.signature.isNone then ["signature"] else []) ++
  (if m.signatureKeyId.isNone then ["signature_key_id"] else []) ++
  (if m.signatureVersion.isNone then ["signature_version"] else []) ++
  (if m.pruning.isNone then ["pruning"] else [])

/-- The fields that `signed_metadata` leaves out; `none` is its `artifact_integrity_failed`. -/
def ModelManifest.excluded (m : ModelManifest) : Option (List String) :=
  let excluded := Signing.FIELDS ++ ["artifact_mac", "state", "evaluation_reports", "lifecycle_history"]
  match m.manifestMacVersion with
  | .two => some excluded
  | .one =>
    if m.studentParameterCount.isSome || m.pruning.isSome then none
    else
      let excluded := excluded ++ ["manifest_mac_version", "student_parameter_count"]
      let excluded := if m.distillation.isNone && m.studentArchitecture.isNone then
        excluded ++ ["distillation", "student_architecture"] else excluded
      some (if m.capabilitySignatureVersion.isNone then
        excluded ++ ["capability_signature_version", "processing_region", "modalities",
          "tools_supported", "input_micros_per_1000_tokens", "output_micros_per_1000_tokens"]
      else excluded)

/-- `signed_metadata`. -/
def signedMetadata (r : Python.JsonReader) (m : ModelManifest) : Option (List Char) :=
  m.excluded.map fun excluded =>
    r.dumps (JsonText.sortKeys (RecordField.dump ModelManifest.fields (excluded ++ m.omitted) m))

/-- A manifest without the capability fields has their defaults. -/
def ModelManifest.capabilitiesChecked (m : ModelManifest) : Bool :=
  !(m.manifestMacVersion = .one && m.capabilitySignatureVersion.isNone &&
    (m.processingRegion ≠ "local" || m.modalities ≠ [.text] || m.toolsSupported ||
      m.inputMicrosPer1000Tokens ≠ 1000 || m.outputMicrosPer1000Tokens ≠ 2000))

/-- `verify_model_metadata` returns; `artifactMac` is the keyring's. -/
def verifyModelMetadata (r : Python.JsonReader) (keyring : Signing.Keyring)
    (artifactMac : List Char → String) (m : ModelManifest) : Bool :=
  m.capabilitiesChecked && match signedMetadata r m with
    | none => false
    | some text =>
      if Signing.signed m.toSignedRecord then
        Signing.verifyRecord r m.toSignedRecord keyring.verifier "model-manifest" text
      else keyring.acceptsLegacyMac && m.artifactMac = artifactMac text

/-! ## What is left out

The fields that a dump leaves out depend on the version of the MAC and, for the older one, on
whether they have their defaults. The text shows which they were, as an excluded field is not in
it. -/

namespace ModelManifest

variable {m m₁ m₂ : ModelManifest} {excluded excluded₁ excluded₂ : List String}

/-- The fields that are never signed. -/
def unsigned : List String :=
  Signing.FIELDS ++ ["artifact_mac", "state", "evaluation_reports", "lifecycle_history"]

/-- The fields of which some manifests leave out. -/
def conditional : List String :=
  ["manifest_mac_version", "student_parameter_count", "distillation", "student_architecture",
    "capability_signature_version", "processing_region", "modalities", "tools_supported",
    "input_micros_per_1000_tokens", "output_micros_per_1000_tokens", "pruning"]

/-- Which fields are left out beside those never signed. -/
def LeftOut (m : ModelManifest) (name : String) : Prop :=
  m.manifestMacVersion = .one ∧
      (name ∈ ["manifest_mac_version", "student_parameter_count"] ∨
        m.distillation = none ∧ m.studentArchitecture = none ∧
          name ∈ ["distillation", "student_architecture"] ∨
        m.capabilitySignatureVersion = none ∧
          name ∈ ["capability_signature_version", "processing_region", "modalities",
            "tools_supported", "input_micros_per_1000_tokens", "output_micros_per_1000_tokens"]) ∨
    m.pruning = none ∧ name = "pruning"

theorem mem_append_if {name : String} (b : Bool) (names more : List String) :
    (name ∈ if b then names ++ more else names) ↔ name ∈ names ∨ b = true ∧ name ∈ more := by
  cases b <;> simp

theorem mem_omitted {name : String} (hname : name ∉ unsigned) :
    name ∈ m.omitted ↔ m.pruning = none ∧ name = "pruning" := by
  have hsignature : ∀ (b : Bool) (field : String), field ∈ unsigned → name ∉ if b then [field] else [] := by
    intro b field hfield hmem
    cases b with
    | false => cases hmem
    | true => exact hname (List.mem_singleton.1 hmem ▸ hfield)
  simp only [omitted, List.mem_append, hsignature _ "signature" (by decide),
    hsignature _ "signature_key_id" (by decide), hsignature _ "signature_version" (by decide), false_or]
  cases m.pruning <;> simp

theorem mem_excluded (h : m.excluded = some excluded) {name : String} (hname : name ∉ unsigned) :
    name ∈ excluded ++ m.omitted ↔ m.LeftOut name := by
  rw [List.mem_append, mem_omitted hname]
  refine or_congr ?_ Iff.rfl
  unfold ModelManifest.excluded at h
  cases hversion : m.manifestMacVersion with
  | two =>
    rw [hversion] at h
    cases h
    exact iff_of_false hname fun hold => nomatch hold.1
  | one =>
    rw [hversion] at h
    dsimp only at h
    split at h
    · cases h
    · cases h
      have hfirst : ∀ more : List String, name ∈ unsigned ++ more ↔ name ∈ more := fun more => by
        rw [List.mem_append, or_iff_right hname]
      rw [mem_append_if, mem_append_if]
      change (name ∈ unsigned ++ _ ∨ _) ∨ _ ↔ _
      rw [hfirst]
      simp only [Bool.and_eq_true, Option.isNone_iff_eq_none, true_and]
      tauto

/-- The older version has neither of the fields that it cannot sign. -/
theorem of_excluded (h : m.excluded = some excluded) (hversion : m.manifestMacVersion = .one) :
    m.studentParameterCount = none ∧ m.pruning = none := by
  unfold ModelManifest.excluded at h
  rw [hversion] at h
  dsimp only at h
  split at h
  · cases h
  · rename_i hnone
    simpa using hnone

end ModelManifest

/-! ## Injectivity

Fields that are always in the text agree at once. For the others the text tells whether they were
left out, and then they have the defaults on both sides, by the check that both manifests have
passed. -/

section Injectivity

variable {r : Python.JsonReader} {m₁ m₂ : ModelManifest} {text : List Char}

/-- A text tells which fields were left out, and the others. -/
theorem agrees_of_signedMetadata (h₁ : signedMetadata r m₁ = some text)
    (h₂ : signedMetadata r m₂ = some text) {f : RecordField ModelManifest}
    (hf : f ∈ ModelManifest.fields) (hname : f.name ∉ ModelManifest.unsigned) :
    (m₁.LeftOut f.name ↔ m₂.LeftOut f.name) ∧ (¬m₁.LeftOut f.name → f.Agrees m₁ m₂) := by
  obtain ⟨excluded₁, hexcluded₁, rfl⟩ := Option.map_eq_some_iff.1 h₁
  obtain ⟨excluded₂, hexcluded₂, hdumps⟩ := Option.map_eq_some_iff.1 h₂
  have hproper : ∀ (excluded : List String) (m : ModelManifest), JsonText.Proper
      (JsonText.sortKeys (RecordField.dump ModelManifest.fields excluded m)) := fun excluded m =>
    JsonText.proper_sortKeys _ (RecordField.proper_dump ModelManifest.fields_nodup excluded m)
  have hsame := congrArg r.loads hdumps
  rw [r.loads_dumps (hproper _ m₂), r.loads_dumps (hproper _ m₁), Option.some.injEq] at hsame
  have hagrees := RecordField.agrees_of_sortKeys_dump ModelManifest.fields_nodup hsame.symm hf
  rwa [ModelManifest.mem_excluded hexcluded₁ hname, ModelManifest.mem_excluded hexcluded₂ hname] at hagrees

theorem ModelManifest.mem_conditional {m : ModelManifest} {name : String} (h : m.LeftOut name) :
    name ∈ conditional := by
  unfold LeftOut at h
  unfold conditional
  simp only [List.mem_cons, List.not_mem_nil, or_false] at h ⊢
  tauto

/-- The fields that every manifest signs. -/
theorem always_agrees (h₁ : signedMetadata r m₁ = some text) (h₂ : signedMetadata r m₂ = some text) :
    ∀ f ∈ ModelManifest.fields, f.name ∉ ModelManifest.unsigned ++ ModelManifest.conditional →
      f.Agrees m₁ m₂ := by
  intro f hf hname
  rw [List.mem_append, not_or] at hname
  exact (agrees_of_signedMetadata h₁ h₂ hf hname.1).2 fun hleft =>
    hname.2 (ModelManifest.mem_conditional hleft)

/-- The fields that some manifests leave out. -/
theorem sometimes_agrees (h₁ : signedMetadata r m₁ = some text)
    (h₂ : signedMetadata r m₂ = some text) :
    ∀ f ∈ ModelManifest.fields, f.name ∈ ModelManifest.conditional →
      (m₁.LeftOut f.name ↔ m₂.LeftOut f.name) ∧ (¬m₁.LeftOut f.name → f.Agrees m₁ m₂) := by
  intro f hf hname
  have hdisjoint : ∀ name ∈ ModelManifest.conditional, name ∉ ModelManifest.unsigned := by decide
  exact agrees_of_signedMetadata h₁ h₂ hf (hdisjoint _ hname)

/-- What the older version cannot sign, it does not have. -/
theorem of_signedMetadata {m : ModelManifest} (h : signedMetadata r m = some text)
    (hversion : m.manifestMacVersion = .one) : m.studentParameterCount = none ∧ m.pruning = none := by
  obtain ⟨_, hexcluded, -⟩ := Option.map_eq_some_iff.1 h
  exact ModelManifest.of_excluded hexcluded hversion

/-- What it leaves out of the capabilities has its defaults. -/
theorem defaults_of_capabilitiesChecked {m : ModelManifest} (h : m.capabilitiesChecked)
    (hversion : m.manifestMacVersion = .one) (hnone : m.capabilitySignatureVersion = none) :
    m.processingRegion = "local" ∧ m.modalities = [.text] ∧ m.toolsSupported = false ∧
      m.inputMicrosPer1000Tokens = 1000 ∧ m.outputMicrosPer1000Tokens = 2000 := by
  simpa [ModelManifest.capabilitiesChecked, hversion, hnone, and_assoc] using h

/-- **Signed metadata is injective**: manifests with one signed text that pass the checks of their
    capabilities agree on the version of the MAC and on every field but those of the signature, the MAC,
    the state, the reports and the history. -/
theorem signedMetadata_injective (h₁ : signedMetadata r m₁ = some text)
    (h₂ : signedMetadata r m₂ = some text) (hchecked₁ : m₁.capabilitiesChecked)
    (hchecked₂ : m₂.capabilitiesChecked) :
    m₁ =
      { m₂ with
        toSignedRecord := m₁.toSignedRecord
        artifactMac := m₁.artifactMac
        state := m₁.state
        evaluationReports := m₁.evaluationReports
        lifecycleHistory := m₁.lifecycleHistory } := by
  have halways := always_agrees h₁ h₂
  have hsometimes := sometimes_agrees h₁ h₂
  -- one fact for each field
  simp [ModelManifest.fields, ModelManifest.unsigned, ModelManifest.conditional, Signing.FIELDS,
    RecordField.of, schemaVersion, RecordField.const] at halways
  simp [ModelManifest.fields, ModelManifest.conditional, ModelManifest.LeftOut, RecordField.of,
    schemaVersion, RecordField.const] at hsometimes
  obtain ⟨⟨hleft, hcapability⟩, ⟨-, hregion⟩, ⟨-, hmodalities⟩, ⟨-, htools⟩, ⟨-, hinput⟩, ⟨-, houtput⟩,
    ⟨hdistilled, harchitecture⟩, ⟨-, hcount⟩, ⟨-, hdistillation⟩, ⟨hone, hversion⟩,
    hpruned, hpruning⟩ := hsometimes
  have hversion' : m₁.manifestMacVersion = m₂.manifestMacVersion := by
    by_cases hold : m₁.manifestMacVersion = .one
    · rw [hold, hone.1 hold]
    · exact hversion hold
  have hcount' : m₁.studentParameterCount = m₂.studentParameterCount := by
    by_cases hold : m₁.manifestMacVersion = .one
    · rw [(of_signedMetadata h₁ hold).1, (of_signedMetadata h₂ (hone.1 hold)).1]
    · exact hcount hold
  have hpruning' : m₁.pruning = m₂.pruning := by
    by_cases hnone : m₁.pruning = none
    · rw [hnone, hpruned.1 hnone]
    · exact hpruning hnone
  have hstudent : m₁.distillation = m₂.distillation ∧ m₁.studentArchitecture = m₂.studentArchitecture := by
    by_cases hnone : m₁.manifestMacVersion = .one ∧ m₁.distillation = none ∧ m₁.studentArchitecture = none
    · have hnone' := hdistilled.1 hnone
      exact ⟨hnone.2.1.trans hnone'.2.1.symm, hnone.2.2.trans hnone'.2.2.symm⟩
    · simp only [not_and] at hnone
      exact ⟨hdistillation hnone, harchitecture hnone⟩
  have hcapabilities : m₁.capabilitySignatureVersion = m₂.capabilitySignatureVersion ∧
      m₁.processingRegion = m₂.processingRegion ∧ m₁.modalities = m₂.modalities ∧
      m₁.toolsSupported = m₂.toolsSupported ∧
      m₁.inputMicrosPer1000Tokens = m₂.inputMicrosPer1000Tokens ∧
      m₁.outputMicrosPer1000Tokens = m₂.outputMicrosPer1000Tokens := by
    by_cases hnone : m₁.manifestMacVersion = .one ∧ m₁.capabilitySignatureVersion = none
    · have hnone' := hleft.1 hnone
      obtain ⟨hregion₁, hmodalities₁, htools₁, hinput₁, houtput₁⟩ :=
        defaults_of_capabilitiesChecked hchecked₁ hnone.1 hnone.2
      obtain ⟨hregion₂, hmodalities₂, htools₂, hinput₂, houtput₂⟩ :=
        defaults_of_capabilitiesChecked hchecked₂ hnone'.1 hnone'.2
      exact ⟨hnone.2.trans hnone'.2.symm, hregion₁.trans hregion₂.symm,
        hmodalities₁.trans hmodalities₂.symm, htools₁.trans htools₂.symm, hinput₁.trans hinput₂.symm,
        houtput₁.trans houtput₂.symm⟩
    · simp only [not_and] at hnone
      exact ⟨hcapability hnone, hregion hnone, hmodalities hnone, htools hnone, hinput hnone, houtput hnone⟩
  cases m₁
  cases m₂
  simp_all

end Injectivity

namespace Samples

/-- A reader of the sample texts. -/
def reader : Python.JsonReader where
  floats := Datasets.Distilled.floats
  otherText _ := none
  otherBytes _ := none

/-- A manifest of the older version, with the defaults. -/
def candidate : ModelManifest where
  registryId := "specialist"
  version := "v1"
  createdAt := "2025-01-01T00:00:00Z"
  tenantIds := ["acme"]
  baseModelId := "fake-foundation"
  baseModelRevision := "fake-1"
  baseModelLicence := "synthetic"
  adapterConfig := { learningRate := .inr ⟨0x3f2a36e2eb1c432d, by decide⟩ }
  tokenizerId := "fake-whitespace-v1"
  chatTemplateVersion := "fake-chat-1"
  datasets := [{ datasetId := "d", version := "1", contentDigest := "" }]
  trainingJobId := "job"
  codeRevision := "server"
  containerDigest := "local"
  configurationDigest := ""
  seed := 23
  hardwareClass := "cpu"
  artifactHashes := ⟨[("adapter.json", "a"), ("card.md", "b")], by decide⟩
  artifactDigest := ""
  artifactMac := "mac"
  storageLocation := "specialist/v1"

/-- After its evaluation. -/
def evaluated : ModelManifest :=
  { candidate with
    state := .evaluating
    evaluationReports := ⟨[("e1", true)], by decide⟩
    lifecycleHistory :=
      [{ fromState := some .candidate, toState := .evaluating, actor := "operator",
         atTime := "2025-01-02T00:00:00Z", reason := "evaluate" }] }

end Samples

theorem evaluated_covered : Samples.evaluated =
    { Samples.candidate with
      toSignedRecord := Samples.evaluated.toSignedRecord
      artifactMac := Samples.evaluated.artifactMac
      state := Samples.evaluated.state
      evaluationReports := Samples.evaluated.evaluationReports
      lifecycleHistory := Samples.evaluated.lifecycleHistory } :=
  signedMetadata_injective (r := Samples.reader) rfl rfl (by decide) (by decide)

end Artifacts

end AdaptiveLlm
