import AdaptiveLlm.Lib.Json
import AdaptiveLlm.Storage.Outbox

set_option autoImplicit false

/-! # Stored records of an interaction

The contracts that the persistence writes, as it sees them: the fields it reads or sets have a name,
the `others` of a record go into its JSON as they are. Instants are microseconds.

A stored row holds its record as JSON, and the store reads a record back from there: `toJson` and
`ofJson` are the two directions as far as the named fields go. Deletions clear the references of a
record in this JSON, which is why the fields that refer to payloads are named while everything that
the store only carries along is in `others`. The tombstones, the deletion requests and the privacy
events that go with a deletion are here too. -/

namespace AdaptiveLlm

namespace Stored

/-- The fields of a JSON object in their order. -/
abbrev Fields := List (String × Json)

/-! ## Interactions -/

/-- `PolicyDecision`. `others` are the fields that no modelled function reads. -/
structure PolicyDecision where
  processingAllowed : Bool := true
  contentLoggingAllowed : Bool := false
  retentionSeconds : ℕ
  persistenceRedactionVersion : String := "persistence-regex-local-1"
  persistenceRedactionCounts : List (String × ℕ) := []
  others : Fields := []

/-- `model_dump_json` of a policy. -/
def PolicyDecision.toJson (p : PolicyDecision) : Json :=
  .obj ([("processing_allowed", .bool p.processingAllowed),
    ("content_logging_allowed", .bool p.contentLoggingAllowed),
    ("retention_seconds", .ofNat p.retentionSeconds),
    ("persistence_redaction_version", .str p.persistenceRedactionVersion),
    ("persistence_redaction_counts",
      .obj (p.persistenceRedactionCounts.map fun c => (c.1, .ofNat c.2)))] ++ p.others)

/-- `InputSummary`: where the sealed inputs of an interaction are. -/
structure InputSummary where
  messagesRef : Option String := none
  responseFormatRef : Option String := none
  others : Fields := []

/-- `model_dump_json` of the summary. -/
def InputSummary.toJson (i : InputSummary) : Json :=
  .obj ([("messages_ref", .ofOption .str i.messagesRef),
    ("response_format_ref", .ofOption .str i.responseFormatRef)] ++ i.others)

/-- `Interaction`, the record that all other records of a request belong to. -/
structure Interaction where
  interactionId : String
  traceId : String
  requestId : String
  tenantId : String
  subjectIdPseudonymous : Option String
  applicationId : String
  startedAt : ℤ
  completedAt : ℤ
  policy : PolicyDecision
  input : InputSummary
  feedbackIds : List String := []
  shadowCostMicros : ℕ := 0
  errorCode : Option String := none
  others : Fields := []

/-- `model_dump_json` of an interaction. -/
def Interaction.toJson (i : Interaction) : Json :=
  .obj ([("interaction_id", .str i.interactionId), ("trace_id", .str i.traceId),
    ("request_id", .str i.requestId), ("tenant_id", .str i.tenantId),
    ("subject_id_pseudonymous", .ofOption .str i.subjectIdPseudonymous),
    ("application_id", .str i.applicationId), ("started_at", .ofInt i.startedAt),
    ("completed_at", .ofInt i.completedAt), ("policy", i.policy.toJson), ("input", i.input.toJson),
    ("feedback_ids", .arr (i.feedbackIds.map .str)),
    ("shadow_cost_micros", .ofNat i.shadowCostMicros),
    ("error_code", .ofOption .str i.errorCode)] ++ i.others)

/-! ### Reading an interaction back

The tables hold a record as JSON. What a reader wants of an interaction is a few of its fields; the
others are carried along unread, so that a record that is read and written again is the one there
was. -/

/-- The fields of an object that have none of the names. -/
def othersOf (names : List String) : Json → Fields
  | .obj fields => fields.filter fun f => f.1 ∉ names
  | _ => []

/-- `model_validate_json` of a policy. -/
def PolicyDecision.ofJson (j : Json) : Option PolicyDecision := do
  let processingAllowed ← (j.field "processing_allowed").bind Json.bool?
  let contentLoggingAllowed ← (j.field "content_logging_allowed").bind Json.bool?
  let retentionSeconds ← (j.field "retention_seconds").bind Json.nat?
  let persistenceRedactionVersion ← (j.field "persistence_redaction_version").bind Json.str?
  let persistenceRedactionCounts ← match j.field "persistence_redaction_counts" with
    | some (.obj counts) => counts.mapM fun c => (Json.nat? c.2).map fun n => (c.1, n)
    | _ => none
  some
    { processingAllowed
      contentLoggingAllowed
      retentionSeconds
      persistenceRedactionVersion
      persistenceRedactionCounts
      others := othersOf ["processing_allowed", "content_logging_allowed", "retention_seconds",
        "persistence_redaction_version", "persistence_redaction_counts"] j }

/-- `model_validate_json` of the summary. -/
def InputSummary.ofJson (j : Json) : Option InputSummary := do
  let messagesRef ← (j.field "messages_ref").bind (Json.nullable Json.str?)
  let responseFormatRef ← (j.field "response_format_ref").bind (Json.nullable Json.str?)
  some
    { messagesRef
      responseFormatRef
      others := othersOf ["messages_ref", "response_format_ref"] j }

/-- `interaction_id` of an interaction's JSON. -/
def interactionIdOf (j : Json) : Option String := (j.field "interaction_id").bind Json.str?

/-- `subject_id_pseudonymous` of an interaction's JSON. -/
def subjectOf (j : Json) : Option (Option String) :=
  (j.field "subject_id_pseudonymous").bind (Json.nullable Json.str?)

/-- `tenant_id` of an interaction's JSON. -/
def tenantIdOf (j : Json) : Option String := (j.field "tenant_id").bind Json.str?

/-- `Interaction.model_validate_json`; `none` is its validation error. -/
def Interaction.ofJson (j : Json) : Option Interaction := do
  let interactionId ← interactionIdOf j
  let subjectIdPseudonymous ← subjectOf j
  let traceId ← (j.field "trace_id").bind Json.str?
  let requestId ← (j.field "request_id").bind Json.str?
  let tenantId ← tenantIdOf j
  let applicationId ← (j.field "application_id").bind Json.str?
  let startedAt ← (j.field "started_at").bind Json.int?
  let completedAt ← (j.field "completed_at").bind Json.int?
  let policy ← (j.field "policy").bind PolicyDecision.ofJson
  let input ← (j.field "input").bind InputSummary.ofJson
  let feedbackIds ← (j.field "feedback_ids").bind (Json.list? Json.str?)
  let shadowCostMicros ← (j.field "shadow_cost_micros").bind Json.nat?
  let errorCode ← (j.field "error_code").bind (Json.nullable Json.str?)
  some
    { interactionId
      subjectIdPseudonymous
      traceId
      requestId
      tenantId
      applicationId
      startedAt
      completedAt
      policy
      input
      feedbackIds
      shadowCostMicros
      errorCode
      others := othersOf ["interaction_id", "subject_id_pseudonymous", "trace_id", "request_id",
        "tenant_id", "application_id", "started_at", "completed_at", "policy", "input",
        "feedback_ids", "shadow_cost_micros", "error_code"] j }

theorem interactionIdOf_toJson (i : Interaction) : interactionIdOf i.toJson = some i.interactionId :=
  rfl

theorem subjectOf_toJson (i : Interaction) : subjectOf i.toJson = some i.subjectIdPseudonymous := by
  show Json.nullable Json.str? (.ofOption .str i.subjectIdPseudonymous) = _
  simp

theorem tenantIdOf_toJson (i : Interaction) : tenantIdOf i.toJson = some i.tenantId := rfl

theorem Interaction.ofJson_eq_some {j : Json} {i : Interaction} (h : ofJson j = some i) :
    interactionIdOf j = some i.interactionId ∧ subjectOf j = some i.subjectIdPseudonymous ∧
      tenantIdOf j = some i.tenantId := by
  obtain ⟨id, hid, h⟩ := Option.bind_eq_some_iff.1 h
  obtain ⟨subject, hsubject, h⟩ := Option.bind_eq_some_iff.1 h
  obtain ⟨_, -, h⟩ := Option.bind_eq_some_iff.1 h
  obtain ⟨_, -, h⟩ := Option.bind_eq_some_iff.1 h
  obtain ⟨tenant, htenant, h⟩ := Option.bind_eq_some_iff.1 h
  obtain ⟨_, -, h⟩ := Option.bind_eq_some_iff.1 h
  obtain ⟨_, -, h⟩ := Option.bind_eq_some_iff.1 h
  obtain ⟨_, -, h⟩ := Option.bind_eq_some_iff.1 h
  obtain ⟨_, -, h⟩ := Option.bind_eq_some_iff.1 h
  obtain ⟨_, -, h⟩ := Option.bind_eq_some_iff.1 h
  obtain ⟨_, -, h⟩ := Option.bind_eq_some_iff.1 h
  obtain ⟨_, -, h⟩ := Option.bind_eq_some_iff.1 h
  obtain ⟨_, -, h⟩ := Option.bind_eq_some_iff.1 h
  cases h
  exact ⟨hid, hsubject, htenant⟩

/-! ## The other records

Beside an interaction its start, its retrieval, its choice of a route and its attempts are stored,
and feedback is added later. What was asked and answered is not in these records: they have the
reference of a sealed payload. -/

/-- The record that an interaction has begun. -/
structure Started where
  interactionId : String
  others : Fields := []

/-- The record of a retrieval and where its sealed query is. -/
structure RetrievalRun where
  retrievalRunId : String
  interactionId : String
  queryRef : Option String := none
  others : Fields := []

/-- The record of a choice of a route. -/
structure RouteDecision where
  routeDecisionId : String
  interactionId : String
  others : Fields := []

/-- The record of an attempt and where its sealed output is. -/
structure GenerationAttempt where
  attemptId : String
  interactionId : String
  outputRef : Option String := none
  outputHash : Option String := none
  estimatedCostMicros : Option ℕ := none
  errorCode : Option String := none
  others : Fields := []

/-- A score out of the greatest one. -/
structure FeedbackValue where
  score : ℕ
  maxScore : ℕ

/-- A label of a user; one of the system has a `judge_version` too. -/
structure Feedback where
  interactionId : String
  feedbackId : String
  source : String
  labelType : String
  value : FeedbackValue
  commentRef : Option String := none
  correctionRef : Option String := none
  contentHash : Option String := none
  errorCode : Option String := none
  rubricVersion : Option String := none
  actorIdPseudonymous : Option String := none
  trainingAuthorised : Bool := false
  createdAt : ℤ

/-- The kinds of a stored record, each with a table of its own. -/
inductive RecordKind where
  | interactions
  | started
  | retrievalRuns
  | routeDecisions
  | attempts
  | feedback
  deriving DecidableEq, Repr

/-- `StoredRecord`. -/
inductive StoredRecord where
  | interaction (i : Interaction)
  | started (s : Started)
  | retrieval (r : RetrievalRun)
  | route (r : RouteDecision)
  | attempt (a : GenerationAttempt)
  | feedback (f : Feedback)

namespace StoredRecord

/-- The kind of a record, as its table names it. -/
def kind : StoredRecord → RecordKind
  | interaction _ => .interactions
  | started _ => .started
  | retrieval _ => .retrievalRuns
  | route _ => .routeDecisions
  | attempt _ => .attempts
  | feedback _ => .feedback

/-- The interaction that a record belongs to. -/
def interactionId : StoredRecord → String
  | interaction i => i.interactionId
  | started s => s.interactionId
  | retrieval r => r.interactionId
  | route r => r.interactionId
  | attempt a => a.interactionId
  | feedback f => f.interactionId

/-- The identifier under which a record is stored. -/
def recordId : StoredRecord → String
  | interaction i => i.interactionId
  | started s => s.interactionId
  | retrieval r => r.retrievalRunId
  | route r => r.routeDecisionId
  | attempt a => a.attemptId
  | feedback f => f.feedbackId

/-- `model_dump_json`. -/
def toJson : StoredRecord → Json
  | interaction i => i.toJson
  | started s => .obj (("interaction_id", .str s.interactionId) :: s.others)
  | retrieval r => .obj ([("retrieval_run_id", .str r.retrievalRunId),
      ("interaction_id", .str r.interactionId), ("query_ref", .ofOption .str r.queryRef)] ++ r.others)
  | route r => .obj ([("route_decision_id", .str r.routeDecisionId),
      ("interaction_id", .str r.interactionId)] ++ r.others)
  | attempt a => .obj ([("attempt_id", .str a.attemptId), ("interaction_id", .str a.interactionId),
      ("output_ref", .ofOption .str a.outputRef), ("output_hash", .ofOption .str a.outputHash),
      ("estimated_cost_micros", .ofOption .ofNat a.estimatedCostMicros),
      ("error_code", .ofOption .str a.errorCode)] ++ a.others)
  | feedback f => .obj [("schema_version", .str "1.0"), ("judge_version", .null),
      ("interaction_id", .str f.interactionId), ("feedback_id", .str f.feedbackId),
      ("source", .str f.source), ("label_type", .str f.labelType),
      ("value", .obj [("score", .ofNat f.value.score), ("max_score", .ofNat f.value.maxScore)]),
      ("comment_ref", .ofOption .str f.commentRef),
      ("correction_ref", .ofOption .str f.correctionRef),
      ("content_hash", .ofOption .str f.contentHash), ("error_code", .ofOption .str f.errorCode),
      ("rubric_version", .ofOption .str f.rubricVersion),
      ("actor_id_pseudonymous", .ofOption .str f.actorIdPseudonymous),
      ("training_authorised", .bool f.trainingAuthorised), ("created_at", .ofInt f.createdAt)]

end StoredRecord

/-! ## Deletions and events -/

/-- Whether a deletion is of one interaction or of all of a subject. -/
inductive DeletionScope where
  | subject
  | interaction
  deriving DecidableEq, Repr

/-- `DeletionRequest`, as its event carries it. -/
structure DeletionRequest where
  deletionRequestId : String
  scope : DeletionScope
  targetId : String
  requestedAt : ℤ
  actorIdPseudonymous : Option String
  deriving DecidableEq

/-- The data of an interaction's events. -/
inductive EventData where
  | record (r : StoredRecord)
  | deletion (d : DeletionRequest)

end Stored

end AdaptiveLlm
