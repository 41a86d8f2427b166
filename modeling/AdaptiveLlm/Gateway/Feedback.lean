import AdaptiveLlm.Storage.Persistence

set_option autoImplicit false

/-! # Feedback

`gateway/feedback.py`: a user's label or correction for a stored interaction.

The body of the request is one of two kinds, a label with a value and perhaps a comment, or a
correction. Its text is stored in a payload of its own, so the record of a feedback is made without
it. What the service does with both in the store, and for which callers, is in
`Storage/Persistence.lean`. -/

namespace AdaptiveLlm

namespace Stored

/-- What the service reads of the caller's identity. -/
structure Caller where
  tenantId : String
  applicationIds : List String
  subjectIdPseudonymous : Option String

/-- A `FeedbackInput` or a `CorrectionInput`. -/
inductive FeedbackBody where
  | label (labelType : String) (value : FeedbackValue) (comment rubricVersion : Option String)
      (trainingAuthorised : Bool)
  | correction (text : String) (trainingAuthorised : Bool)

namespace FeedbackBody

/-- The body is a correction. -/
def isCorrection : FeedbackBody → Bool
  | .label .. => false
  | .correction .. => true

/-- The text of a body. -/
def content : FeedbackBody → Option String
  | .label _ _ comment _ _ => comment
  | .correction text _ => some text

/-- The feedback of a body, without its text. -/
def feedback (body : FeedbackBody) (interactionId feedbackId : String) (actor : Option String)
    (createdAt : ℤ) : Feedback :=
  match body with
  | .label labelType value _ rubricVersion trainingAuthorised =>
    { interactionId, feedbackId, source := "user", labelType, value, rubricVersion,
      actorIdPseudonymous := actor, trainingAuthorised, createdAt }
  | .correction _ trainingAuthorised =>
    { interactionId, feedbackId, source := "user", labelType := "correction",
      value := ⟨1, 1⟩, actorIdPseudonymous := actor, trainingAuthorised, createdAt }

end FeedbackBody

namespace Store

variable (sv : Services) (s : Store)

/-- `_response_format`. -/
def responseFormat (interaction : Interaction) : StoreResult (Option ResponseFormat) :=
  match interaction.input.responseFormatRef with
  | none => .ok none
  | some reference =>
    let format := do
      let blob ← s.getPayload interaction.tenantId reference (sv.clock 1)
      let text ← sv.decrypt blob interaction.tenantId interaction.interactionId "response_format"
      sv.parseFormat text
    match format with
    | none => .error .correctionSchemaUnavailable
    | some format => .ok (some format)

/-- `_validate_target`. -/
def validateTarget (content : String) (format : Option ResponseFormat) : StoreResult Unit :=
  match format with
  | none => .ok ()
  | some format =>
    if format.type = .text then .ok ()
    else
      match format.schema with
      | some schema => check (sv.matchesSchema content schema) .invalidCorrectionTarget
      | none => check (sv.isJsonObject content) .invalidCorrectionTarget

/-- The format of a correction, which has to meet it. -/
def correctionFormat (interaction : Interaction) (body : FeedbackBody) :
    StoreResult (Option ResponseFormat) :=
  match body with
  | .label .. => .ok none
  | .correction text _ => do
    let format ← s.responseFormat sv interaction
    validateTarget sv text format
    .ok format

/-- The checks on the interaction before a label is recorded. -/
def feedbackInactive (tenant interactionId : String) (interaction : Interaction) : Bool :=
  s.stateOf tenant interactionId ≠ some .active ||
    (s.getTombstone tenant interactionId).isSome ||
    interaction.subjectIdPseudonymous.any (fun subject =>
      (s.getSubjectTombstone tenant subject).isSome) ||
    (s.expiresAt tenant interactionId).all (· ≤ sv.clock 0)

/-- The feedback with its text redacted and encrypted, and the payload, if any. -/
def sealFeedback (tenant interactionId : String) (body : FeedbackBody) (feedback : Feedback)
    (policy : PolicyDecision) (format : Option ResponseFormat) (expires : ℤ) :
    StoreResult (Feedback × Option EncryptedPayload) :=
  match body.content with
  | none => .ok (feedback, none)
  | some content =>
    if !policy.contentLoggingAllowed then .ok (feedback, none)
    else
      match sv.redact content policy with
      | none => .ok ({ feedback with errorCode := some "persistence_redaction_failed" }, none)
      | some (redacted, _) => do
        -- the redacted text of a correction is what will be trained on
        validateTarget sv redacted (if body.isCorrection then format else none)
        let blob ← sv.encrypt 0 redacted tenant interactionId
          (if body.isCorrection then "correction" else "comment") expires
        let feedback := { feedback with contentHash := some (sv.contentHash redacted "output") }
        .ok (if body.isCorrection then { feedback with correctionRef := some blob.reference }
          else { feedback with commentRef := some blob.reference }, some blob)

/-- The writes of `record`. -/
def storeFeedback (tenant : String) (interaction : Interaction) (feedback : Feedback)
    (blob : Option EncryptedPayload) (expires : ℤ) : StoreResult Store := do
  let s ← blob.toList.foldlM (fun s blob => s.putPayload blob) s
  let s ← s.put tenant (.feedback feedback) expires
  let s ← s.appendFeedback tenant interaction feedback.feedbackId
  .ok (s.enqueueEvents sv.pendingLimit [{
    eventId := sv.uid 1, eventType := .feedbackRecorded, tenantId := tenant,
    traceId := interaction.traceId, data := .record (.feedback feedback) }])

/-- `record`. -/
def recordFeedback (caller : Caller) (interactionId : String) (body : FeedbackBody) :
    StoreResult (Feedback × Store) := do
  let tenant := caller.tenantId
  let found ← s.getInteraction tenant interactionId
  match found with
  | none => .error .interactionNotFound
  | some interaction =>
    check (interaction.applicationId ∈ caller.applicationIds) .applicationForbidden
    let policy ← sv.decide tenant interaction.applicationId
    check policy.processingAllowed .processingForbidden
    check (!s.feedbackInactive sv tenant interactionId interaction) .interactionInactive
    let expires := (s.expiresAt tenant interactionId).getD 0
    let format ← s.correctionFormat sv interaction body
    let feedback := body.feedback interactionId (sv.uid 0) caller.subjectIdPseudonymous (sv.clock 2)
    let (feedback, blob) ← sealFeedback sv tenant interactionId body feedback policy format expires
    let s ← s.storeFeedback sv tenant interaction feedback blob expires
    .ok (feedback, s)

end Store

end Stored

end AdaptiveLlm
