import AdaptiveLlm.Storage.Store

set_option autoImplicit false

/-! # Transactions of the persistence

`storage/persistence.py`, `gateway/feedback.py` and `storage/retention.py`: what saves an interaction,
its shadow attempts and its feedback, and what expires and deletes it. Each is one transaction, so an
error leaves the store as it was.

The clock, the ids, the encryption, the redactor and the policy engine are the `Services` of a call,
of which nothing is assumed.

A save writes the records of an interaction with their payloads, and a replay if the caller gave a
key. What the redactor could not go over is not stored but marked, and the policy of the caller
decides whether texts are stored at all. Shadow attempts and feedback are added later, in
transactions that ask again whether the interaction may still be written for. -/

namespace AdaptiveLlm

namespace Stored

/-! ## Services -/

/-- The types of a response format. -/
inductive FormatType where
  | text
  | jsonObject
  | jsonSchema
  deriving DecidableEq, Repr

/-- `ResponseFormat` of a request. -/
structure ResponseFormat where
  type : FormatType := .text
  schema : Option Json := none

/-- The answers of other code during one call: successive readings of the clock and of `uid()` are
    numbered, and so are the encryptions, each with a reference and a nonce of its own. -/
structure Services where
  clock : ℕ → ℤ
  uid : ℕ → String
  /-- content, tenant, interaction, field, expiry -/
  encrypt : ℕ → String → String → String → String → ℤ → StoreResult EncryptedPayload
  decrypt : EncryptedPayload → String → String → String → Option String
  redact : String → PolicyDecision → Option (String × List (String × ℕ))
  redactorVersion : String
  /-- content, purpose -/
  contentHash : String → String → String
  dumps : Json → String
  /-- tenant, application -/
  decide : String → String → StoreResult PolicyDecision
  parseFormat : String → Option ResponseFormat
  matchesSchema : String → Json → Bool
  isJsonObject : String → Bool
  retentionSeconds : Option ℕ := none
  replayTtlSeconds : ℕ := 86400
  replayCapacity : ℕ := 10000
  pendingLimit : ℕ := 100000

/-- Seconds in microseconds. -/
def seconds (n : ℕ) : ℤ := n * 1000000

/-- `self.retention_seconds or policy.retention_seconds`. -/
def Services.retention (sv : Services) (policy : PolicyDecision) : ℤ :=
  seconds ((sv.retentionSeconds.filter (· ≠ 0)).getD policy.retentionSeconds)

/-! ## What is saved -/

/-- An interaction with all the records that are saved with it. -/
structure InteractionGraph where
  interaction : Interaction
  started : Started
  retrieval : Option RetrievalRun
  route : Option RouteDecision
  attempts : List GenerationAttempt

/-- The texts of an interaction that are sealed. -/
structure PersistenceContent where
  messagesJson : Option String := none
  responseFormatJson : Option String := none
  query : Option String := none
  output : Option String := none
  outputHash : Option String := none
  counts : List (String × ℕ) := []
  failed : Bool := false

/-- `InferenceResponse`: the content and the fields that no modelled function reads. -/
structure InferenceResponse where
  content : String
  others : Fields

/-- `model_dump_json` of an answer. -/
def InferenceResponse.toJson (r : InferenceResponse) : Json :=
  .obj (("content", .str r.content) :: r.others)

/-- Adds counts to those of the same name. -/
def addCounts (counts more : List (String × ℕ)) : List (String × ℕ) :=
  more.foldl (fun counts c =>
    if counts.any (·.1 = c.1) then counts.map fun d => if d.1 = c.1 then (d.1, d.2 + c.2) else d
    else counts ++ [c]) counts

/-- `prepare_output`. -/
def Services.prepareOutput (sv : Services) (output : String) (policy : PolicyDecision)
    (content : PersistenceContent) : PersistenceContent :=
  if content.failed then content
  else
    match sv.redact output policy with
    | none => { content with failed := true }
    | some (redacted, counts) =>
      { content with
        output := some redacted
        outputHash := some (sv.contentHash redacted "output")
        counts := addCounts content.counts counts }

/-- The event of an attempt. -/
def GenerationAttempt.eventType (a : GenerationAttempt) : EventType :=
  if a.errorCode.getD "" = "" then .generationCompleted else .generationFailed

/-- `_graph_records`. -/
def InteractionGraph.records (g : InteractionGraph) : List (EventType × StoredRecord) :=
  [(.interactionStarted, .started g.started)] ++
    g.retrieval.toList.map (fun r => (.retrievalCompleted, .retrieval r)) ++
    g.route.toList.map (fun r => (.routeDecided, .route r)) ++
    g.attempts.map (fun a => (a.eventType, .attempt a)) ++
    [(.interactionCompleted, .interaction g.interaction)]

/-! ## Saving -/

/-- Encrypts a text, if there is one. -/
def Services.encryptSome (sv : Services) (k : ℕ) (content : Option String)
    (interaction : Interaction) (field : String) (expiry : ℤ) :
    StoreResult (Option EncryptedPayload) :=
  match content with
  | none => .ok none
  | some content =>
    (sv.encrypt k content interaction.tenantId interaction.interactionId field expiry).map some

/-- Changes the last of a list; fails on an empty one. -/
def updateLast {α : Type} (f : α → α) (l : List α) : StoreResult (List α) :=
  match l.reverse with
  | [] => .error .failed
  | a :: rest => .ok ((f a :: rest).reverse)

/-- A graph with the references of its encrypted texts, the payloads and the replay. -/
structure SealedGraph where
  graph : InteractionGraph
  blobs : List EncryptedPayload := []
  replay : Option ReplayRecord := none

/-- Seals the output and, apart from whether content is logged, the replay of the response. -/
def Services.sealOutput (sv : Services) (graph : InteractionGraph) (response : InferenceResponse)
    (output fingerprint : String) (reservedAt expires replayExpires : ℤ) :
    StoreResult SealedGraph := do
  let interaction := graph.interaction
  let logging := interaction.policy.contentLoggingAllowed
  let blob ← sv.encryptSome 3 (if logging then some output else none) interaction "output" expires
  let attempts ← updateLast (fun a => { a with outputRef := blob.map (·.reference) }) graph.attempts
  let replay ← sv.encrypt 4 (sv.dumps { response with content := output }.toJson)
    interaction.tenantId interaction.interactionId "replay" replayExpires
  .ok {
    graph := { graph with attempts }
    blobs := blob.toList ++ [replay]
    replay := some {
      tenantId := interaction.tenantId
      applicationId := interaction.applicationId
      requestId := interaction.requestId
      interactionId := interaction.interactionId
      fingerprint
      responseRef := replay.reference
      reservedAt
      expiresAt := replayExpires } }

/-- The part of `_save` before its transaction. -/
def Services.sealGraph (sv : Services) (graph : InteractionGraph)
    (response : Option InferenceResponse) (content : PersistenceContent) (fingerprint : String)
    (reservedAt expires replayExpires : ℤ) : StoreResult SealedGraph :=
  if content.failed then .ok { graph }
  else
    match content.messagesJson, content.query with
    | some messagesJson, some query => do
      let interaction := graph.interaction
      let logging := interaction.policy.contentLoggingAllowed
      let messages ← sv.encryptSome 0 (if logging then some messagesJson else none) interaction
        "messages" expires
      let format ← sv.encryptSome 1 (if logging then content.responseFormatJson else none)
        interaction "response_format" expires
      let queryBlob ← sv.encryptSome 2 (if logging && graph.retrieval.isSome then some query else none)
        interaction "query" expires
      let input := { interaction.input with
        messagesRef := messages.map (·.reference)
        responseFormatRef := format.map (·.reference) }
      let graph := { graph with
        interaction := { interaction with input }
        retrieval := graph.retrieval.map fun r => { r with queryRef := queryBlob.map (·.reference) } }
      let blobs := messages.toList ++ format.toList ++ queryBlob.toList
      match content.output, response with
      | some output, some response => do
        let sealedOutput ← sv.sealOutput graph response output fingerprint reservedAt expires
          replayExpires
        .ok { sealedOutput with blobs := blobs ++ sealedOutput.blobs }
      | _, _ => .ok { graph, blobs }
    | _, _ => .error .failed

/-- The records of a graph in the order of their INSERTs. -/
def InteractionGraph.rows (g : InteractionGraph) : List StoredRecord :=
  [.interaction g.interaction, .started g.started] ++ g.retrieval.toList.map .retrieval ++
    g.route.toList.map .route ++ g.attempts.map .attempt

namespace Store

variable (sv : Services) (s : Store)

/-- The replay of a graph, in place of an earlier one. -/
def saveReplay (interaction : Interaction) (replay : Option ReplayRecord) : StoreResult Store :=
  match replay with
  | none => .ok s
  | some replay => do
    let s ← s.deleteReplay interaction.tenantId interaction.applicationId interaction.requestId
    s.putReplay replay sv.replayCapacity

/-- The transaction of `_save`. -/
def saveGraph (g : SealedGraph) (expires : ℤ) (events : List (Event String EventData)) :
    StoreResult Store := do
  let interaction := g.graph.interaction
  let s ← g.graph.rows.foldlM (fun s record => s.put interaction.tenantId record expires) s
  let s ← g.blobs.foldlM (fun s blob => s.putPayload blob) s
  let s ← s.saveReplay sv interaction g.replay
  .ok (s.enqueueEvents sv.pendingLimit events)

/-- `_save`. -/
def trySave (graph : InteractionGraph) (response : Option InferenceResponse)
    (content : PersistenceContent) (fingerprint : String) (reservedAt : ℤ) :
    StoreResult (SealedGraph × Store) := do
  let expires := sv.clock 0 + sv.retention graph.interaction.policy
  let replayExpires := min expires (sv.clock 1 + seconds sv.replayTtlSeconds)
  let g ← sv.sealGraph graph response content fingerprint reservedAt expires replayExpires
  let events := g.graph.records.mapIdx fun k (eventType, record) =>
    { eventId := sv.uid k, eventType, tenantId := graph.interaction.tenantId,
      traceId := graph.interaction.traceId, data := .record record }
  let s ← s.saveGraph sv g expires events
  .ok (g, s)

/-- `save`: an error leaves the store alone and the interaction without a replay. -/
def save (graph : InteractionGraph) (response : Option InferenceResponse)
    (content : PersistenceContent) (fingerprint : String) (reservedAt : ℤ) :
    (Interaction × Option ReplayRecord) × Store :=
  let interaction := { graph.interaction with
    errorCode := if content.failed then some "persistence_redaction_failed"
      else graph.interaction.errorCode
    policy := { graph.interaction.policy with
      persistenceRedactionVersion := sv.redactorVersion
      persistenceRedactionCounts := content.counts } }
  match s.trySave sv { graph with interaction } response content fingerprint reservedAt with
  | .error _ => ((interaction, none), s)
  | .ok (g, s) => ((g.graph.interaction, g.replay), s)

/-- The payload of a shadow output, where content is logged. -/
def shadowPayload (interaction : Interaction) (attempt : GenerationAttempt) (policy : PolicyDecision)
    (content : PersistenceContent) (expires : ℤ) : StoreResult (Option EncryptedPayload) :=
  sv.encryptSome 0
    (if !content.failed && policy.contentLoggingAllowed && interaction.policy.contentLoggingAllowed
      then content.output else none)
    interaction ("shadow_output." ++ attempt.attemptId) expires

/-- The transaction of `save_shadow`. -/
def saveShadowAttempt (interaction : Interaction) (attempt : GenerationAttempt)
    (policy : PolicyDecision) (content : PersistenceContent) (expires : ℤ) :
    StoreResult (Bool × Store) :=
  let tenant := interaction.tenantId
  if s.stateOf tenant interaction.interactionId ≠ some .active then .ok (false, s)
  else do
    let blob ← shadowPayload sv interaction attempt policy content expires
    let s ← blob.toList.foldlM (fun s blob => s.putPayload blob) s
    let attempt := { attempt with
      outputRef := (blob.map (·.reference)).orElse fun _ => attempt.outputRef }
    let s ← s.put tenant (.attempt attempt) expires
    let s ← s.addShadowCost tenant interaction.interactionId (attempt.estimatedCostMicros.getD 0)
    .ok (true, s.enqueueEvents sv.pendingLimit [{
      eventId := sv.uid 0, eventType := attempt.eventType, tenantId := tenant,
      traceId := interaction.traceId, data := .record (.attempt attempt) }])

/-- `save_shadow`. -/
def saveShadow (interaction : Interaction) (attempt : GenerationAttempt) (output : Option String)
    (policy : PolicyDecision) (inputRedactionFailed : Bool) : StoreResult (Bool × Store) :=
  let expires := min (interaction.completedAt + sv.retention interaction.policy)
    (sv.clock 0 + seconds policy.retentionSeconds)
  if expires ≤ sv.clock 1 then .ok (false, s)
  else
    let content : PersistenceContent := { failed := inputRedactionFailed }
    let content := match output with
      | none => content
      | some output => sv.prepareOutput output policy content
    s.saveShadowAttempt sv interaction { attempt with outputHash := content.outputHash } policy content
      expires

/-! ## Deleting -/

/-- `_deletion_event`. -/
def deletionEvent (tenant traceId : String) (deletion : DeletionRequest) : Event String EventData where
  eventId := deletion.deletionRequestId
  eventType := .privacyDeletionRequested
  tenantId := tenant
  traceId
  data := .deletion deletion

/-- `_delete`. -/
def erase (tenant interactionId : String) (deletion : DeletionRequest) : StoreResult Store :=
  ((s.tombstone tenant interactionId deletion).clearRefs tenant interactionId .deleted).deleteInteraction
    tenant interactionId

/-- `delete`. -/
def delete (tenant interactionId : String) (actor : Option String) :
    StoreResult (Option (Interaction × DeletionRequest) × Store) := do
  let found ← s.getInteraction tenant interactionId
  match found with
  | none => .ok (none, s)
  | some interaction =>
    let deletion := (s.getTombstone tenant interactionId).getD
      { deletionRequestId := sv.uid 0, scope := .interaction, targetId := interactionId,
        requestedAt := sv.clock 0, actorIdPseudonymous := actor }
    let s ← s.erase tenant interaction.interactionId deletion
    .ok (some (interaction, deletion), s.enqueueEvents sv.pendingLimit
      [deletionEvent tenant interaction.traceId deletion])

/-- `delete_subject`. -/
def deleteSubject (tenant subject : String) (actor : Option String) :
    StoreResult ((DeletionRequest × List (Interaction × DeletionRequest)) × Store) := do
  let deletion := (s.getSubjectTombstone tenant subject).getD
    { deletionRequestId := sv.uid 0, scope := .subject, targetId := subject,
      requestedAt := sv.clock 0, actorIdPseudonymous := actor }
  let interactions ← s.forSubject tenant subject
  let deleted := interactions.mapIdx fun k interaction =>
    (interaction, (s.getTombstone tenant interaction.interactionId).getD
      { deletionRequestId := sv.uid (k + 2), scope := .interaction,
        targetId := interaction.interactionId, requestedAt := sv.clock (k + 1),
        actorIdPseudonymous := actor })
  let s ← s.tombstoneSubject tenant deletion
  let s ← deleted.foldlM (fun s d => s.erase tenant d.1.interactionId d.2) s
  let events := deleted.map (fun d => deletionEvent tenant d.1.traceId d.2) ++
    [deletionEvent tenant (sv.uid 1) deletion]
  .ok ((deletion, deleted), s.enqueueEvents sv.pendingLimit events)

/-- `sweep`. -/
def sweep (tenant : String) : StoreResult (ℕ × Store) := do
  let now := sv.clock 0
  let expired ← s.expired tenant now
  let s ← expired.foldlM (fun s interaction =>
    (s.clearRefs tenant interaction.interactionId .expired).deleteInteraction tenant
      interaction.interactionId) s
  let s ← s.expireReplays tenant now
  .ok (expired.length, s)

end Store

end Stored

end AdaptiveLlm
