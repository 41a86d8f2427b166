import AdaptiveLlm.Datasets.Candidates
import AdaptiveLlm.Datasets.Construction
import AdaptiveLlm.Python.Json
import AdaptiveLlm.Python.Replace
import AdaptiveLlm.Storage.Crypto

set_option autoImplicit false

/-! # The constructor of examples

`Constructor.build` (`datasets/construction.py`). It decrypts the conversation and the target of a
candidate, redacts them and the sources that were supplied, and makes a row of them. A source stands
in the row between two markers; what looks like a marker in its content is neutralised.

What the redactors, the resolvers of sources and the store answer are parameters, and each of them
may fail. The target is taken from the first of the preferred sources that has one.
`Evaluation/SourceRoundTrip.lean` proves that the markers around the sources can be taken off
again. -/

namespace AdaptiveLlm

namespace Datasets

open Rag (Chunk ChunkEvidence RetrievalRun)
open Stored (Feedback Fields Interaction)

/-! ## Services -/

/-- `PersistenceRedactor`, without the counts; `none` is an exception. -/
structure PersistenceRedactor where
  version : String
  redactText : CurrentPolicy → String → Option String

/-- `PayloadReader.get` by tenant, reference and time. -/
abbrev PayloadReader := String → String → ℤ → Option Crypto.EncryptedPayload

/-- What an example is built with, in the scope of one word class. -/
structure Constructor (wide : Char → Bool) where
  cipher : Crypto.PayloadCipher
  json : Python.JsonReader
  /-- `keyring.content_hash` by purpose -/
  contentHash : String → String → String
  /-- `keyring.dataset_hash` -/
  datasetHash : String → String
  /-- `json.dumps([inputs, target], sort_keys=True)` -/
  dumpPair : Json → String → String
  redactor : PersistenceRedactor
  sources : SourceResolver wide

/-- `TargetSource`: what gave the target text of an example. -/
inductive TargetSource where
  | correction
  | positiveResolution
  | productionOutput
  deriving DecidableEq, Repr

/-- The source as a row writes it. -/
def TargetSource.name : TargetSource → String
  | .correction => "correction"
  | .positiveResolution => "positive_resolution"
  | .productionOutput => "production_output"

/-- `raise Excluded(reason)`. -/
def exclude {α : Type} (reason : String) : Except ConstructionError α := .error (.excluded reason)

/-! ## Markers -/

/-- The marker before a source. -/
def sourceOpening (documentId chunkId version : String) : String :=
  "<<source " ++ documentId ++ "/" ++ chunkId ++ " " ++ version ++ ">>"

/-- The marker behind it. -/
def sourceClosing : String := "<</source>>"

/-- `content.replace("<<", "‹‹").replace(">>", "››")`. -/
def neutralise (content : String) : String :=
  String.ofList (Python.replace ">>".toList "››".toList
    (Python.replace "<<".toList "‹‹".toList content.toList))

/-- A source of an example: the chunk that was supplied as the evidence, and its redacted content. -/
structure Supplied where
  run : RetrievalRun
  item : ChunkEvidence
  chunk : Chunk
  content : String

namespace Supplied

variable (s : Supplied)

/-- What stands in the input. -/
def text : String :=
  sourceOpening s.chunk.documentId s.chunk.chunkId s.chunk.documentVersion ++ neutralise s.content ++
    sourceClosing

/-- The fields of a row that say where a chunk comes from. -/
def provenance : Fields :=
  [("document_id", .str s.chunk.documentId), ("chunk_id", .str s.chunk.chunkId),
    ("document_version", .str s.chunk.documentVersion), ("document_family", .str s.chunk.documentFamily),
    ("index_id", .str s.run.indexId), ("index_version", .str s.run.indexVersion),
    ("content_hash", .str s.item.contentHash), ("licence_class", .str s.chunk.licenceClass.name)]

end Supplied

/-- The supplied evidence by its place in the context; without one it comes first. -/
def contextOf (run : RetrievalRun) : List ChunkEvidence :=
  let place (e : ChunkEvidence) : ℤ := e.contextPosition.elim (-1) (↑)
  (run.candidates.filter (·.suppliedToModel)).mergeSort fun a b => place a ≤ place b

/-- The evidence of an example. -/
def Records.context (r : Records) : List ChunkEvidence := (r.run.map contextOf).getD []

namespace Constructor

variable {wide : Char → Bool} (cs : Constructor wide) (payloads : PayloadReader) (c : Example) (r : Records)
  (asOf : ℤ)

/-- `_read`. -/
def read (ref field digest : String) : Except ConstructionError String :=
  match payloads c.interaction.tenantId ref asOf with
  | none => exclude "missing_payload"
  | some blob =>
    match cs.cipher.decrypt blob c.interaction.tenantId c.interaction.interactionId field none with
    | .error _ => exclude "invalid_payload"
    | .ok bytes =>
      match Bytes.decodeText bytes with
      | none => exclude "invalid_payload"
      | some value =>
        let purpose := if field = "messages" then "input" else "output"
        if cs.contentHash purpose (String.ofList value) ≠ digest then exclude "payload_hash_mismatch"
        else .ok (String.ofList value)

/-- `redact`. -/
def redact (value : String) : Except ConstructionError String :=
  match cs.redactor.redactText c.policy value with
  | none => exclude "build_redaction_failed"
  | some redacted => .ok redacted

/-! ## Conversation -/

/-- `TypeAdapter(list[Message]).validate_json(raw)`, which is not empty. -/
def messages (raw : String) : Except ConstructionError (List Message) :=
  match (cs.json.loads raw.toList).bind (Json.list? Message.ofJson) with
  | none => exclude "invalid_conversation"
  | some [] => exclude "invalid_conversation"
  | some (m :: ms) => .ok (m :: ms)

/-- The redacted conversation. The input has a reference and a hash, or an assertion fails. -/
def conversation : Except ConstructionError (List Message) :=
  match c.interaction.input.messagesRef.filter (· ≠ ""),
      (textField c.interaction.input.others "content_hash").filter (· ≠ "") with
  | some ref, some digest => do
    let raw ← cs.read payloads c asOf ref "messages" digest
    let messages ← cs.messages raw
    messages.mapM fun m => do
      let content ← cs.redact c m.content
      .ok { m with content }
  | _, _ => .error .failed

/-! ## Sources

A source is resolved from the evidence of the retrieval and redacted. A chunk that can not be found
any more, or whose version could be taken for a marker, leaves the candidate out. -/

/-- One evidence of the loop. -/
def source (run : RetrievalRun) (item : ChunkEvidence) : Except ConstructionError Supplied :=
  match cs.sources.resolve c.interaction run item r.residency with
  | none => exclude "source_unavailable"
  | some chunk =>
    if chunk.documentVersion.toList.any fun x => x ∈ ['<', '>', '\r', '\n', '\x00'] then
      exclude "invalid_source_boundary"
    else do
      let content ← cs.redact c chunk.content
      .ok { run, item, chunk, content }

/-- The loop over the evidence, which is supplied at the places 0, 1 and so on. -/
def suppliedSources : Except ConstructionError (List Supplied) :=
  match r.run with
  | none => .ok []
  | some run =>
    let evidence := contextOf run
    if evidence.map (·.contextPosition) ≠ (List.range evidence.length).map some then
      exclude "invalid_source_order"
    else evidence.mapM (cs.source c r run)

/-! ## Target -/

/-- The `target` with what is noted of it. -/
structure Target where
  text : String
  targetSource : TargetSource
  feedbackId : Option String
  deriving DecidableEq

/-- `corrections`, the latest first. -/
def corrections : List Feedback :=
  (r.found.filter fun f => f.labelType = "correction" && f.trainingAuthorised &&
    f.correctionRef.any (· ≠ "") && f.contentHash.any (· ≠ "") && f.errorCode.all (· = "")).mergeSort
    fun a b => b.createdAt < a.createdAt || b.createdAt = a.createdAt && b.feedbackId ≤ a.feedbackId

/-- `positive`, the earliest first. -/
def positive : List Feedback :=
  (r.found.filter fun f => f.labelType = "resolution" && f.value.maxScore < f.value.score * 2).mergeSort
    fun a b => a.createdAt < b.createdAt || a.createdAt = b.createdAt && a.feedbackId ≤ b.feedbackId

/-- The output of the attempt can be a target: its reference and its hash. -/
def servedOutput : Option (String × String) := do
  let attempt ← r.attempt
  let validation ← attempt.validation
  let ref ← attempt.outputRef.filter (· ≠ "")
  let digest ← attempt.outputHash.filter (· ≠ "")
  if validation.passed && attempt.errorCode.isNone && attempt.finishReason =
    .stop && attempt.toolCalls.isEmpty then some (ref, digest)
  else none

/-- The target of a preference. -/
def preferred : TargetSource → Except ConstructionError (Option Target)
  | .correction =>
    match corrections r with
    | [] => .ok none
    | chosen :: _ => do
      let text ← cs.read payloads c asOf (chosen.correctionRef.getD "") "correction"
        (chosen.contentHash.getD "")
      .ok (some ⟨text, .correction, some chosen.feedbackId⟩)
  | preference =>
    if preference = .positiveResolution ∧ positive r = [] then .ok none
    else
      match servedOutput r with
      | none => .ok none
      | some (ref, digest) => do
        let text ← cs.read payloads c asOf ref "output" digest
        let feedbackId := if preference = .positiveResolution then
          (positive r).getLast?.map (·.feedbackId) else none
        .ok (some ⟨text, preference, feedbackId⟩)

/-- The first preference that has one. -/
def targetOf : List TargetSource → Except ConstructionError Target
  | [] => exclude "missing_eligible_target"
  | preference :: preferences => do
    match ← cs.preferred payloads c r asOf preference with
    | some target => .ok target
    | none => targetOf preferences

/-! ## The row -/

/-- The labels that a task is classified with. -/
structure Task where
  label : String
  language : String
  riskTier : String

/-- The field `task` of the interaction. -/
def taskOf (i : Interaction) : Except ConstructionError Task :=
  let text (name : String) : Option String := ((i.others.lookup "task").bind (·.field name)).bind Json.str?
  match text "label", text "language", text "risk_tier" with
  | some label, some language, some riskTier => .ok { label, language, riskTier }
  | _, _, _ => .error .failed

/-- `inputs`. -/
def inputs (conversation : List Message) (sources : List Supplied) : Json :=
  .obj [("system", .str "SYNTHETIC system instructions placeholder (local-1)."),
    ("policy", .str "SYNTHETIC policy instructions placeholder (local-1)."),
    ("messages", .arr (conversation.map Message.toJson)), ("sources", .arr (sources.map (.str ·.text))),
    ("tool_results", .arr [])]

/-- `row`, without what names the interaction. -/
def rowOf (conversation : List Message) (sources : List Supplied) (families : List String) (target : Target)
    (text exactHash : String) (task : Task) : Fields :=
  [("input", inputs conversation sources), ("target", .str text),
    ("target_source", .str target.targetSource.name),
    ("document_families", .arr (families.map .str)), ("sources", .arr (sources.map (.obj ·.provenance))),
    ("target_feedback_id", .ofOption .str target.feedbackId),
    ("target_attempt_id", if target.targetSource = .correction then .null else
      (c.interaction.others.lookup "final_attempt_id").getD .null),
    ("input_hash", .ofOption .str (textField c.interaction.input.others "content_hash")),
    ("example_hash", .str exactHash), ("eligibility_policy_version", .str c.policy.policyVersion),
    ("redaction_version", .str cs.redactor.version),
    ("labels", .obj [("task", .str task.label), ("language", .str task.language),
      ("risk_tier", .str task.riskTier),
      ("difficulty", .str "unknown")])]

/-- `build`, without what the row and the example say of whose they are. -/
def contents (preferences : List TargetSource) : Except ConstructionError Contents := do
  let conversation ← cs.conversation payloads c asOf
  let sources ← cs.suppliedSources c r
  let target ← cs.targetOf payloads c r asOf preferences
  let text ← cs.redact c target.text
  if Python.isBlank text then exclude "empty_target"
  let task ← taskOf c.interaction
  let families := (sources.map (·.chunk.documentFamily)).dedup.mergeSort (· ≤ ·)
  let exactHash := cs.datasetHash (cs.dumpPair (inputs conversation sources) text)
  .ok
    { families
      targetSource := target.targetSource.name
      language := task.language
      exactHash
      text := "\n".intercalate (conversation.map (·.content) ++ sources.map (·.text) ++ [text])
      row := cs.rowOf c conversation sources families target text exactHash task
      benchmarkText := some ("\n".intercalate ((conversation.filter (·.role = .user)).map (·.content))) }

/-- `build`. -/
def build (preferences : List TargetSource) : Except ConstructionError BuiltExample := do
  let contents ← cs.contents payloads c r asOf preferences
  .ok (constructed c contents)

/-! ## What is built -/

/-- A source is that of an evidence. -/
structure Supplies (evidence : ChunkEvidence) (s : Supplied) : Prop where
  run : r.run = some s.run
  item : s.item = evidence
  resolve : cs.sources.resolve c.interaction s.run evidence r.residency = some s.chunk
  redacted : cs.redactor.redactText c.policy s.chunk.content = some s.content

section Built

variable {cs payloads c r asOf} {preferences : List TargetSource} {e : BuiltExample}

theorem redact_eq_ok {value redacted : String} (h : cs.redact c value = .ok redacted) :
    cs.redactor.redactText c.policy value = some redacted := by
  unfold redact at h
  split at h
  · cases h
  · rename_i hredacted
    cases h
    exact hredacted

theorem source_eq_ok {run : RetrievalRun} {item : ChunkEvidence} {s : Supplied} (hrun : r.run = some run)
    (h : cs.source c r run item = .ok s) : cs.Supplies c r item s := by
  unfold source at h
  split at h
  · cases h
  rename_i chunk hresolve
  split at h
  · cases h
  obtain ⟨content, hcontent, h⟩ := Except.bind_eq_ok.1 h
  cases h
  exact ⟨hrun, rfl, hresolve, redact_eq_ok hcontent⟩

/-- The sources are those of the evidence in its order, which is that of the places. -/
theorem suppliedSources_eq_ok {sources : List Supplied} (h : cs.suppliedSources c r = .ok sources) :
    List.Forall₂ (cs.Supplies c r) r.context sources ∧
      r.context.map (·.contextPosition) = (List.range r.context.length).map some := by
  unfold suppliedSources at h
  unfold Records.context
  split at h
  · rename_i hrun
    cases h
    rw [hrun]
    exact ⟨.nil, rfl⟩
  · rename_i run hrun
    dsimp only at h
    split at h
    · cases h
    rename_i hplaces
    rw [hrun]
    refine ⟨(Except.forall₂_of_mapM_eq_ok h).imp fun _ _ => source_eq_ok hrun, ?_⟩
    simpa using hplaces

/-- The example is made of the conversation and the sources. -/
theorem build_eq_ok (h : cs.build payloads c r asOf preferences = .ok e) :
    ∃ conversation sources, cs.conversation payloads c asOf = .ok conversation ∧
      cs.suppliedSources c r = .ok sources ∧ ∃ families target text exactHash task more,
        e = constructed c more ∧
          more.row = cs.rowOf c conversation sources families target text exactHash task := by
  obtain ⟨contents, hcontents, h⟩ := Except.bind_eq_ok.1 h
  cases h
  obtain ⟨conversation, hconversation, hcontents⟩ := Except.bind_eq_ok.1 hcontents
  obtain ⟨sources, hsources, hcontents⟩ := Except.bind_eq_ok.1 hcontents
  obtain ⟨target, -, hcontents⟩ := Except.bind_eq_ok.1 hcontents
  obtain ⟨text, -, hcontents⟩ := Except.bind_eq_ok.1 hcontents
  split at hcontents
  · cases hcontents
  obtain ⟨-, -, hcontents⟩ := Except.bind_eq_ok.1 hcontents
  obtain ⟨task, -, hcontents⟩ := Except.bind_eq_ok.1 hcontents
  cases hcontents
  exact ⟨conversation, sources, hconversation, hsources, _, target, text, _, task, _, rfl, rfl⟩

end Built

end Constructor

end Datasets

end AdaptiveLlm
