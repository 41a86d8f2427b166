import AdaptiveLlm.Datasets.Builder
import AdaptiveLlm.Datasets.Constructor
import AdaptiveLlm.Python.Slices

set_option autoImplicit false

/-! # Held-out rows

`LocalDatasetReader._case` (`evaluation/data.py`): an evaluation takes the chunks of a case out of the
row that the constructor made, by the markers around every source.

The reader takes off the marker that begins a source and the one that ends it, and what is between
them is the content of a chunk. These are the right places only because the constructor has
neutralised whatever looks like a marker in the content. The other fields of the chunk are those of
the source as the row lists it, and the chunks become the corpus of the case, which the evaluation
retrieves from. -/

namespace AdaptiveLlm

namespace HeldOut

open Datasets
open Rag (Chunk ChunkEvidence RagOptions)
open Stored (Fields)

/-! ## Rows -/

/-- The source of a row, as the file names it. -/
structure Source where
  documentId : String
  chunkId : String
  documentVersion : String
  documentFamily : String
  indexId : String
  indexVersion : String
  deriving DecidableEq

/-- A source that is read from its JSON. -/
def Source.ofJson (j : Json) : Option Source := do
  let documentId ← (j.field "document_id").bind Json.str?
  let chunkId ← (j.field "chunk_id").bind Json.str?
  let documentVersion ← (j.field "document_version").bind Json.str?
  let documentFamily ← (j.field "document_family").bind Json.str?
  let indexId ← (j.field "index_id").bind Json.str?
  let indexVersion ← (j.field "index_version").bind Json.str?
  some { documentId, chunkId, documentVersion, documentFamily, indexId, indexVersion }

/-- A row of the held-out split. -/
structure HeldOutRow where
  tenantId : String
  split : String
  exampleHash : String
  /-- `input.messages` -/
  messages : List Message
  /-- `input.sources` -/
  wrapped : List String
  sources : List Source
  target : String
  labels : List (String × String)

/-- `dict[str, str]`. -/
def texts : Json → Option (List (String × String))
  | .obj fields => fields.mapM fun f => f.2.str?.map fun text => (f.1, text)
  | _ => none

/-- `HeldOutRow.model_validate`. -/
def HeldOutRow.ofJson (j : Json) : Option HeldOutRow := do
  let tenantId ← (j.field "tenant_id").bind Json.str?
  let split ← (j.field "split").bind Json.str?
  let exampleHash ← (j.field "example_hash").bind Json.str?
  let input ← j.field "input"
  let messages ← (input.field "messages").bind (Json.list? Message.ofJson)
  let wrapped ← (input.field "sources").bind (Json.list? Json.str?)
  let sources ← (j.field "sources").bind (Json.list? Source.ofJson)
  let target ← (j.field "target").bind Json.str?
  let labels ← (j.field "labels").bind texts
  some { tenantId, split, exampleHash, messages, wrapped, sources, target, labels }

/-! ## Cases

The builder has put each source between a prefix with its ids and a suffix. `_case` takes both off
again by their lengths, and what is left has to be the content of a valid chunk, so a source that
redaction has made too long is refused. -/

/-- What is read of an evaluation specification. -/
structure Specification (wide : Char → Bool) where
  applicationId : String
  criticalSegments : List String
  application : isIdentifier wide applicationId = true

/-- The request that an item is asked with. -/
structure InferenceRequest where
  applicationId : String
  messages : List Message
  rag : RagOptions

/-- One item of the held-out suite. -/
structure Case where
  itemId : String
  tenantId : String
  request : InferenceRequest
  corpus : List Chunk
  target : String
  expectedCitations : List (String × String)
  segments : List String

/-- The `prefix` of a source. -/
def opening (s : Source) : String :=
  "<<source " ++ s.documentId ++ "/" ++ s.chunkId ++ " " ++ s.documentVersion ++ ">>"

/-- The `suffix`. -/
def closing : String := "<</source>>"

section Read

variable {wide : Char → Bool} (fingerprint : String → String) (spec : Specification wide)

/-- The chunk of a source; `none` is a `ValueError`. -/
def chunkOf (tenantId : String) (s : Source) (wrapped : String) : Option Chunk :=
  if !(opening s).toList.isPrefixOf wrapped.toList || !closing.toList.isSuffixOf wrapped.toList then none
  else
    let chunk : Chunk :=
      { tenantId
        allowedApplications := [spec.applicationId]
        indexId := s.indexId
        indexVersion := s.indexVersion
        documentId := s.documentId
        documentVersion := s.documentVersion
        documentFamily := s.documentFamily
        chunkId := s.chunkId
        content := String.ofList (Python.slice wrapped.toList (opening s).length (-(closing.length : ℤ)))
        licenceClass := .synthetic }
    if chunk.valid wide then some chunk else none

/-- `segment`. -/
def segment (key value : String) : String :=
  key ++ "." ++ String.ofList ((fingerprint value).toList.take 16)

/-- `labels` with what is set in them. -/
def labelsOf (row : HeldOutRow) (chunks : List Chunk) : List (String × String) :=
  [("citation", if chunks.isEmpty then "none" else "required"),
    ("safety", (row.labels.lookup "risk_tier").getD "unknown")] ++ row.labels

/-- The case of a row with these chunks, without the id of its request. -/
def makeCase (row : HeldOutRow) (corpus : List Chunk) : Case where
  itemId := row.exampleHash
  tenantId := row.tenantId
  request :=
    { applicationId := spec.applicationId
      messages := row.messages
      rag := { enabled := !corpus.isEmpty, indexId := corpus.head?.map (·.indexId) } }
  corpus := corpus
  target := row.target
  expectedCitations := (row.sources.map fun s => (s.documentId, s.chunkId)).dedup
  segments := spec.criticalSegments.filterMap fun key =>
    ((labelsOf row corpus).lookup key).map (segment fingerprint key)

/-- `_case`; `none` is an exception. -/
def caseOf (row : HeldOutRow) : Option Case := do
  if row.sources.length ≠ row.wrapped.length then none
  let corpus ← (row.sources.zip row.wrapped).mapM fun s => chunkOf spec row.tenantId s.1 s.2
  if 1 < (corpus.map (·.indexId)).dedup.length then none
  if !boundedMessages row.messages then none
  some (makeCase fingerprint spec row corpus)

/-- The case of a row as it stands in a shard. -/
def readCase (row : Fields) : Option Case := (HeldOutRow.ofJson (.obj row)).bind (caseOf fingerprint spec)

end Read

/-! ## Neutralised content

The neutraliser replaces `<<` and `>>` by other characters, two by two, so no marker begins or ends
in a content. The length stays the same: a content can become too long by redaction only. -/

theorem toList_neutralise (content : String) : (neutralise content).toList =
    Python.replace ">>".toList "››".toList (Python.replace "<<".toList "‹‹".toList content.toList) :=
  String.toList_ofList

@[simp] theorem length_neutralise (content : String) : (neutralise content).length = content.length := by
  rw [← String.length_toList, toList_neutralise, Python.length_replace (by decide) (by decide),
    Python.length_replace (by decide) (by decide), String.length_toList]

/-- **Neutralised.** No marker can begin or end in the content. -/
theorem not_infix_neutralise (content : String) :
    ¬"<<".toList <:+: (neutralise content).toList ∧ ¬">>".toList <:+: (neutralise content).toList := by
  rw [toList_neutralise]
  refine ⟨fun h => ?_, Python.not_infix_replace (by simp) (by decide) (by decide) _⟩
  -- the second replacement brings no marker back
  exact Python.not_infix_replace (by simp) (by decide) (by decide) content.toList
    (Python.infix_of_infix_replace (by simp) (by decide) (by decide) h)

/-! ## What is recovered of a source -/

/-- The provenance as it is read. -/
def sourceOf (s : Supplied) : Source where
  documentId := s.chunk.documentId
  chunkId := s.chunk.chunkId
  documentVersion := s.chunk.documentVersion
  documentFamily := s.chunk.documentFamily
  indexId := s.run.indexId
  indexVersion := s.run.indexVersion

theorem ofJson_provenance (s : Supplied) : Source.ofJson (.obj s.provenance) = some (sourceOf s) := rfl

section Recover

variable {wide : Char → Bool} {fingerprint : String → String} (spec : Specification wide)

/-- The chunk of the corpus for a source. -/
def recovered (tenantId : String) (s : Supplied) : Chunk where
  tenantId := tenantId
  allowedApplications := [spec.applicationId]
  indexId := s.run.indexId
  indexVersion := s.run.indexVersion
  documentId := s.chunk.documentId
  documentVersion := s.chunk.documentVersion
  documentFamily := s.chunk.documentFamily
  chunkId := s.chunk.chunkId
  content := neutralise s.content
  licenceClass := .synthetic

/-- The markers are found, and what is between them is the content. -/
theorem slice_text (s : Supplied) : (opening (sourceOf s)).toList.isPrefixOf s.text.toList = true ∧
    closing.toList.isSuffixOf s.text.toList = true ∧
    String.ofList (Python.slice s.text.toList (opening (sourceOf s)).length (-(closing.length : ℤ))) =
      neutralise s.content := by
  have htext : s.text.toList =
      (opening (sourceOf s)).toList ++ (neutralise s.content).toList ++ closing.toList := by
    rw [Supplied.text, String.toList_append, String.toList_append]
    rfl
  refine ⟨?_, ?_, ?_⟩
  · rw [List.isPrefixOf_iff_prefix, htext, List.append_assoc]
    exact List.prefix_append _ _
  · rw [List.isSuffixOf_iff_suffix, htext]
    exact List.suffix_append _ _
  · rw [htext, ← String.length_toList, ← String.length_toList, Python.slice_between _ _ (by decide),
      String.ofList_toList]

/-- The chunk is valid if its content is not too long. -/
theorem valid_recovered {i : Stored.Interaction} {s : Supplied} (h : Resolved wide i s.run s.item s.chunk) :
    (recovered spec i.tenantId s).valid wide = decide (s.content.length ≤ contentLimit) := by
  have hvalid := h.valid
  simp only [Chunk.valid, Bool.and_eq_true, and_assoc] at hvalid
  obtain ⟨htenant, -, -, hindex, hdocument, hfamily, hchunk, -⟩ := hvalid
  rw [h.tenant] at htenant
  rw [h.index] at hindex
  simp only [Chunk.valid, recovered, htenant, hindex, hdocument, hfamily, hchunk,
    List.all_cons, List.all_nil, spec.application, length_neutralise, Bool.true_and, Bool.and_true]
  rw [show Rag.isRegion "local" = true by decide, Bool.true_and]

theorem chunkOf_text {i : Stored.Interaction} {s : Supplied} (h : Resolved wide i s.run s.item s.chunk) :
    chunkOf spec i.tenantId (sourceOf s) s.text =
      if s.content.length ≤ contentLimit then some (recovered spec i.tenantId s) else none := by
  obtain ⟨hopening, hclosing, hcontent⟩ := slice_text s
  simp only [chunkOf, hopening, hclosing, hcontent, Bool.not_true, Bool.or_self,
    Bool.false_eq_true, if_false]
  show (if (recovered spec i.tenantId s).valid wide = true then
    some (recovered spec i.tenantId s) else none) = _
  rw [valid_recovered spec h]
  simp only [decide_eq_true_eq]

/-- The corpus is that of the sources, or a content is too long. -/
theorem corpus_eq {i : Stored.Interaction} {sources : List Supplied}
    (h : ∀ s ∈ sources, Resolved wide i s.run s.item s.chunk) :
    ((sources.map sourceOf).zip (sources.map (·.text))).mapM (fun s => chunkOf spec i.tenantId s.1 s.2) =
      if ∀ s ∈ sources, s.content.length ≤ contentLimit then some (sources.map (recovered spec i.tenantId))
      else none := by
  rw [List.zip_map', List.mapM_map]
  exact Option.mapM_eq_ite fun s hs => chunkOf_text spec (h s hs)

end Recover

/-! ## The row as it is read

A row comes from the shard as JSON. What the held-out suite reads of it is what the builder staged.
-/

theorem list_map {α β : Type} {read : Json → Option β} {write : α → Json} {g : α → β}
    (h : ∀ a, read (write a) = some (g a)) (as : List α) :
    Json.list? read (.arr (as.map write)) = some (as.map g) := by
  show (as.map write).mapM read = _
  rw [List.mapM_map]
  exact Option.mapM_eq_some_map fun a _ => h a

theorem list_messages (conversation : List Message) :
    Json.list? Message.ofJson (.arr (conversation.map Message.toJson)) =
      if ∀ m ∈ conversation, m.valid = true then some conversation else none := by
  show (conversation.map Message.toJson).mapM Message.ofJson = _
  have hall := Option.mapM_eq_ite (g := id) fun (m : Message) (_ : m ∈ conversation) =>
    Message.ofJson_toJson m
  rw [List.map_id] at hall
  rw [List.mapM_map]
  exact hall

section Row

variable {wide : Char → Bool} {cs : Constructor wide} {c : Example} {conversation : List Message}
  {sources : List Supplied} {families : List String} {target : Constructor.Target} {text exactHash : String}
  {task : Constructor.Task} {more : Contents}

theorem lookup_stagedRow {name : String} (hname : name ∉ ["split", "transformation_code_revision"])
    (revision : String) (split : Split) (e : BuiltExample) :
    (stagedRow revision split e).lookup name = e.row.lookup name :=
  Json.lookup_setFields_of_not_mem hname e.row

theorem lookup_split (revision : String) (split : Split) (e : BuiltExample) :
    (stagedRow revision split e).lookup "split" = some (.str split.name) := by
  have hname : "split" ≠ "transformation_code_revision" := by decide
  rw [stagedRow, Json.setFields, List.foldl_cons, List.foldl_cons, List.foldl_nil, Json.lookup_setField,
    if_neg hname, Json.lookup_setField, if_pos rfl]

/-- What is read of the row. -/
def readRow (c : Example) (conversation : List Message) (sources : List Supplied)
    (split : Split) (text exactHash : String) (task : Constructor.Task) : HeldOutRow where
  tenantId := c.interaction.tenantId
  split := split.name
  exampleHash := exactHash
  messages := conversation
  wrapped := sources.map (·.text)
  sources := sources.map sourceOf
  target := text
  labels := [("task", task.label), ("language", task.language), ("risk_tier", task.riskTier),
    ("difficulty", "unknown")]

theorem ofJson_stagedRow
    (hrow : more.row = cs.rowOf c conversation sources families target text exactHash task)
    (revision : String) (split : Split) :
    HeldOutRow.ofJson (.obj (stagedRow revision split (constructed c more))) =
      if ∀ m ∈ conversation, m.valid = true then
        some (readRow c conversation sources split text exactHash task)
      else none := by
  have hrow : (constructed c more).row = ("interaction_id", .str c.interaction.interactionId) ::
      ("tenant_id", .str c.interaction.tenantId) ::
      ("subject_id_pseudonymous", .ofOption .str c.interaction.subjectIdPseudonymous) ::
      cs.rowOf c conversation sources families target text exactHash task := by
    rw [← hrow]
    rfl
  have hfield : ∀ {name : String} {value : Json}, name ∉ ["split", "transformation_code_revision"] →
      (constructed c more).row.lookup name = some value →
      Json.field name (.obj (stagedRow revision split (constructed c more))) = some value :=
    fun hname hvalue => (lookup_stagedRow hname revision split _).trans hvalue
  rw [hrow] at hfield
  have htenant := @hfield "tenant_id" _ (by decide) rfl
  have hhash := @hfield "example_hash" _ (by decide) rfl
  have hinput := @hfield "input" _ (by decide) rfl
  have hprovenance := @hfield "sources" _ (by decide) rfl
  have htarget := @hfield "target" _ (by decide) rfl
  have hlabels := @hfield "labels" _ (by decide) rfl
  have hsplit : Json.field "split" (.obj (stagedRow revision split (constructed c more))) =
      some (.str split.name) :=
    lookup_split revision split _
  have hmessages := list_messages conversation
  have hwrapped := @list_map _ _ Json.str? (fun s : Supplied => .str s.text) Supplied.text
    (fun _ => rfl) sources
  have hsources := @list_map _ _ Source.ofJson (fun s : Supplied => .obj s.provenance)
    sourceOf ofJson_provenance sources
  have hinputMessages : Json.field "messages" (Constructor.inputs conversation sources) =
      some (.arr (conversation.map Message.toJson)) := rfl
  have hinputSources : Json.field "sources" (Constructor.inputs conversation sources) =
      some (.arr (sources.map (.str ·.text))) := rfl
  simp only [HeldOutRow.ofJson, htenant, hsplit, hhash, hinput, hprovenance, htarget,
    hlabels, hinputMessages, hinputSources, Option.bind_eq_bind, Option.bind_some,
    Json.str?, hmessages, hwrapped, hsources]
  split
  · rfl
  · rfl

end Row

end HeldOut

end AdaptiveLlm
