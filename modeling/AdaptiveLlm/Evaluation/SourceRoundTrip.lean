import AdaptiveLlm.Datasets.Publication
import AdaptiveLlm.Datasets.ShardReads
import AdaptiveLlm.Evaluation.HeldOut
import AdaptiveLlm.Policy.PhoneNeighbours

set_option autoImplicit false

/-! # Sources through a dataset

What the constructor wraps around the content of a source, the reader of an evaluation takes off
again. The reader checks the bounds of a request once more, and a redacted text can be longer than the
text was.

The whole way is followed: the resolver finds the chunk, the redactors go over it, the constructor
puts it between its markers, the row is staged, and the reader of an evaluation takes the case out
of it. A source comes back with its redacted content and its identifiers. The one thing that can go
wrong is length: a redaction may write more than it takes, and the reader asks the contract's bound
of the result. -/

namespace AdaptiveLlm

namespace HeldOut

open Datasets
open Rag (Chunk ChunkEvidence)

section RoundTrip

variable {wide : Char → Bool} (cs : Constructor wide) (payloads : PayloadReader) (c : Example) (r : Records)
  (asOf : ℤ)

/-- A chunk is what is recovered of an evidence: its source's, with the redacted content neutralised. -/
structure RecoversSource (evidence : ChunkEvidence) (chunk : Chunk) : Prop where
  source : ∃ run source content, r.run = some run ∧
    cs.sources.resolve c.interaction run evidence r.residency = some source ∧
    cs.redactor.redactText c.policy source.content = some content ∧ chunk.content = neutralise content ∧
    chunk.documentId = source.documentId ∧ chunk.chunkId = source.chunkId ∧
    chunk.documentVersion = source.documentVersion
  noOpening : ¬"<<".toList <:+: chunk.content.toList
  noClosing : ¬">>".toList <:+: chunk.content.toList

/-- One chunk for every supplied source, in the order of the places 0, 1 and so on. -/
structure Recovers (case : Case) : Prop where
  chunks : List.Forall₂ (RecoversSource cs c r) r.context case.corpus
  places : r.context.map (·.contextPosition) = (List.range case.corpus.length).map some

/-- The redacted texts are within the bounds that the reader checks. -/
structure Readable : Prop where
  sources : ∀ run, r.run = some run → ∀ evidence ∈ contextOf run, ∀ source content,
    cs.sources.resolve c.interaction run evidence r.residency = some source →
    cs.redactor.redactText c.policy source.content = some content → content.length ≤ contentLimit
  conversation : ∀ messages, cs.conversation payloads c asOf = .ok messages →
    (∀ m ∈ messages, m.valid = true) ∧ boundedMessages messages = true

variable {cs payloads c r asOf}

theorem recoversSource_recovered (spec : Specification wide) {evidence : ChunkEvidence} {s : Supplied}
    (h : cs.Supplies c r evidence s) :
    RecoversSource cs c r evidence (recovered spec c.interaction.tenantId s) :=
  ⟨⟨s.run, s.chunk, s.content, h.run, h.resolve, h.redacted, rfl, rfl, rfl, rfl⟩,
    (not_infix_neutralise s.content).1, (not_infix_neutralise s.content).2⟩

/-- The chunks are of one index. -/
theorem length_dedup_le_one {α : Type} [DecidableEq α] {as : List α} (h : ∀ a ∈ as, ∀ b ∈ as, a = b) :
    as.dedup.length ≤ 1 := by
  cases as with
  | nil => simp
  | cons a as =>
    have hsubset : (a :: as).dedup ⊆ [a] := fun b hb =>
      List.mem_singleton.2 (h b (List.mem_dedup.1 hb) a List.mem_cons_self)
    exact ((List.nodup_dedup (a :: as)).subperm hsubset).length_le

/-- The reader takes the row exactly if the contents and the conversation are within the bounds. -/
theorem caseOf_readRow (fingerprint : String → String) (spec : Specification wide)
    (conversation : List Message) {sources : List Supplied} (h : ∀ s ∈ sources, cs.Supplies c r s.item s)
    (split : Split) (text exactHash : String) (task : Constructor.Task) :
    (∀ case, caseOf fingerprint spec (readRow c conversation sources split text exactHash task) =
      some case → case.corpus = sources.map (recovered spec c.interaction.tenantId)) ∧
    ((∃ case, caseOf fingerprint spec (readRow c conversation sources split text exactHash task) =
      some case) ↔
      (∀ s ∈ sources, s.content.length ≤ contentLimit) ∧ boundedMessages conversation = true) := by
  have hresolved : ∀ s ∈ sources, Resolved wide c.interaction s.run s.item s.chunk :=
    fun s hs => cs.sources.resolved (h s hs).resolve
  have hindex : ((sources.map (recovered spec c.interaction.tenantId)).map (·.indexId)).dedup.length ≤
      1 := by
    refine length_dedup_le_one fun a ha b hb => ?_
    simp only [List.map_map, List.mem_map] at ha hb
    obtain ⟨s, hs, rfl⟩ := ha
    obtain ⟨t, ht, rfl⟩ := hb
    have hrun : s.run = t.run := Option.some.inj ((h s hs).run.symm.trans (h t ht).run)
    exact congrArg (·.indexId) hrun
  have hlength : (sources.map sourceOf).length = (sources.map (·.text)).length := by simp
  unfold caseOf
  simp only [readRow, hlength, ne_eq, not_true_eq_false, if_false, corpus_eq spec hresolved]
  by_cases hall : ∀ s ∈ sources, s.content.length ≤ contentLimit
  · rw [if_pos hall]
    simp only [Option.bind_eq_bind, Option.bind_some, if_neg (Nat.not_lt.2 hindex)]
    by_cases hbounded : boundedMessages conversation = true
    · simp only [hbounded, Bool.not_true, Bool.false_eq_true, if_false]
      refine ⟨fun case hcase => ?_, fun _ => ⟨hall, trivial⟩, fun _ => ⟨_, rfl⟩⟩
      rw [← Option.some.inj hcase]
      rfl
    · simp [hbounded]
  · rw [if_neg hall]
    simp [hall]

/-- The bounds, of the conversation and the sources that the row is made of. -/
theorem readable_iff {conversation : List Message} {sources : List Supplied}
    (hconversation : cs.conversation payloads c asOf = .ok conversation)
    (hsources : List.Forall₂ (cs.Supplies c r) r.context sources) :
    Readable cs payloads c r asOf ↔ (∀ m ∈ conversation, m.valid = true) ∧
      (∀ s ∈ sources, s.content.length ≤ contentLimit) ∧ boundedMessages conversation = true := by
  constructor
  · intro h
    obtain ⟨hvalid, hbounded⟩ := h.conversation conversation hconversation
    refine ⟨hvalid, fun s hs => ?_, hbounded⟩
    obtain ⟨evidence, hmem, hsupplies⟩ := hsources.exists_of_mem_right hs
    rw [Records.context, hsupplies.run] at hmem
    exact h.sources s.run hsupplies.run evidence hmem s.chunk s.content hsupplies.resolve hsupplies.redacted
  · rintro ⟨hvalid, hlength, hbounded⟩
    refine ⟨fun run hrun evidence hmem source content hresolve hredacted => ?_,
      fun messages hmessages => ?_⟩
    · have hcontext : evidence ∈ r.context := by
        rw [Records.context, hrun]
        exact hmem
      obtain ⟨s, hs, hsupplies⟩ := hsources.exists_of_mem_left hcontext
      -- the run, the chunk and its redacted content are determined
      obtain rfl := Option.some.inj (hrun.symm.trans hsupplies.run)
      obtain rfl := Option.some.inj (hresolve.symm.trans hsupplies.resolve)
      obtain rfl := Option.some.inj (hredacted.symm.trans hsupplies.redacted)
      exact hlength s hs
    · cases hconversation.symm.trans hmessages
      exact ⟨hvalid, hbounded⟩

section Built

variable {preferences : List TargetSource} {e : BuiltExample}
  (h : cs.build payloads c r asOf preferences = .ok e) (fingerprint : String → String)
  (spec : Specification wide)
  (revision : String) (split : Split)

include h in
/-- A built row is that of its conversation and its sources. -/
theorem readCase_stagedRow : ∃ conversation sources, cs.conversation payloads c asOf = .ok conversation ∧
    List.Forall₂ (cs.Supplies c r) r.context sources ∧
    r.context.map (·.contextPosition) = (List.range sources.length).map some ∧
    (∀ case, readCase fingerprint spec (stagedRow revision split e) = some case →
      case.corpus = sources.map (recovered spec c.interaction.tenantId)) ∧
    ((∃ case, readCase fingerprint spec (stagedRow revision split e) = some case) ↔
      (∀ m ∈ conversation, m.valid = true) ∧ (∀ s ∈ sources, s.content.length ≤ contentLimit) ∧
        boundedMessages conversation = true) := by
  obtain ⟨conversation, sources, hconversation, hsources, families, target, text,
      exactHash, task, more, rfl, hrow⟩ :=
    Constructor.build_eq_ok h
  obtain ⟨hsupplied, hplaces⟩ := Constructor.suppliedSources_eq_ok hsources
  have hall : ∀ s ∈ sources, cs.Supplies c r s.item s := by
    intro s hs
    obtain ⟨evidence, -, hsupplies⟩ := hsupplied.exists_of_mem_right hs
    exact hsupplies.item ▸ hsupplies
  obtain ⟨hcorpus, hcase⟩ := caseOf_readRow fingerprint spec conversation hall split text exactHash task
  rw [hsupplied.length_eq] at hplaces
  refine ⟨conversation, sources, hconversation, hsupplied, hplaces, ?_⟩
  rw [readCase, ofJson_stagedRow hrow]
  by_cases hvalid : ∀ m ∈ conversation, m.valid = true
  · rw [if_pos hvalid, Option.bind_some]
    exact ⟨hcorpus, hcase.trans ⟨fun h => ⟨hvalid, h⟩, fun h => h.2⟩⟩
  · rw [if_neg hvalid, Option.bind_none]
    simp [hvalid]

include h in
/-- A case is read exactly if the redacted texts are within the bounds, -/
theorem exists_case_iff : (∃ case, readCase fingerprint spec (stagedRow revision split e) = some case) ↔
    Readable cs payloads c r asOf := by
  obtain ⟨conversation, sources, hconversation, hsupplied, -, -, hcase⟩ :=
    readCase_stagedRow h fingerprint spec revision split
  exact hcase.trans (readable_iff hconversation hsupplied).symm

include h in
/-- and whatever is read has the sources that were supplied. -/
theorem recovers_of_readCase {case : Case}
    (hread : readCase fingerprint spec (stagedRow revision split e) = some case) :
    Recovers cs c r case := by
  obtain ⟨conversation, sources, -, hsupplied, hplaces, hcorpus, -⟩ :=
    readCase_stagedRow h fingerprint spec revision split
  refine ⟨?_, ?_⟩
  · rw [hcorpus case hread, List.forall₂_map_right_iff]
    exact hsupplied.imp fun _ _ hsupplies => recoversSource_recovered spec hsupplies
  · rw [hcorpus case hread, List.length_map]
    exact hplaces

include h in
/-- **Wrapping round trip.** The case of a built row has the sources that were supplied, if and only
    if the redacted texts are within the bounds. -/
theorem wrapping_round_trip :
    (∃ case, readCase fingerprint spec (stagedRow revision split e) = some case ∧ Recovers cs c r case) ↔
      Readable cs payloads c r asOf := by
  constructor
  · rintro ⟨case, hread, -⟩
    exact (exists_case_iff h fingerprint spec revision split).1 ⟨case, hread⟩
  · intro hreadable
    obtain ⟨case, hread⟩ := (exists_case_iff h fingerprint spec revision split).2 hreadable
    exact ⟨case, hread, recovers_of_readCase h fingerprint spec revision split hread⟩

end Built

end RoundTrip

end HeldOut

/-! ## An address behind spaces -/

namespace LocalPersistenceRedactor

open Regex Python

variable {wide : Char → Bool}

theorem needs_bearer : (ProcessingRedactor.credentials wide).Needs fun x => ignoreCase x = 'b' := by
  have hb : (keyword "bearer").Needs fun x => ignoreCase x = 'b' :=
    (needs_one fun _ h => of_decide_eq_true h).seq_left _
  exact (hb.seq_left _).seq_right _

theorem needs_assignment : (ProcessingRedactor.secrets wide).Needs fun x => x = ':' ∨ x = '=' := by
  have hsign : (one fun c => c = ':' || c = '=').Needs fun x => x = ':' ∨ x = '=' :=
    needs_one fun _ h => by simpa using h
  exact (((hsign.seq_left _).seq_right _).seq_right _).seq_right _

theorem needs_dash : (ProcessingRedactor.apiKeys wide).Needs fun x => x = '-' := by
  have hdash : (literal (fun c x => x = c) "sk-".toList).Needs fun x => x = '-' :=
    (((needs_one fun _ h => of_decide_eq_true h).seq_left _).seq_right _).seq_right _
  exact (hdash.seq_left _).seq_right _

theorem needs_cardDigit : (ProcessingRedactor.cards wide).Needs fun x => x.isDigit = true := by
  have hdigit : (one Char.isDigit).Needs fun x => x.isDigit = true := needs_one fun _ h => h
  exact ((hdigit.seq_left _).seq_right _).seq_right _

theorem needs_phoneDigit : (phones wide).Needs fun x => x.isDigit = true := by
  have hdigit : (one Char.isDigit).Needs fun x => x.isDigit = true := needs_one fun _ h => h
  exact ((hdigit.seq_left _).seq_right _).seq_right _

/-- An address behind spaces. -/
theorem redactText_spaces {k : ℕ} (hk : 0 < k) :
    (redactText wide (List.replicate k ' ' ++ "d@e.co".toList)).1 = List.replicate k ' ' ++ redacted := by
  have hmem : ∀ x ∈ List.replicate k ' ' ++ "d@e.co".toList, x ∈ " d@e.co".toList := by
    intro x hx
    rcases List.mem_append.1 hx with hx | hx
    · rw [List.eq_of_mem_replicate hx]
      decide
    · exact List.mem_cons_of_mem _ hx
  have hneeds : ∀ {r : Regex} {q : Char → Prop} [DecidablePred q] (accept : List Char → Bool), r.Needs q →
      (" d@e.co".toList.all fun x => ¬q x) = true →
      r.subn accept redacted (List.replicate k ' ' ++ "d@e.co".toList) =
        (List.replicate k ' ' ++ "d@e.co".toList, 0) := fun accept hr hq =>
    subn_of_needs hr (fun x hx => of_decide_eq_true (List.all_eq_true.1 hq x (hmem x hx))) accept
  have hbefore : (ProcessingRedactor.redactText wide (List.replicate k ' ' ++ "d@e.co".toList)).1 =
      List.replicate k ' ' ++ "d@e.co".toList := by
    rw [ProcessingRedactor.redactText_fst, ProcessingRedactor.redactPatterns_eq]
    simp only [hneeds (fun _ => true) needs_bearer (by decide),
      hneeds (fun _ => true) needs_assignment (by decide),
      hneeds (fun _ => true) needs_dash (by decide), hneeds _ needs_cardDigit (by decide)]
  have hspace : ∀ b v, (emails wide).ends ⟨b, ' ' :: v⟩ = [] := by
    intro b v
    have hname : (isWord wide ' ' || ' ' = '.' || ' ' = '+' || ' ' = '-') = false := rfl
    have hstart : (plus (one fun c => isWord wide c || c = '.' || c = '+' || c = '-')).ends ⟨b, ' ' ::
        v⟩ = [] := by
      simp only [plus, ends, times, hname, Bool.false_eq_true, if_false, List.flatMap_nil]
    rw [emails, ends, List.flatMap_eq_nil_iff]
    intro d hd
    obtain rfl : d = ⟨b, ' ' :: v⟩ := by
      rw [ends] at hd
      split at hd
      · cases hd
      · exact List.mem_singleton.1 hd
    rw [ends, hstart, List.flatMap_nil]
  have hmails : ((emails wide).subn (fun _ => true) redacted (List.replicate k ' ' ++ "d@e.co".toList)).1 =
      List.replicate k ' ' ++ redacted := by
    refine subn_replicate needs_emails.takesSome hspace (by decide) redacted ?_
    rw [if_neg (by omega)]
    rfl
  have hphones : ∀ x ∈ List.replicate k ' ' ++ redacted, ¬x.isDigit = true := by
    intro x hx
    rcases List.mem_append.1 hx with hx | hx
    · rw [List.eq_of_mem_replicate hx]
      decide
    · have hall : (redacted.all fun x => ¬x.isDigit = true) = true := by decide
      exact of_decide_eq_true (List.all_eq_true.1 hall x hx)
  rw [redactText_eq]
  simp only [hbefore, hmails, subn_of_needs needs_phoneDigit hphones]

end LocalPersistenceRedactor

namespace HeldOut

open Datasets
open Rag (Chunk ChunkEvidence)

/-! ## Two contents

The first content looks like a prefix and a suffix itself, and it is recovered. The second is within
the limit before it is redacted and beyond it afterwards, as an address of six characters becomes a
label of ten, and it is not. -/

namespace Samples

open Stored (Interaction StorageCall Store)

/-- No character beyond ASCII is in `\w`. -/
def wide : Char → Bool := fun _ => false

/-- One source, of which the evidence has the content for its digest. -/
def chunk (content : String) : Chunk :=
  { tenantId := "acme", allowedApplications := ["desk"], indexId := "help", documentId := "guide",
    documentVersion := "2024-01", documentFamily := "guides", chunkId := "c1", content,
    licenceClass := .synthetic, indexVersion := "v1" }

/-- The record of a chunk of the content. -/
def evidence (content : String) : ChunkEvidence :=
  { documentId := "guide", documentVersion := "2024-01", chunkId := "c1", rankRetrieved := 1,
    retrievalScore := 1, suppliedToModel := true, contextPosition := some 0, tokenCount := 1,
    contentHash := content, licenceClass := .synthetic }

/-- The retrieval that returned it. -/
def run (content : String) : Rag.RetrievalRun :=
  { interactionId := "i1", indexId := "help", indexVersion := "v1", filters := [], queryHash := "query",
    candidates := [evidence content] }

/-- The attempt that answered. -/
def attempt : StoredAttempt :=
  { interactionId := "i1", attemptNumber := 1, shadow := false, modelProvider := "fake", modelId := "m",
    modelVersion := "1", deploymentId := "d", adapterId := none, requestParameters := none,
      totalLatencyMs := 1,
    priceListVersion := none, finishReason := .stop, validation := some ⟨true, []⟩, fallbackReason := none,
    outputRef := some "out", outputHash := some "output:Open the settings." }

/-- What is stored of the interaction beside it. -/
def records (content : String) : Records :=
  { retrieval := some (some (run content)), feedback := [], attempt := some attempt, residency := "local" }

/-- The text of the conversation. -/
def asked : String := "[\x7b\"role\": \"user\", \"content\": \"How?\"\x7d]"

/-- The interaction, completed. -/
def interaction : Interaction :=
  { Datasets.Samples.interaction with
    input := { others := [("content_hash", .str ("input:" ++ asked))] }
    others := [("environment", .str "local"), ("status", .str "completed"), ("final_attempt_id", .str "a1"),
      ("retrieval_run_id", .str "r1"), ("task", .obj [("label", .str "support"),
        ("language", .str "en"), ("risk_tier", .str "low")])] }

/-- The store with it. -/
def store : Store := ({} : Store).after
  [.save (Stored.SupportStore.services 0) { Stored.SupportStore.graph with interaction } none
    { messagesJson := some "messages", query := some "query" } "print" 0]

/-- What the store has of it. -/
def stored : Interaction := { interaction with input := { interaction.input with messagesRef := some "0" } }

/-- A policy that allows its use. -/
def policy : CurrentPolicy :=
  { policyVersion := "v1", processingAllowed := true, trainingAllowed := true, evaluationAllowed := true }

/-- The interaction as the build reads it. -/
def candidate : Example := ⟨stored, policy⟩

/-- A dataset for evaluation. -/
def specification : BuildSpecification := { Datasets.Samples.specification with purpose := .evaluation }

theorem inWindow_store : Datasets.inWindow store "acme" specification.sourceWindow = .ok [stored] := by
  unfold Datasets.inWindow
  obtain ⟨row, hrow, hparse⟩ : ∃ row, (store.records.filter fun row =>
      row.kind = .interactions && row.tenantId = "acme" && row.startedAt.any fun time =>
        specification.sourceWindow.startAt ≤ time && time < specification.sourceWindow.endAt) = [row] ∧
      Interaction.ofJson row.data = some stored := ⟨_, rfl, rfl⟩
  rw [hrow, List.mergeSort_singleton]
  simp [Stored.Store.parseAll, hparse]

/-- The candidate is eligible. -/
theorem select_store (content : String) :
    select (selectOver (fun _ => policy) fun _ _ => records content) store
    specification 5 = .ok { examples := [candidate], considered := 1 } := by
  have htenant : considerTenant (selectOver (fun _ => policy) fun _ _ => records content)
    store specification 5 {}
      "acme" = .ok { examples := [candidate], considered := 1 } := by
    unfold considerTenant
    rw [inWindow_store]
    rfl
  have htenants : specification.sortedTenants = ["acme"] := Datasets.Samples.sortedTenants_eq
  unfold select
  rw [htenants]
  simp only [List.foldlM_cons, htenant, Except.ok_bind, List.foldlM_nil]
  simp

/-- The cipher of the sample datasets. -/
def cipher : Crypto.PayloadCipher := (Distilled.services none).cipher

/-- A payload of the candidate. -/
def payload (field text : String) : Crypto.EncryptedPayload where
  field := field
  nonce := []
  ciphertext := Bytes.encodeText (text.toList ++ ("acme|i1|" ++ field).toList)
  keyVersion := "local-1"

/-- The two payloads, opened. -/
def payloads : PayloadReader := fun _ ref _ =>
  if ref = "0" then some (payload "messages" asked)
  else if ref = "out" then some (payload "output" "Open the settings.")
  else none

/-- The redactor of the policy. -/
def redactor : PersistenceRedactor where
  version := "persistence-regex-local-1"
  redactText _ text := some (String.ofList (LocalPersistenceRedactor.redactText wide text.toList).1)

/-- A constructor whose resolver returns the content. -/
def constructor_ (content : String) : Constructor wide where
  cipher := cipher
  json := { floats := Distilled.floats, otherText := fun _ => none, otherBytes := fun _ => none }
  contentHash purpose text := purpose ++ ":" ++ text
  datasetHash := id
  dumpPair _ target := target
  redactor := redactor
  sources := localSourceResolver wide id (some [chunk content])

theorem conversation_eq (content : String) : (constructor_ content).conversation payloads candidate 5 =
    .ok [⟨.user, "How?"⟩] := by
  have hsame : (constructor_ content).conversation payloads candidate 5 =
      (constructor_ "").conversation payloads candidate 5 := rfl
  have hread : (constructor_ "").conversation payloads candidate 5 = .ok [⟨.user, "How?"⟩] := by
    decide +kernel
  rw [hsame, hread]

theorem targetOf_eq (content : String) :
    (constructor_ content).targetOf payloads candidate (records content) 5
    [.productionOutput] = .ok ⟨"Open the settings.", .productionOutput, none⟩ := by
  have hsame : (constructor_ content).targetOf payloads candidate (records content) 5 [.productionOutput] =
      (constructor_ "").targetOf payloads candidate (records "") 5 [.productionOutput] := by
    unfold Constructor.targetOf Constructor.preferred
    rfl
  rw [hsame]
  decide +kernel

theorem contextOf_run (content : String) : contextOf (run content) = [evidence content] :=
  List.mergeSort_singleton ..

theorem resolve_chunk {content : String} (h : content.length ≤ contentLimit) :
    LocalSourceResolver.resolve wide id (some [chunk content]) stored (run content)
      (evidence content) "local" = some (chunk content) := by
  have hvalid : (chunk content).valid wide = true := by
    have hrest : (chunk "").valid wide = true := by decide +kernel
    simp only [Rag.Chunk.valid, chunk, Bool.and_eq_true] at hrest ⊢
    exact ⟨hrest.1, decide_eq_true h⟩
  have hmatch : LocalSourceResolver.isMatch stored (run content) (evidence content)
      "local" (chunk content) = true := by
    have hsame : LocalSourceResolver.isMatch stored (run content) (evidence content)
      "local" (chunk content) =
        LocalSourceResolver.isMatch stored (run "") (evidence "") "local" (chunk "") := rfl
    rw [hsame]
    decide +kernel
  have hdigest : (chunk content).content = (evidence content).contentHash := rfl
  simp [LocalSourceResolver.resolve, hvalid, hmatch, hdigest]

theorem suppliedSources_eq {content out : String} (h : content.length ≤ contentLimit)
    (hout : redactor.redactText policy content = some out) :
    (constructor_ content).suppliedSources candidate (records content) =
      .ok [⟨run content, evidence content, chunk content, out⟩] := by
  have hsource : (constructor_ content).source candidate (records content) (run content)
    (evidence content) =
      .ok ⟨run content, evidence content, chunk content, out⟩ := by
    have hboundary : ((chunk content).documentVersion.toList.any
        fun x => x ∈ ['<', '>', '\r', '\n', '\x00']) = false := by
      simp only [chunk]
      decide
    simp only [Constructor.source, constructor_, localSourceResolver, candidate,
      records, resolve_chunk h, hboundary, Bool.false_eq_true, if_false, Constructor.redact]
    simp only [chunk, hout, Except.ok_bind]
  simp only [Constructor.suppliedSources, records, Records.run, Option.bind_some,
    id, contextOf_run] at hsource ⊢
  simp only [evidence, List.map_cons, List.map_nil, List.length_singleton] at hsource ⊢
  simp [hsource]

theorem redactor_target : redactor.redactText policy "Open the settings." = some "Open the settings." := by
  decide +kernel

/-- The constructor makes an example of the candidate. -/
theorem build_candidate {content out : String} (h : content.length ≤ contentLimit)
    (hout : redactor.redactText policy content = some out) :
    ∃ e, (constructor_ content).build payloads candidate (records content) 5 [.productionOutput] =
        .ok e := by
  have htarget : (constructor_ content).redact candidate "Open the settings." =
      .ok "Open the settings." := by
    simp only [Constructor.redact, constructor_, candidate, redactor_target]
  have htask : Constructor.taskOf candidate.interaction = .ok ⟨"support", "en", "low"⟩ := rfl
  have hblank : Python.isBlank "Open the settings." = false := by decide
  simp only [Constructor.build, Constructor.contents, conversation_eq, suppliedSources_eq h hout,
    targetOf_eq, Except.ok_bind, htarget, hblank, htask]
  exact ⟨_, rfl⟩

/-- The bound for the candidate is on its content. -/
theorem readable_iff_length {content out : String} (h : content.length ≤ contentLimit)
    (hout : redactor.redactText policy content = some out) :
    Readable (constructor_ content) payloads candidate (records content) 5 ↔ out.length ≤ contentLimit := by
  have hvalid : ∀ m ∈ [(⟨.user, "How?"⟩ : Message)], m.valid = true := by decide
  have hbounded : boundedMessages [⟨.user, "How?"⟩] = true := by decide
  rw [readable_iff (conversation_eq content) (Constructor.suppliedSources_eq_ok
    (suppliedSources_eq h hout)).1]
  simp only [List.forall_mem_singleton, hbounded, and_true]
  exact ⟨fun h => h.2, fun h => ⟨hvalid _ (List.mem_singleton_self _), h⟩⟩

/-- The specification of the suite. -/
def evaluation : Specification wide where
  applicationId := "evaluation"
  criticalSegments := []
  application := by decide

/-- A content that looks like the markers and ends with a bracket. -/
def imitation : String := "<<source guide/c1 2024-01>>Open<</source>>>"

theorem redactText_imitation : redactor.redactText policy imitation = some imitation := by decide +kernel

theorem imitation_recovered : ∃ e,
    (constructor_ imitation).build payloads candidate (records imitation) 5 [.productionOutput] = .ok e ∧
    ∃ case, readCase id evaluation (stagedRow "r1" .test e) = some case ∧
      Recovers (constructor_ imitation) candidate (records imitation) case := by
  have hlength : imitation.length ≤ contentLimit := by decide
  obtain ⟨e, he⟩ := build_candidate hlength redactText_imitation
  exact ⟨e, he, (wrapping_round_trip he id evaluation "r1" .test).2
    ((readable_iff_length hlength redactText_imitation).2 hlength)⟩

/-- An address behind spaces. -/
def spaced (k : ℕ) : String := String.ofList (List.replicate k ' ' ++ "d@e.co".toList)

/-- The redacted text behind `k` spaces. -/
def spacedRedacted (k : ℕ) : String := String.ofList (List.replicate k ' ' ++ redacted)

theorem length_spaced (k : ℕ) : (spaced k).length = k + 6 := by
  rw [spaced, String.length_ofList, List.length_append, List.length_replicate]
  rfl

theorem length_spacedRedacted (k : ℕ) : (spacedRedacted k).length = k + 10 := by
  rw [spacedRedacted, String.length_ofList, List.length_append, List.length_replicate]
  rfl

theorem redactText_spaced {k : ℕ} (hk : 0 < k) : redactor.redactText policy (spaced k) =
    some (spacedRedacted k) := by
  simp only [redactor, spaced, String.toList_ofList, LocalPersistenceRedactor.redactText_spaces hk,
    spacedRedacted]

/-- The eligible example whose content is near the bound becomes a row, and no case. -/
theorem spaced_not_recovered :
    select (selectOver (fun _ => policy) fun _ _ => records (spaced 31991)) store specification 5 =
      .ok { examples := [candidate], considered := 1 } ∧
    (spaced 31991).length ≤ contentLimit ∧
    ∃ e, (constructor_ (spaced 31991)).build payloads candidate (records (spaced 31991))
      5 [.productionOutput] = .ok e ∧ ¬∃ case, readCase id evaluation (stagedRow "r1" .test e) = some case ∧
        Recovers (constructor_ (spaced 31991)) candidate (records (spaced 31991)) case := by
  have hlength : (spaced 31991).length ≤ contentLimit := by
    rw [length_spaced]
    decide
  have hredacted := redactText_spaced (k := 31991) (by decide)
  obtain ⟨e, he⟩ := build_candidate hlength hredacted
  refine ⟨select_store _, hlength, e, he, ?_⟩
  rintro ⟨case, hread, -⟩
  have hreadable := (exists_case_iff he id evaluation "r1" .test).1 ⟨case, hread⟩
  have hlong := (readable_iff_length hlength hredacted).1 hreadable
  rw [length_spacedRedacted] at hlong
  exact absurd hlong (by decide)

end Samples

end HeldOut

end AdaptiveLlm
