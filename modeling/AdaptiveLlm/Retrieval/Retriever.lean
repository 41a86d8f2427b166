import AdaptiveLlm.Lib.Except
import AdaptiveLlm.Python.Text
import Mathlib.Algebra.GroupWithZero.Nat
import Mathlib.Algebra.Order.Ring.Unbundled.Rat
import Mathlib.Data.Finset.Card
import Mathlib.Data.List.Sort
import Mathlib.Data.Prod.Lex
import Mathlib.Data.String.Basic

set_option autoImplicit false

/-! # Retrieval

`LocalRetriever` (`rag/__init__.py`) ranks the chunks that a caller may see by the share of the query's
words they have, and supplies the best of them to the model as far as its limits and the context budget
go. The chunks it leaves out stay among the evidence.

The same query has the same denominator for every score, so scores are kept as rationals.

Isolation is a statement about two corpora, not about one: nothing that a caller may not see can
change what it gets. The proof is that every step of the retrieval works on the visible chunks,
whose order in the corpus is the same in both. Only the version of an index is computed from more
than these, namely from all chunks with the same key, and there the statement asks for more. -/

namespace AdaptiveLlm

namespace Rag

/-- The environments of the platform. -/
inductive Environment where
  | local
  | development
  | staging
  | production
  deriving DecidableEq

/-- The classes of licence of a chunk. -/
inductive LicenceClass where
  | synthetic
  | internalApproved
  | unknown
  deriving DecidableEq

/-- `IndexedChunk`. -/
structure Chunk where
  tenantId : String
  environment : Environment := .local
  region : String := "local"
  allowedApplications : List String
  indexId : String
  documentId : String
  documentVersion : String
  documentFamily : String
  chunkId : String
  content : String
  licenceClass : LicenceClass := .unknown
  indexVersion : String
  deriving DecidableEq

/-- What retrieval reads of an identity. -/
structure Identity where
  tenantId : String
  applicationIds : List String
  environment : Environment

/-- The options of a request that retrieval reads. -/
structure RagOptions where
  enabled : Bool := false
  indexId : Option String := none

/-- `ChunkEvidence`: what is recorded of a chunk that was considered. -/
structure ChunkEvidence where
  documentId : String
  documentVersion : String
  chunkId : String
  rankRetrieved : ℕ
  retrievalScore : ℚ
  rerankScore : Option ℚ := none
  suppliedToModel : Bool
  contextPosition : Option ℕ
  tokenCount : ℕ
  contentHash : String
  contentRef : Option String := none
  licenceClass : LicenceClass
  deriving DecidableEq

/-- `RetrievalRun`: the record of a retrieval. -/
structure RetrievalRun where
  interactionId : String
  indexId : String
  indexVersion : String
  filters : List (String × String)
  queryHash : String
  candidates : List ChunkEvidence

/-- The record and the chunks that go to the model. -/
structure RetrievalResult where
  run : RetrievalRun
  suppliedChunks : List Chunk

/-- How a retrieval can fail. -/
inductive RetrievalError where
  | invalidRetrievalLimits
  | mixedIndexVersions
  | retrievalNotEnabled
  deriving DecidableEq

/-! ## Words -/

/-- `re.findall` of a class, one or more times. -/
def findall (isOf : Char → Bool) (text : List Char) : List (List Char) :=
  (text.splitOnP fun c => !isOf c).filter (· ≠ [])

/-- The number of words between whitespace. -/
def tokenCount (text : String) : ℕ := (findall (fun c => !Python.isSpace c) text.toList).length

/-- The tables of `str.lower` and of the word characters beyond ASCII, and the digests. -/
structure TextServices where
  lower : String → String
  wide : Char → Bool
  /-- `sha256(content).hexdigest()` -/
  contentDigest : String → String
  /-- `content_hash` with the purpose `query` -/
  queryHash : String → String

namespace TextServices

variable (sv : TextServices)

/-- The words of a text in lower case. -/
def terms (text : String) : Finset (List Char) :=
  (findall (Python.isWord sv.wide) (sv.lower text).toList).toFinset

/-- `_score`. -/
def score (queryTerms : Finset (List Char)) (content : String) : ℚ :=
  ((queryTerms ∩ sv.terms content).card : ℚ) / (max queryTerms.card 1 : ℕ)

end TextServices

/-! ## The retriever

A query sees the chunks of its tenant, application, environment, region and index, and no others
enter the ranking. Candidates are supplied best first as far as their number and the remaining
tokens allow, and the record has each of them, supplied or not. -/

/-- What a version is of. -/
abbrev IndexKey : Type := String × Environment × String × String

/-- The index that a chunk belongs to. -/
def Chunk.indexKey (c : Chunk) : IndexKey := (c.tenantId, c.environment, c.region, c.indexId)

/-- `Retriever`: the chunks, and the version of each index. -/
structure Retriever where
  chunks : List Chunk
  versions : List (IndexKey × String)
  candidateLimit : ℕ
  suppliedLimit : ℕ
  contextTokenBudget : ℕ

/-- `setdefault` of a chunk's version. -/
def addVersion (versions : List (IndexKey × String)) (c : Chunk) :
    Except RetrievalError (List (IndexKey × String)) :=
  match versions.lookup c.indexKey with
  | none => .ok (versions ++ [(c.indexKey, c.indexVersion)])
  | some version => if version ≠ c.indexVersion then .error .mixedIndexVersions else .ok versions

/-- `_initialize`. -/
def Retriever.initializeWith (chunks : List Chunk) (candidateLimit suppliedLimit contextTokenBudget : ℕ) :
    Except RetrievalError Retriever := do
  let versions ← chunks.foldlM addVersion []
  .ok { chunks, versions, candidateLimit, suppliedLimit, contextTokenBudget }

/-- `__init__`, of the chunks in the file. -/
def Retriever.make (chunks : List Chunk) (candidateLimit suppliedLimit contextTokenBudget : ℕ) :
    Except RetrievalError Retriever :=
  if min (min candidateLimit suppliedLimit) contextTokenBudget < 1 then .error .invalidRetrievalLimits
  else initializeWith chunks candidateLimit suppliedLimit contextTokenBudget

/-- The access constraints. -/
def visible (identity : Identity) (applicationId : String) (options : RagOptions) (residency : String)
    (c : Chunk) : Bool :=
  applicationId ∈ identity.applicationIds && c.tenantId = identity.tenantId &&
    c.environment = identity.environment && c.region = residency &&
    applicationId ∈ c.allowedApplications && some c.indexId = options.indexId

/-- The order of the candidates: `(-score, document_id, chunk_id)`. -/
def rankKey (pair : ℚ × Chunk) : ℚ ×ₗ String ×ₗ String :=
  toLex (-pair.1, toLex (pair.2.documentId, pair.2.chunkId))

/-- The variables of the loop over the candidates. -/
structure Supply where
  supplied : List Chunk := []
  evidence : List ChunkEvidence := []
  remaining : ℕ

namespace Retriever

variable (r : Retriever) (sv : TextServices)

/-- One candidate. -/
def supply (x : Supply) (candidate : (ℚ × Chunk) × ℕ) : Supply :=
  let ((score, chunk), rank) := candidate
  let count := tokenCount chunk.content
  let includes : Bool := x.supplied.length < r.suppliedLimit && count ≤ x.remaining
  let supplied := if includes then x.supplied ++ [chunk] else x.supplied
  { supplied
    remaining := if includes then x.remaining - count else x.remaining
    evidence := x.evidence ++ [{
      documentId := chunk.documentId
      documentVersion := chunk.documentVersion
      chunkId := chunk.chunkId
      rankRetrieved := rank
      retrievalScore := score
      suppliedToModel := includes
      contextPosition := if includes then some (supplied.length - 1) else none
      tokenCount := count
      contentHash := sv.contentDigest chunk.content
      licenceClass := chunk.licenceClass }] }

/-- The candidates among some chunks, best first. -/
def ranked (terms : Finset (List Char)) (eligible : List Chunk) : List (ℚ × Chunk) :=
  let scored : List (ℚ × Chunk) := eligible.map fun c => (sv.score terms c.content, c)
  ((scored.filter fun pair => pair.1 > 0).insertionSort fun a b => rankKey a ≤ rankKey b).take
    r.candidateLimit

/-- The whole loop. -/
def supplyAll (ranked : List (ℚ × Chunk)) : Supply :=
  (ranked.zipIdx 1).foldl (r.supply sv) { remaining := r.contextTokenBudget }

/-- The environment as a record writes it. -/
def environmentName : Environment → String
  | .local => "local"
  | .development => "development"
  | .staging => "staging"
  | .production => "production"

/-- `retrieve`, without the run's id and latency. -/
def retrieve (query : String) (identity : Identity) (applicationId : String) (options : RagOptions)
    (interactionId residency : String) : Except RetrievalError RetrievalResult :=
  match options.enabled, options.indexId with
  | true, some indexId =>
    let eligible := r.chunks.filter (visible identity applicationId options residency)
    let x := r.supplyAll sv (r.ranked sv (sv.terms query) eligible)
    .ok {
      run := {
        interactionId
        indexId
        indexVersion :=
          (r.versions.lookup (identity.tenantId, identity.environment, residency,
            indexId)).getD "unavailable"
        filters := [("tenant_id", identity.tenantId),
          ("environment", environmentName identity.environment), ("region", residency),
          ("application_id", applicationId), ("index_id", indexId)]
        queryHash := sv.queryHash query
        candidates := x.evidence }
      suppliedChunks := x.supplied }
  | _, _ => .error .retrievalNotEnabled

end Retriever

/-! ## Versions -/

/-- The version of a key is that of its first chunk. -/
theorem lookup_foldlM {chunks : List Chunk} {versions versions' : List (IndexKey × String)}
    (h : chunks.foldlM addVersion versions = .ok versions') (key : IndexKey) :
    versions'.lookup key = (versions.lookup key).or
      ((chunks.filter fun c => c.indexKey = key).head?.map (·.indexVersion)) := by
  induction chunks generalizing versions with
  | nil =>
    cases h
    simp
  | cons c chunks ih =>
    obtain ⟨versions₁, hstep, h⟩ := Except.bind_eq_ok.1 h
    rw [ih h]
    unfold addVersion at hstep
    split at hstep
    · rename_i hnone
      cases hstep
      rw [List.lookup_append, List.lookup_cons, List.lookup_nil]
      by_cases hkey : c.indexKey = key
      · subst hkey
        simp [hnone]
      · simp [hkey, beq_eq_false_iff_ne.2 (Ne.symm hkey)]
    · rename_i version hsome
      split at hstep
      · cases hstep
      · cases hstep
        by_cases hkey : c.indexKey = key
        · subst hkey
          simp [hsome]
        · simp [hkey]

theorem Retriever.versions_of_initializeWith {chunks : List Chunk} {candidates supplied budget : ℕ}
    {r : Retriever} (h : Retriever.initializeWith chunks candidates supplied budget = .ok r) :
    r.chunks = chunks ∧ r.candidateLimit = candidates ∧ r.suppliedLimit = supplied ∧
      r.contextTokenBudget = budget ∧ ∀ key, r.versions.lookup key =
        (chunks.filter fun c => c.indexKey = key).head?.map (·.indexVersion) := by
  obtain ⟨versions, hversions, h⟩ := Except.bind_eq_ok.1 h
  cases h
  refine ⟨rfl, rfl, rfl, rfl, fun key => ?_⟩
  rw [lookup_foldlM hversions key]
  rfl

/-! ## The supplied chunks

The loop supplies a chunk if the limit and the budget allow it, and goes on with the next one if
not. What has been supplied so far is within both. -/

/-- What holds after `n` candidates. -/
structure SupplyInv (r : Retriever) (n : ℕ) (x : Supply) : Prop where
  limit : x.supplied.length ≤ r.suppliedLimit
  budget : (x.supplied.map fun c => tokenCount c.content).sum + x.remaining = r.contextTokenBudget
  positions : (x.evidence.filter (·.suppliedToModel)).map (·.contextPosition) =
    (List.range x.supplied.length).map some
  described : (x.evidence.filter (·.suppliedToModel)).map (fun e => (e.documentId, e.chunkId)) =
    x.supplied.map fun c => (c.documentId, c.chunkId)
  ranks : x.evidence.map (·.rankRetrieved) = List.range' 1 n

variable {r : Retriever} {sv : TextServices} {x : Supply} {n : ℕ}

/-- **Step lemma.** -/
theorem SupplyInv.supply (h : SupplyInv r n x) (pair : ℚ × Chunk) :
    SupplyInv r (n + 1) (r.supply sv x (pair, n + 1)) := by
  have hranks : x.evidence.map (·.rankRetrieved) ++ [n + 1] = List.range' 1 (n + 1) := by
    rw [h.ranks, List.range'_1_concat, Nat.add_comm]
  have hranks' : (r.supply sv x (pair, n + 1)).evidence.map (·.rankRetrieved) =
      List.range' 1 (n + 1) := by
    rw [← hranks]
    simp [Retriever.supply]
  by_cases hincludes : x.supplied.length < r.suppliedLimit ∧ tokenCount pair.2.content ≤ x.remaining
  · obtain ⟨hroom, hcount⟩ := hincludes
    refine ⟨?_, ?_, ?_, ?_, hranks'⟩
    · have hlength : (r.supply sv x (pair, n + 1)).supplied.length = x.supplied.length + 1 := by
        simp [Retriever.supply, hroom, hcount]
      rw [hlength]
      exact hroom
    · have hsum : ((r.supply sv x (pair, n + 1)).supplied.map fun c => tokenCount c.content).sum =
          (x.supplied.map fun c => tokenCount c.content).sum + tokenCount pair.2.content := by
        simp [Retriever.supply, hroom, hcount]
      have hremaining : (r.supply sv x (pair, n + 1)).remaining =
          x.remaining - tokenCount pair.2.content := by
        simp [Retriever.supply, hroom, hcount]
      rw [hsum, hremaining, ← h.budget]
      omega
    · simp [Retriever.supply, hroom, hcount, List.range_succ, h.positions]
    · simp [Retriever.supply, hroom, hcount, h.described]
  · have hnot : (decide (x.supplied.length < r.suppliedLimit) &&
        decide (tokenCount pair.2.content ≤ x.remaining)) = false := by
      simpa using hincludes
    refine ⟨?_, ?_, ?_, ?_, hranks'⟩
    · simpa [Retriever.supply, hnot] using h.limit
    · simpa [Retriever.supply, hnot] using h.budget
    · simpa [Retriever.supply, hnot] using h.positions
    · simpa [Retriever.supply, hnot] using h.described

/-- **Loop lemma.** -/
theorem SupplyInv.foldl (h : SupplyInv r n x) (pairs : List (ℚ × Chunk)) :
    SupplyInv r (n + pairs.length) ((pairs.zipIdx (n + 1)).foldl (r.supply sv) x) := by
  induction pairs generalizing n x with
  | nil => exact h
  | cons pair pairs ih =>
    rw [List.length_cons, Nat.add_comm pairs.length 1, ← Nat.add_assoc]
    exact ih (h.supply pair)

theorem mem_supply {pair : ℚ × Chunk} {k : ℕ} {c : Chunk} (hc : c ∈ (r.supply sv x (pair, k)).supplied) :
    c ∈ x.supplied ∨ c = pair.2 := by
  unfold Retriever.supply at hc
  dsimp only at hc
  split at hc
  · simpa using hc
  · exact .inl hc

theorem mem_foldl_supply {pairs : List (ℚ × Chunk)} {k : ℕ} {c : Chunk}
    (hc : c ∈ ((pairs.zipIdx k).foldl (r.supply sv) x).supplied) :
    c ∈ x.supplied ∨ c ∈ pairs.map Prod.snd := by
  induction pairs generalizing k x with
  | nil => exact .inl hc
  | cons pair pairs ih =>
    rw [List.map_cons, List.mem_cons]
    rcases ih hc with hc | hc
    · exact (mem_supply hc).imp_right .inl
    · exact .inr (.inr hc)

/-- Candidates are eligible. -/
theorem mem_ranked {terms : Finset (List Char)} {eligible : List Chunk} {c : Chunk}
    (hc : c ∈ (r.ranked sv terms eligible).map Prod.snd) : c ∈ eligible := by
  obtain ⟨pair, hpair, rfl⟩ := List.mem_map.1 hc
  have hscored := List.mem_of_mem_filter ((List.mem_insertionSort _).1 (List.mem_of_mem_take hpair))
  obtain ⟨c, hmem, rfl⟩ := List.mem_map.1 hscored
  exact hmem

/-! ## Isolation

The visible chunks of two corpora being the same, so are their scores, their ranking and what is
supplied. The answer is computed from these alone. -/

/-- The chunks of the caller's tenant, environment, residency and index, whichever applications they
    are for. -/
def ofCaller (identity : Identity) (options : RagOptions) (residency : String) (c : Chunk) : Bool :=
  c.tenantId = identity.tenantId && c.environment = identity.environment && c.region = residency &&
    some c.indexId = options.indexId

theorem indexKey_eq_iff {identity : Identity} {options : RagOptions} {residency indexId : String}
    (h : options.indexId = some indexId) (c : Chunk) :
    decide (c.indexKey = (identity.tenantId, identity.environment, residency, indexId)) =
      ofCaller identity options residency c := by
  simp [ofCaller, Chunk.indexKey, h, Bool.and_assoc]

section Isolation

variable {query : String} {identity : Identity} {applicationId : String} {options : RagOptions}
  {interactionId residency : String}

/-- What the caller is given, but for the index's version. -/
def answer (result : RetrievalResult) : List Chunk × List ChunkEvidence :=
  (result.suppliedChunks, result.run.candidates)

/-- Retrieval depends on the visible chunks alone, -/
theorem Retriever.retrieve_answer {r' : Retriever} (hlimits : r.candidateLimit = r'.candidateLimit ∧
      r.suppliedLimit = r'.suppliedLimit ∧ r.contextTokenBudget = r'.contextTokenBudget)
    (hvisible : r.chunks.filter (visible identity applicationId options residency) =
      r'.chunks.filter (visible identity applicationId options residency)) :
    (r.retrieve sv query identity applicationId options interactionId residency).map answer =
      (r'.retrieve sv query identity applicationId options interactionId residency).map answer := by
  obtain ⟨hcandidates, hsupplied, hbudget⟩ := hlimits
  have hstep : r.supply sv = r'.supply sv := by
    funext x candidate
    simp only [Retriever.supply, hsupplied]
  unfold Retriever.retrieve
  rw [hvisible]
  split
  · simp only [Except.map, answer, Retriever.supplyAll, Retriever.ranked, hstep, hcandidates, hbudget]
  · rfl

/-- and the version on the caller's. -/
theorem Retriever.retrieve_version {r' : Retriever}
    (hversions : ∀ key, r.versions.lookup key = (r.chunks.filter fun c => c.indexKey = key).head?.map
      (·.indexVersion))
    (hversions' : ∀ key, r'.versions.lookup key = (r'.chunks.filter fun c => c.indexKey = key).head?.map
      (·.indexVersion))
    (hcaller : r.chunks.filter (ofCaller identity options residency) =
      r'.chunks.filter (ofCaller identity options residency)) :
    (r.retrieve sv query identity applicationId options interactionId residency).map
        (·.run.indexVersion) =
      (r'.retrieve sv query identity applicationId options interactionId residency).map
        (·.run.indexVersion) := by
  unfold Retriever.retrieve
  split
  · rename_i indexId henabled hindex
    have hfilter : ∀ chunks : List Chunk, (chunks.filter fun c =>
        c.indexKey = (identity.tenantId, identity.environment, residency, indexId)) =
        chunks.filter (ofCaller identity options residency) :=
      fun chunks => List.filter_congr fun c _ => indexKey_eq_iff hindex c
    simp only [Except.map, hversions, hversions', hfilter, hcaller]
  · rfl

theorem supplyAll_inv (r : Retriever) (sv : TextServices) (pairs : List (ℚ × Chunk)) :
    SupplyInv r pairs.length (r.supplyAll sv pairs) := by
  have hstart : SupplyInv r 0 { remaining := r.contextTokenBudget } :=
    ⟨Nat.zero_le _, Nat.zero_add _, rfl, rfl, rfl⟩
  have hloop : SupplyInv r (0 + pairs.length) (r.supplyAll sv pairs) := hstart.foldl pairs
  rwa [Nat.zero_add] at hloop

/-- A result is made of visible candidates. -/
theorem Retriever.retrieve_eq_ok {result : RetrievalResult}
    (h : r.retrieve sv query identity applicationId options interactionId residency = .ok result) :
    ∃ pairs, (∀ c ∈ pairs.map Prod.snd, c ∈ r.chunks ∧ visible identity applicationId options residency c) ∧
      result.suppliedChunks = (r.supplyAll sv pairs).supplied ∧
      result.run.candidates = (r.supplyAll sv pairs).evidence := by
  unfold Retriever.retrieve at h
  split at h
  · cases h
    exact ⟨_, fun c hc => List.mem_filter.1 (mem_ranked hc), rfl, rfl⟩
  · cases h

end Isolation

/-- **Retrieval isolation.** Two corpora with the same chunks visible to a caller give it the same chunks
    and evidence, and with the same chunks of its tenant, environment, residency and index also the same
    version. What is supplied is visible, within the limit and the context budget; its positions count
    up from 0 in the order of the ranks, and the evidence with a position names the chunk there. -/
theorem retrieval_isolated {chunks : List Chunk} {candidateLimit suppliedLimit contextTokenBudget : ℕ}
    {r : Retriever}
    (h : Retriever.initializeWith chunks candidateLimit suppliedLimit contextTokenBudget = .ok r)
    (sv : TextServices) (query : String) (identity : Identity) (applicationId : String)
    (options : RagOptions) (interactionId residency : String) :
    (∀ chunks' r', Retriever.initializeWith chunks' candidateLimit suppliedLimit contextTokenBudget =
        .ok r' →
      chunks.filter (visible identity applicationId options residency) =
        chunks'.filter (visible identity applicationId options residency) →
      (r.retrieve sv query identity applicationId options interactionId residency).map answer =
        (r'.retrieve sv query identity applicationId options interactionId residency).map answer ∧
      (chunks.filter (ofCaller identity options residency) =
          chunks'.filter (ofCaller identity options residency) →
        (r.retrieve sv query identity applicationId options interactionId residency).map
            (·.run.indexVersion) =
          (r'.retrieve sv query identity applicationId options interactionId residency).map
            (·.run.indexVersion))) ∧
    ∀ result, r.retrieve sv query identity applicationId options interactionId residency = .ok result →
      (∀ c ∈ result.suppliedChunks, c ∈ chunks ∧ visible identity applicationId options residency c) ∧
      result.suppliedChunks.length ≤ suppliedLimit ∧
      (result.suppliedChunks.map fun c => tokenCount c.content).sum ≤ contextTokenBudget ∧
      result.run.candidates.map (·.rankRetrieved) = List.range' 1 result.run.candidates.length ∧
      (result.run.candidates.filter (·.suppliedToModel)).map (·.contextPosition) =
        (List.range result.suppliedChunks.length).map some ∧
      (result.run.candidates.filter (·.suppliedToModel)).map (fun e => (e.documentId, e.chunkId)) =
        result.suppliedChunks.map fun c => (c.documentId, c.chunkId) := by
  obtain ⟨rfl, rfl, rfl, rfl, hversions⟩ := Retriever.versions_of_initializeWith h
  refine ⟨fun chunks' r' h' hvisible => ?_, fun result hresult => ?_⟩
  · obtain ⟨rfl, hcandidates, hsupplied, hbudget, hversions'⟩ := Retriever.versions_of_initializeWith h'
    exact ⟨Retriever.retrieve_answer ⟨hcandidates.symm, hsupplied.symm, hbudget.symm⟩ hvisible,
      fun hcaller => Retriever.retrieve_version hversions hversions' hcaller⟩
  · obtain ⟨pairs, hpairs, hsupplied, hcandidates⟩ := Retriever.retrieve_eq_ok hresult
    have hinv := supplyAll_inv r sv pairs
    have hranks := hinv.ranks
    have hlength : (r.supplyAll sv pairs).evidence.length = pairs.length := by
      rw [← List.length_map (·.rankRetrieved), hranks, List.length_range']
    rw [hsupplied, hcandidates]
    refine ⟨fun c hc => ?_, hinv.limit, ?_, hlength ▸ hranks, hinv.positions, hinv.described⟩
    · rcases mem_foldl_supply hc with hc | hc
      · cases hc
      · exact hpairs c hc
    · exact (Nat.le_add_right _ _).trans_eq hinv.budget

/-! Two corpora that differ in the chunks of another tenant. -/

namespace Corpora

/-- A chunk of the tenant. -/
def policy : Chunk :=
  { tenantId := "acme"
    allowedApplications := ["desk"]
    indexId := "docs"
    documentId := "refunds"
    documentVersion := "1"
    documentFamily := "refunds"
    chunkId := "c1"
    content := "refunds take five days"
    indexVersion := "v1" }

/-- A chunk of another tenant. -/
def foreign : Chunk :=
  { policy with tenantId := "globex", chunkId := "c0", content := "refunds", indexVersion := "v9" }

/-- Both of them. -/
def corpus : List Chunk := [foreign, policy]

/-- The corpus with another foreign text, in another order. -/
def corpus' : List Chunk := [policy, { foreign with content := "returns" }]

/-- The ASCII lower case and no words beyond ASCII. -/
def services : TextServices :=
  { lower := String.map Char.toLower
    wide := fun _ => false
    contentDigest := id
    queryHash := id }

/-- A caller of the tenant. -/
def identity : Identity := { tenantId := "acme", applicationIds := ["desk"], environment := .local }

/-- Retrieval is on. -/
def options : RagOptions := { enabled := true, indexId := some "docs" }

/-- What the caller of a corpus gets. -/
def retrieved (chunks : List Chunk) : Except RetrievalError (List Chunk × List ChunkEvidence) := do
  let r ← Retriever.initializeWith chunks 10 3 2048
  (r.retrieve services "Refunds?" identity "desk" options "i1" "local").map answer

end Corpora

open Corpora in
theorem corpora_isolated : retrieved corpus = retrieved corpus' ∧
    (retrieved corpus).toOption.map (·.1) = some [policy] := by
  have hisolated := @retrieval_isolated corpus 10 3 2048 _ rfl services "Refunds?" identity "desk" options
    "i1" "local"
  exact ⟨(hisolated.1 corpus' _ rfl (by decide +kernel)).1, by decide +kernel⟩

end Rag

end AdaptiveLlm
