import AdaptiveLlm.Contracts.Messages
import AdaptiveLlm.Datasets.Eligibility
import AdaptiveLlm.Retrieval.Retriever

set_option autoImplicit false

/-! # Sources of a dataset

`datasets/sources.py`: the chunk that a build may use for the evidence of a retrieval. A
`SourceResolver` can be replaced; it returns a chunk that validates, of the tenant, the index and the
version it was asked for.

The resolver in the repository searches a local corpus for the chunk that an evidence names. The
ids, the versions, the licence and the environment must single out one row, and the digest of its
content must be the recorded one, so a corpus that has changed since gives none. -/

namespace AdaptiveLlm

namespace Rag

/-- The environment as a record writes it. -/
def Environment.name : Environment → String
  | .local => "local"
  | .development => "development"
  | .staging => "staging"
  | .production => "production"

/-- The class of licence as a record writes it. -/
def LicenceClass.name : LicenceClass → String
  | .synthetic => "synthetic"
  | .internalApproved => "internal-approved"
  | .unknown => "unknown"

/-- `Region`. -/
def isRegion (text : String) : Bool :=
  1 ≤ text.length && text.length ≤ 32 && text.toList.all fun c => c.isLower || c.isDigit || c = '-'

/-- The checks of `IndexedChunk` on its texts. -/
def Chunk.valid (wide : Char → Bool) (c : Chunk) : Bool :=
  isIdentifier wide c.tenantId && isRegion c.region && c.allowedApplications.all (isIdentifier wide) &&
    isIdentifier wide c.indexId && isIdentifier wide c.documentId && isIdentifier wide c.documentFamily &&
    isIdentifier wide c.chunkId && c.content.length ≤ contentLimit

end Rag

namespace Datasets

open Rag (Chunk ChunkEvidence RetrievalRun)
open Stored (Interaction)

/-- What a chunk that is resolved has of the interaction, the retrieval run and the evidence. -/
structure Resolved (wide : Char → Bool) (i : Interaction) (run : RetrievalRun) (evidence : ChunkEvidence)
    (c : Chunk) : Prop where
  valid : c.valid wide = true
  tenant : c.tenantId = i.tenantId
  index : c.indexId = run.indexId
  document : c.documentId = evidence.documentId
  chunk : c.chunkId = evidence.chunkId
  version : c.documentVersion = evidence.documentVersion

/-- A resolver of recorded sources, with what its answers satisfy. -/
structure SourceResolver (wide : Char → Bool) where
  resolve : Interaction → RetrievalRun → ChunkEvidence → String → Option Chunk
  resolved : ∀ {i run evidence residency c}, resolve i run evidence residency = some c →
    Resolved wide i run evidence c

namespace LocalSourceResolver

/-- The filter of `resolve`. -/
def isMatch (i : Interaction) (run : RetrievalRun) (evidence : ChunkEvidence) (residency : String)
    (c : Chunk) : Bool :=
  c.tenantId = i.tenantId && textField i.others "environment" = some c.environment.name &&
    i.applicationId ∈ c.allowedApplications && c.region = residency && c.indexId = run.indexId &&
    c.indexVersion = run.indexVersion && c.documentId = evidence.documentId && c.chunkId =
      evidence.chunkId &&
    c.documentVersion = evidence.documentVersion && c.licenceClass ∈ [.synthetic, .internalApproved] &&
    c.licenceClass = evidence.licenceClass

variable (wide : Char → Bool) (digest : String → String)

/-- `resolve`, over the rows of the file; `none` is a file that cannot be read. -/
def resolve (rows : Option (List Chunk)) (i : Interaction) (run : RetrievalRun) (evidence : ChunkEvidence)
    (residency : String) : Option Chunk :=
  match rows with
  | none => none
  | some rows =>
    if !rows.all (·.valid wide) then none
    else
      match rows.filter (isMatch i run evidence residency) with
      | [c] => if digest c.content ≠ evidence.contentHash then none else some c
      | _ => none

theorem resolved_of_resolve {rows : Option (List Chunk)} {i : Interaction} {run : RetrievalRun}
    {evidence : ChunkEvidence} {residency : String} {c : Chunk}
    (h : resolve wide digest rows i run evidence residency = some c) : Resolved wide i run evidence c := by
  unfold resolve at h
  split at h
  · simp at h
  rename_i rows
  split at h
  · simp at h
  rename_i hvalid
  split at h
  · rename_i c' hfilter
    split at h
    · simp at h
    obtain rfl := Option.some.inj h
    have hmem : c' ∈ rows.filter (isMatch i run evidence residency) := hfilter ▸ List.mem_singleton_self c'
    obtain ⟨hrow, hmatch⟩ := List.mem_filter.1 hmem
    simp only [isMatch, Bool.and_eq_true, decide_eq_true_eq, and_assoc] at hmatch
    obtain ⟨htenant, -, -, -, hindex, -, hdocument, hchunk, hversion, -, -⟩ := hmatch
    simp only [Bool.not_eq_true, Bool.not_eq_false'] at hvalid
    exact ⟨List.all_eq_true.1 hvalid c' hrow, htenant, hindex, hdocument, hchunk, hversion⟩
  · simp at h

end LocalSourceResolver

/-- `LocalSourceResolver`. -/
def localSourceResolver (wide : Char → Bool) (digest : String → String) (rows : Option (List Chunk)) :
    SourceResolver wide where
  resolve := LocalSourceResolver.resolve wide digest rows
  resolved := LocalSourceResolver.resolved_of_resolve wide digest

end Datasets

end AdaptiveLlm
