import AdaptiveLlm.Contracts.Interactions
import AdaptiveLlm.Lib.Except
import Mathlib.Data.List.Sort
import Mathlib.Data.String.Basic

set_option autoImplicit false

/-! # The interaction store

`storage/sqlite.py` over the tables of `migrations/0001` and `0002`. The six record tables are one
list of rows with their kind. A method that violates a key or a foreign key fails, and its
transaction is rolled back: each method returns the new store or the error alone.

`writable` is the guard of every method that writes for an interaction.

A row of a record table has the keys that the schema gives it and its record as JSON. Foreign keys
and uniqueness are checked by the methods that could break them, with the error that SQLite would
raise. Reading parses JSON, so a row that is not what it should be is an error of its reader, not of
the store. -/

namespace AdaptiveLlm

namespace Stored

/-- Pairs of texts are the keys of the tables. -/
instance lawfulBEq_pair : LawfulBEq (String × String) := inferInstance

/-! ## Rows -/

/-- Where a record stands. -/
inductive RowState where
  | active
  | expired
  | deleted
  deriving DecidableEq, Repr

/-- A row of `records`. -/
structure RecordRow where
  kind : RecordKind
  tenantId : String
  recordId : String
  interactionId : String
  data : Json
  expiresAt : ℤ
  state : RowState := .active
  /-- columns of the table of interactions -/
  subjectId : Option String := none
  startedAt : Option ℤ := none

/-- A row of `payloads`. -/
structure EncryptedPayload where
  reference : String
  tenantId : String
  interactionId : String
  field : String
  nonce : String
  ciphertext : String
  keyVersion : String
  expiresAt : ℤ
  deriving DecidableEq

/-- A row of `replays`. -/
structure ReplayRecord where
  tenantId : String
  applicationId : String
  requestId : String
  interactionId : String
  fingerprint : String
  responseRef : String
  reservedAt : ℤ
  expiresAt : ℤ
  deriving DecidableEq

/-- A row of `tombstones`. -/
structure Tombstone where
  tenantId : String
  /-- the interaction, or the subject -/
  targetId : String
  data : DeletionRequest
  deriving DecidableEq

/-- The tables of a tenant. -/
structure Store where
  records : List RecordRow := []
  payloads : List EncryptedPayload := []
  replayEntries : List ReplayRecord := []
  deletionTombstones : List Tombstone := []
  subjectTombstones : List Tombstone := []
  outbox : List (OutboxRow String EventData) := []

/-- The errors of the store, and those of the services that call it. -/
inductive StorageError where
  | interactionDeleted
  | interactionInactive
  | tenantMismatch
  | subjectDeleted
  | invalidReplayCapacity
  | interactionNotFound
  | applicationForbidden
  | processingForbidden
  | correctionSchemaUnavailable
  | invalidCorrectionTarget
  | invalidPayloadBinding
  | invalidDeletionScope
  /-- a violated key or foreign key, and a record that does not validate -/
  | constraint
  | validation
  /-- any other exception of the code around the store -/
  | failed
  deriving DecidableEq, Repr

/-- A result, or an error that rolls the transaction back. -/
abbrev StoreResult (α : Type) := Except StorageError α

/-- Fails with `error` unless the condition holds. -/
def check (condition : Bool) (error : StorageError) : StoreResult Unit :=
  if condition then .ok () else .error error

theorem check_eq_ok {condition : Bool} {error : StorageError} {u : Unit} :
    check condition error = .ok u ↔ condition = true := by
  unfold check
  split <;> simp_all

namespace Store

variable (s : Store)

/-! ## Reading -/

/-- The row of an interaction. -/
def interactionRow (tenant interactionId : String) : Option RecordRow :=
  s.records.find? fun row =>
    row.kind = .interactions && row.tenantId = tenant && row.recordId = interactionId

/-- `get` of an interaction. -/
def getInteraction (tenant interactionId : String) : StoreResult (Option Interaction) :=
  match s.interactionRow tenant interactionId with
  | none => .ok none
  | some row =>
    match Interaction.ofJson row.data with
    | none => .error .validation
    | some interaction => .ok (some interaction)

/-- `state`. -/
def stateOf (tenant interactionId : String) : Option RowState :=
  (s.interactionRow tenant interactionId).map (·.state)

/-- `expires_at`. -/
def expiresAt (tenant interactionId : String) : Option ℤ :=
  (s.interactionRow tenant interactionId).map (·.expiresAt)

/-- `get_tombstone`. -/
def getTombstone (tenant interactionId : String) : Option DeletionRequest :=
  (s.deletionTombstones.find? fun t => t.tenantId = tenant && t.targetId = interactionId).map (·.data)

/-- `get_subject_tombstone`. -/
def getSubjectTombstone (tenant subject : String) : Option DeletionRequest :=
  (s.subjectTombstones.find? fun t => t.tenantId = tenant && t.targetId = subject).map (·.data)

/-- The interactions of some rows; fails where one does not validate. -/
def parseAll (rows : List RecordRow) : StoreResult (List Interaction) :=
  match rows.mapM fun row => Interaction.ofJson row.data with
  | none => .error .validation
  | some interactions => .ok interactions

/-- `for_subject`. -/
def forSubject (tenant subject : String) : StoreResult (List Interaction) :=
  parseAll (s.records.filter fun row => row.kind = .interactions && row.tenantId = tenant &&
    row.subjectId = some subject && row.state ≠ .deleted)

/-- `expired`. -/
def expired (tenant : String) (now : ℤ) : StoreResult (List Interaction) :=
  parseAll (s.records.filter fun row => row.kind = .interactions && row.tenantId = tenant &&
    row.expiresAt ≤ now && row.state = .active)

/-- `get` of the payload store. -/
def getPayload (tenant reference : String) (now : ℤ) : Option EncryptedPayload :=
  s.payloads.find? fun p => p.tenantId = tenant && p.reference = reference && p.expiresAt > now

/-! ## Writing -/

/-- `writable`. -/
def writable (tenant interactionId : String) : StoreResult Unit := do
  check (s.getTombstone tenant interactionId).isNone .interactionDeleted
  check ((s.stateOf tenant interactionId).all (· = .active)) .interactionInactive

/-- The INSERT of a record: its key is new, and the interaction is stored. -/
def insertRecord (row : RecordRow) : StoreResult Store := do
  check (!s.records.any fun r => r.kind = row.kind && r.tenantId = row.tenantId &&
    r.recordId = row.recordId) .constraint
  check (row.kind = .interactions || (s.interactionRow row.tenantId row.interactionId).isSome)
    .constraint
  .ok { s with records := s.records ++ [row] }

/-- What `put` asks of an interaction. -/
def checkInteraction (tenant : String) : StoredRecord → StoreResult Unit
  | .interaction i => do
    check (i.tenantId = tenant) .tenantMismatch
    check (i.subjectIdPseudonymous.all fun subject => (s.getSubjectTombstone tenant subject).isNone)
      .subjectDeleted
  | _ => .ok ()

/-- The row of a record. -/
def rowOf (tenant : String) (expiresAt : ℤ) (record : StoredRecord) : RecordRow where
  kind := record.kind
  tenantId := tenant
  recordId := record.recordId
  interactionId := record.interactionId
  data := record.toJson
  expiresAt
  subjectId := match record with
    | .interaction i => i.subjectIdPseudonymous
    | _ => none
  startedAt := match record with
    | .interaction i => some i.startedAt
    | _ => none

/-- `put` of the metadata store. -/
def put (tenant : String) (record : StoredRecord) (expiresAt : ℤ) : StoreResult Store := do
  s.writable tenant record.interactionId
  s.checkInteraction tenant record
  s.insertRecord (rowOf tenant expiresAt record)

/-- UPDATE of an interaction's data. -/
def updateInteraction (tenant recordId : String) (interaction : Interaction) : Store :=
  { s with
    records := s.records.map fun row =>
      if row.kind = .interactions && row.tenantId = tenant && row.recordId = recordId then
        { row with data := interaction.toJson }
      else row }

/-- `add_shadow_cost`. -/
def addShadowCost (tenant interactionId : String) (costMicros : ℕ) : StoreResult Store := do
  s.writable tenant interactionId
  let found ← s.getInteraction tenant interactionId
  match found with
  | none => .ok s
  | some record =>
    .ok (s.updateInteraction tenant interactionId
      { record with shadowCostMicros := record.shadowCostMicros + costMicros })

/-- `append_feedback`. -/
def appendFeedback (tenant : String) (interaction : Interaction) (feedbackId : String) :
    StoreResult Store := do
  s.writable tenant interaction.interactionId
  .ok (s.updateInteraction tenant interaction.interactionId
    { interaction with feedbackIds := interaction.feedbackIds ++ [feedbackId] })

/-- `put` of the payload store: the reference and the nonce are new, and the interaction is stored. -/
def putPayload (payload : EncryptedPayload) : StoreResult Store := do
  s.writable payload.tenantId payload.interactionId
  check (!s.payloads.any fun p => (p.tenantId = payload.tenantId && p.reference = payload.reference) ||
    (p.keyVersion = payload.keyVersion && p.nonce = payload.nonce)) .constraint
  check (s.interactionRow payload.tenantId payload.interactionId).isSome .constraint
  .ok { s with payloads := s.payloads ++ [payload] }

/-- DELETE of payloads: no replay entry may refer to one of them. -/
def deletePayloads (which : EncryptedPayload → Bool) : StoreResult Store := do
  check (!s.payloads.any fun p => which p && s.replayEntries.any fun e =>
    e.tenantId = p.tenantId && e.responseRef = p.reference) .constraint
  .ok { s with payloads := s.payloads.filter fun p => !which p }

/-- DELETE of the payload of a replay. -/
def deleteReplayPayload (tenant reference : String) : StoreResult Store :=
  s.deletePayloads fun p => p.tenantId = tenant && p.reference = reference

/-- `delete_interaction`. -/
def deleteInteraction (tenant interactionId : String) : StoreResult Store :=
  s.deletePayloads fun p => p.tenantId = tenant && p.interactionId = interactionId

/-! ## Replays -/

/-- The latest reservation first. -/
def later (a b : ReplayRecord) : Prop :=
  b.reservedAt < a.reservedAt ∨ b.reservedAt = a.reservedAt ∧
    (b.applicationId < a.applicationId ∨ b.applicationId = a.applicationId ∧
      b.requestId ≤ a.requestId)

instance (a b : ReplayRecord) : Decidable (later a b) := by
  unfold later
  infer_instance

/-- The tenant's entries beyond the newest `capacity`. -/
def evictable (tenant : String) (capacity : ℕ) : List ReplayRecord :=
  ((s.replayEntries.filter (·.tenantId = tenant)).insertionSort later).drop capacity

/-- The INSERT of a replay entry, with its key and its two foreign keys. -/
def insertReplay (replay : ReplayRecord) : StoreResult Store := do
  check (!s.replayEntries.any fun e => e.tenantId = replay.tenantId &&
    e.applicationId = replay.applicationId && e.requestId = replay.requestId) .constraint
  check (s.interactionRow replay.tenantId replay.interactionId).isSome .constraint
  check (s.payloads.any fun p => p.tenantId = replay.tenantId && p.reference = replay.responseRef)
    .constraint
  .ok { s with replayEntries := s.replayEntries ++ [replay] }

/-- Deletes entries. -/
def removeReplays (which : ReplayRecord → Bool) : Store :=
  { s with replayEntries := s.replayEntries.filter fun e => !which e }

/-- `put_replay`: the entry, then the eviction of the tenant's oldest ones with their payloads. -/
def putReplay (replay : ReplayRecord) (capacity : ℕ) : StoreResult Store := do
  check (1 ≤ capacity) .invalidReplayCapacity
  s.writable replay.tenantId replay.interactionId
  let s ← s.insertReplay replay
  let evicted := s.evictable replay.tenantId capacity
  let s := s.removeReplays fun e => e.tenantId = replay.tenantId && evicted.any fun old =>
    old.applicationId = e.applicationId && old.requestId = e.requestId
  evicted.foldlM (fun s old => s.deleteReplayPayload replay.tenantId old.responseRef) s

/-- `delete_replay`. -/
def deleteReplay (tenant applicationId requestId : String) : StoreResult Store :=
  let which (e : ReplayRecord) : Bool :=
    e.tenantId = tenant && e.applicationId = applicationId && e.requestId = requestId
  match s.replayEntries.find? which with
  | none => .ok (s.removeReplays which)
  | some row => (s.removeReplays which).deleteReplayPayload tenant row.responseRef

/-- `expire_replays`. -/
def expireReplays (tenant : String) (now : ℤ) : StoreResult Store :=
  (s.replayEntries.filter fun e => e.tenantId = tenant && e.expiresAt ≤ now).foldlM
    (fun s e => s.deleteReplay tenant e.applicationId e.requestId) s

/-! ## Deleting -/

/-- The names of the fields that refer to a payload. -/
def isRef (name : String) : Bool := "_ref".toList.isSuffixOf name.toList

/-- `clear_refs`: the records of an interaction lose their references, and its replays go. -/
def clearRefs (tenant interactionId : String) (state : RowState) : Store :=
  { s with
    records := s.records.map fun row =>
      if row.tenantId = tenant && row.interactionId = interactionId then
        { row with data := row.data.erase isRef, state }
      else row
    replayEntries := s.replayEntries.filter fun e =>
      !(e.tenantId = tenant && e.interactionId = interactionId) }

/-- INSERT OR IGNORE of a tombstone. -/
def addTombstone (tombstones : List Tombstone) (t : Tombstone) : List Tombstone :=
  if tombstones.any fun old => old.tenantId = t.tenantId && old.targetId = t.targetId then tombstones
  else tombstones ++ [t]

/-- `tombstone`. -/
def tombstone (tenant interactionId : String) (deletion : DeletionRequest) : Store :=
  { s with deletionTombstones := addTombstone s.deletionTombstones ⟨tenant, interactionId, deletion⟩ }

/-- `tombstone_subject`. -/
def tombstoneSubject (tenant : String) (deletion : DeletionRequest) : StoreResult Store := do
  check (deletion.scope = .subject) .invalidDeletionScope
  .ok { s with
    subjectTombstones := addTombstone s.subjectTombstones ⟨tenant, deletion.targetId, deletion⟩ }

/-- `enqueue` of the outbox. -/
def enqueueEvents (pendingLimit : ℕ) (events : List (Event String EventData)) : Store :=
  { s with outbox := (enqueue pendingLimit s.outbox events).1 }

end Store

end Stored

end AdaptiveLlm
