import AdaptiveLlm.Storage.Privacy

set_option autoImplicit false

/-! # Operations on a running store

Besides the transactions of the persistence, a store meets the batches of `rotate_key`
(`storage/operations.py`), which encrypt payloads anew under the current key, and the dispatcher, which
settles and redelivers rows of the outbox. An `Operation` is any of them.

Invariants of the store that are about more than privacy are proved for these runs, as rotation and
dispatch change rows that deletions and sweeps look at. Each operation either is a list of the
writes of `Storage/Tombstones.lean` or fails and changes nothing. -/

namespace AdaptiveLlm

namespace Stored

namespace Store

/-! ## Key rotation -/

/-- The rows of one batch: payloads of other keys between the cursor and the ceiling that have not
    expired. -/
def rotationRows (s : Store) (tenant cursor ceiling keyVersion : String) (now : ℤ) (batchSize : ℕ) :
    List EncryptedPayload :=
  ((s.payloads.filter fun p => p.tenantId = tenant && cursor < p.reference && p.reference ≤ ceiling &&
    p.expiresAt > now && p.keyVersion ≠ keyVersion).insertionSort
      fun a b => a.reference ≤ b.reference).take batchSize

/-- UPDATE of a payload's nonce, ciphertext and key version, of which the first and the last are
    unique. -/
def replaceCiphertext (s : Store) (p replacement : EncryptedPayload) : StoreResult Store := do
  let isRow (q : EncryptedPayload) : Bool := q.tenantId = p.tenantId && q.reference = p.reference
  check (!s.payloads.any fun q => !isRow q && q.keyVersion = replacement.keyVersion &&
    q.nonce = replacement.nonce) .constraint
  .ok { s with
    payloads := s.payloads.map fun q =>
      if isRow q then
        { q with
          nonce := replacement.nonce
          ciphertext := replacement.ciphertext
          keyVersion := replacement.keyVersion }
      else q }

/-- One row of a batch. -/
def rewrap (sv : Services) (k : ℕ) (s : Store) (p : EncryptedPayload) : StoreResult Store :=
  match sv.decrypt p p.tenantId p.interactionId p.field with
  | none => .error .failed
  | some text => do
    let replacement ← sv.encrypt k text p.tenantId p.interactionId p.field p.expiresAt
    s.replaceCiphertext p replacement

/-- The transaction of one batch of `rotate_key`. -/
def rotateBatch (sv : Services) (s : Store) (tenant cursor ceiling keyVersion : String)
    (batchSize : ℕ) : StoreResult Store :=
  (s.rotationRows tenant cursor ceiling keyVersion (sv.clock 0) batchSize).zipIdx.foldlM
    (fun s (p, k) => s.rewrap sv k p) s

/-! ## The dispatcher -/

/-- `finish`, without the times and the error code. -/
def finish (s : Store) (eventId : String) (state : OutboxState) (attempts : ℕ) : Store :=
  { s with
    outbox := s.outbox.map fun row =>
      if row.event.eventId = eventId ∧ row.state = .pending then { row with state, attempts } else row }

/-- `redeliver`. -/
def redeliver (s : Store) (eventId : String) : Store :=
  { s with
    outbox := s.outbox.map fun row =>
      if row.event.eventId = eventId ∧ row.state = .dead then
        { row with state := .pending, attempts := 0 }
      else row }

end Store

/-! ## Operations -/

/-- What happens to a store, with the services of each call. -/
inductive Operation where
  | save (sv : Services) (graph : InteractionGraph) (response : Option InferenceResponse)
      (content : PersistenceContent) (fingerprint : String) (reservedAt : ℤ)
  | saveShadow (sv : Services) (interaction : Interaction) (attempt : GenerationAttempt)
      (output : Option String) (policy : PolicyDecision) (inputRedactionFailed : Bool)
  | feedback (sv : Services) (caller : Caller) (interactionId : String) (body : FeedbackBody)
  | sweep (sv : Services) (tenant : String)
  | delete (sv : Services) (tenant interactionId : String) (actor : Option String)
  | deleteSubject (sv : Services) (tenant subject : String) (actor : Option String)
  | rotate (sv : Services) (tenant cursor ceiling keyVersion : String) (batchSize : ℕ)
  | finish (eventId : String) (state : OutboxState) (attempts : ℕ)
  | redeliver (eventId : String)

namespace Operation

/-- One operation on the store: the new store, or an error that leaves it. -/
def run (s : Store) : Operation → StoreResult Store
  | save sv graph response content fingerprint reservedAt =>
    (StorageCall.save sv graph response content fingerprint reservedAt).run s
  | saveShadow sv interaction attempt output policy inputRedactionFailed =>
    (StorageCall.saveShadow sv interaction attempt output policy inputRedactionFailed).run s
  | feedback sv caller interactionId body => (StorageCall.feedback sv caller interactionId body).run s
  | sweep sv tenant => (StorageCall.sweep sv tenant).run s
  | delete sv tenant interactionId actor => (StorageCall.delete sv tenant interactionId actor).run s
  | deleteSubject sv tenant subject actor => (StorageCall.deleteSubject sv tenant subject actor).run s
  | rotate sv tenant cursor ceiling keyVersion batchSize =>
    s.rotateBatch sv tenant cursor ceiling keyVersion batchSize
  | finish eventId state attempts => .ok (s.finish eventId state attempts)
  | redeliver eventId => .ok (s.redeliver eventId)

/-- The services of a call. -/
def services : Operation → Option Services
  | save sv .. | saveShadow sv .. | feedback sv .. | sweep sv .. | delete sv .. | deleteSubject sv ..
  | rotate sv .. => some sv
  | finish .. | redeliver .. => none

/-- The counts of redactions that are saved. -/
def counts : Operation → List (String × ℕ)
  | save _ _ _ content _ _ => content.counts
  | _ => []

end Operation

namespace Store

/-- An operation that fails is rolled back. -/
def perform (s : Store) (op : Operation) : Store := (op.run s).toOption.getD s

/-- The store after some operations. -/
def performAll (s : Store) (ops : List Operation) : Store := ops.foldl perform s

@[simp] theorem performAll_nil (s : Store) : s.performAll [] = s := rfl

@[simp] theorem performAll_cons (s : Store) (op : Operation) (ops : List Operation) :
    s.performAll (op :: ops) = (s.perform op).performAll ops := rfl

theorem performAll_append (s : Store) (ops ops' : List Operation) :
    s.performAll (ops ++ ops') = (s.performAll ops).performAll ops' := List.foldl_append

/-- What every successful operation keeps, every run keeps. -/
theorem performAll_of_invariant {Inv : Store → Prop} {ops : List Operation}
    (hstep : ∀ op ∈ ops, ∀ s s', Inv s → op.run s = .ok s' → Inv s') {s : Store} (h : Inv s) :
    Inv (s.performAll ops) := by
  induction ops generalizing s with
  | nil => exact h
  | cons op ops ih =>
    refine ih (fun op hop => hstep op (List.mem_cons_of_mem _ hop)) ?_
    unfold perform
    cases hrun : op.run s with
    | error => exact h
    | ok s' => exact hstep op List.mem_cons_self s s' h hrun

/-! ## Tombstones are respected -/

section Privacy

variable {s s' : Store}

theorem replaceCiphertext_eq_ok {p replacement : EncryptedPayload}
    (h : s.replaceCiphertext p replacement = .ok s') :
    s' = { s with
      payloads := s.payloads.map fun q =>
        if q.tenantId = p.tenantId ∧ q.reference = p.reference then
          { q with
            nonce := replacement.nonce
            ciphertext := replacement.ciphertext
            keyVersion := replacement.keyVersion }
        else q } := by
  obtain ⟨_, -, h⟩ := Except.bind_eq_ok.1 h
  cases h
  simp

/-- A row of a batch is decrypted, encrypted under its own binding and replaced. -/
theorem rewrap_eq_ok {sv : Services} {k : ℕ} {p : EncryptedPayload} (h : s.rewrap sv k p = .ok s') :
    ∃ text replacement, sv.decrypt p p.tenantId p.interactionId p.field = some text ∧
      sv.encrypt k text p.tenantId p.interactionId p.field p.expiresAt = .ok replacement ∧
      s.replaceCiphertext p replacement = .ok s' := by
  unfold rewrap at h
  split at h
  · cases h
  · rename_i text htext
    obtain ⟨replacement, hreplacement, h⟩ := Except.bind_eq_ok.1 h
    exact ⟨text, replacement, htext, hreplacement, h⟩

theorem PrivacyInv.rewrap (hinv : PrivacyInv s) {sv : Services} {k : ℕ} {p : EncryptedPayload}
    (h : s.rewrap sv k p = .ok s') : PrivacyInv s' := by
  obtain ⟨_, _, -, -, hreplace⟩ := rewrap_eq_ok h
  rw [replaceCiphertext_eq_ok hreplace]
  refine hinv.payloads fun q hq => .inr fun htomb => ?_
  obtain ⟨q₀, hq₀, rfl⟩ := List.mem_map.1 hq
  refine (hinv.gone _ _ htomb).payloads q₀ hq₀ ?_ ?_ <;> split <;> rfl

theorem PrivacyInv.run (hinv : PrivacyInv s) {op : Operation} (h : op.run s = .ok s') :
    PrivacyInv s' := by
  have hcall : ∀ call : StorageCall, call.run s = .ok s' → PrivacyInv s' :=
    fun _ hrun => (run_writes hinv hrun).keeps hinv
  cases op with
  | save sv graph response content fingerprint reservedAt =>
    exact hcall (.save sv graph response content fingerprint reservedAt) h
  | saveShadow sv interaction attempt output policy inputRedactionFailed =>
    exact hcall (.saveShadow sv interaction attempt output policy inputRedactionFailed) h
  | feedback sv caller interactionId body => exact hcall (.feedback sv caller interactionId body) h
  | sweep sv tenant => exact hcall (.sweep sv tenant) h
  | delete sv tenant interactionId actor => exact hcall (.delete sv tenant interactionId actor) h
  | deleteSubject sv tenant subject actor => exact hcall (.deleteSubject sv tenant subject actor) h
  | rotate sv tenant cursor ceiling keyVersion batchSize =>
    exact Except.foldlM_of_invariant (fun _ t => PrivacyInv t) (fun _ _ _ _ hinv hstep => hinv.rewrap hstep)
      _ hinv h
  | finish | redeliver =>
    cases h
    exact hinv.outbox

theorem PrivacyInv.performAll (hinv : PrivacyInv s) (ops : List Operation) :
    PrivacyInv (s.performAll ops) :=
  performAll_of_invariant (fun _ _ _ _ hinv hrun => hinv.run hrun) hinv

end Privacy

end Store

end Stored

end AdaptiveLlm
