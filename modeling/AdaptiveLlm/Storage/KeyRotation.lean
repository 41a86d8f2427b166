import AdaptiveLlm.Storage.Operations
import AdaptiveLlm.Storage.Sealing
import Mathlib

set_option autoImplicit false

/-! # Key rotation

`rotate_key` (`storage/operations.py`) encrypts the payloads of a tenant anew under the current key, a
batch a transaction. Between two batches others insert and delete payloads. A batch takes the rows
behind the cursor in the order of their references, so every batch moves the cursor, and what is behind
it under an old key has expired or was inserted later.

A row of a blob table has bytes for its plaintext.

`RotationInv` is about the rows that were there at the start: each of them is gone, expired, or
under the current key, or its reference lies behind the cursor. A batch moves the cursor over its
last reference, and the references are finitely many, whatever is inserted in between, as new ones
lie anywhere. An error in the middle of a batch rolls the batch back, and what the earlier ones did
stands. -/

namespace AdaptiveLlm

open Crypto (PayloadCipher Nonce)

/-! ## Blobs -/

namespace Crypto.PayloadCipher

variable (c : PayloadCipher)

/-- `encrypt` of some bytes, with the nonce and the reference that it draws. -/
def sealBlob (nonce : Nonce) (reference : String) (content : List UInt8)
    (tenant interaction field : String) (expiry : ℤ) : Stored.StoreResult Stored.EncryptedPayload :=
  match c.encrypt nonce content tenant interaction field none with
  | .error _ => .error .invalidPayloadBinding
  | .ok p => .ok {
      reference
      tenantId := tenant
      interactionId := interaction
      field := p.field
      nonce := blobText p.nonce
      ciphertext := blobText p.ciphertext
      keyVersion := p.keyVersion
      expiresAt := expiry }

/-- `decrypt`. -/
def openBlob (p : Stored.EncryptedPayload) (tenant interaction field : String) : Option (List UInt8) :=
  (c.decrypt {
    field := p.field
    nonce := blobBytes p.nonce
    ciphertext := blobBytes p.ciphertext
    keyVersion := p.keyVersion } tenant interaction field none).toOption

/-- The plaintext of a row, under its own binding. -/
def plaintext (p : Stored.EncryptedPayload) : Option (List UInt8) :=
  c.openBlob p p.tenantId p.interactionId p.field

variable {c}

theorem sealBlob_eq_ok {nonce : Nonce} {reference tenant interaction field : String}
    {content : List UInt8} {expiry : ℤ} {p : Stored.EncryptedPayload}
    (h : c.sealBlob nonce reference content tenant interaction field expiry = .ok p) :
    p.field = field ∧ p.keyVersion = c.keyVersion ∧ ∀ p' : Stored.EncryptedPayload,
      p'.field = p.field → p'.nonce = p.nonce → p'.ciphertext = p.ciphertext →
      p'.keyVersion = p.keyVersion → c.openBlob p' tenant interaction field = some content := by
  unfold sealBlob at h
  split at h
  · cases h
  · rename_i payload hpayload
    cases h
    obtain ⟨hfield, -, hversion⟩ := encrypt_eq_ok hpayload
    refine ⟨hfield, hversion, fun p' hfield' hnonce hciphertext hversion' => ?_⟩
    unfold openBlob
    rw [hfield', hnonce, hciphertext, hversion', blobBytes_blobText, blobBytes_blobText,
      decrypt_of_encrypt_eq_ok hpayload]
    rfl

end Crypto.PayloadCipher

namespace Stored

/-- The encryptions of a call are those of a cipher, of bytes. -/
structure Services.UsesBlobs (sv : Services) (c : PayloadCipher) : Prop where
  encrypt : ∀ k, ∃ nonce reference, ∀ content tenant id field expiry,
    sv.encrypt k content tenant id field expiry =
      c.sealBlob nonce reference (blobBytes content) tenant id field expiry
  decrypt : ∀ p tenant id field,
    sv.decrypt p tenant id field = (c.openBlob p tenant id field).map blobText

/-! ## The rotation -/

/-- What a payload is stored under. -/
def EncryptedPayload.key (p : EncryptedPayload) : String × String := (p.tenantId, p.reference)

/-- What others commit between two batches. The primary key refuses an insert under a key there is. -/
inductive PayloadChange where
  | insert (p : EncryptedPayload)
  | delete (key : String × String)
  deriving DecidableEq

namespace PayloadChange

/-- One change of the payloads by another request. -/
def run (payloads : List EncryptedPayload) : PayloadChange → List EncryptedPayload
  | insert p => if p.key ∈ payloads.map EncryptedPayload.key then payloads else payloads ++ [p]
  | delete key => payloads.filter fun p => p.key ≠ key

/-- All of them, one after the other. -/
def runAll (payloads : List EncryptedPayload) (changes : List PayloadChange) :
    List EncryptedPayload := changes.foldl run payloads

/-- The references of the payloads that are inserted. -/
def inserted : PayloadChange → Option String
  | insert p => some p.reference
  | delete _ => none

end PayloadChange

/-- How a rotation can fail. -/
inductive RotationError where
  | invalidRotationBatchSize
  | storage (e : StorageError)
  deriving DecidableEq

/-- A call of `rotate_key` and what it meets. -/
structure KeyRotation where
  tenantId : String
  cipher : PayloadCipher
  batchSize : ℕ
  /-- The services of each batch, -/
  services : ℕ → Services
  /-- what is committed before each, -/
  between : List (List PayloadChange)
  /-- and the error that ends its transaction, if any, besides those of its own statements. -/
  failure : ℕ → Option StorageError

/-- The local variables, with the number of transactions begun and the rows that they replaced. -/
structure RotationState where
  store : Store
  cursor : String := ""
  changed : ℕ := 0
  batches : ℕ := 0
  replaced : List EncryptedPayload := []

namespace KeyRotation

variable (k : KeyRotation)

/-- `coalesce(max(reference), '')` of the tenant. -/
def ceiling (s : Store) : String :=
  ((s.payloads.filter fun p => p.tenantId = k.tenantId).map (·.reference)).max?.getD ""

/-- The next transaction begins, after what others have committed. -/
def begin (x : RotationState) : RotationState :=
  { x with
    store := { x.store with
      payloads := PayloadChange.runAll x.store.payloads (k.between.getD x.batches []) }
    batches := x.batches + 1 }

/-- The rows that the next transaction reads. -/
def rows (ceiling : String) (x : RotationState) : List EncryptedPayload :=
  (k.begin x).store.rotationRows k.tenantId x.cursor ceiling k.cipher.keyVersion
    ((k.services x.batches).clock 0) k.batchSize

/-- What the transaction leaves when it commits. -/
def advance (ceiling : String) (x : RotationState) (last : EncryptedPayload) (s' : Store) :
    RotationState :=
  { k.begin x with
    store := s'
    cursor := last.reference
    changed := x.changed + (k.rows ceiling x).length
    replaced := x.replaced ++ (k.begin x).store.payloads.filter fun p => p ∉ s'.payloads }

/-- One round of the loop: the state after it, and what the call returns if it ends there. -/
def round (ceiling : String) (x : RotationState) :
    RotationState × Option (Except RotationError ℕ) :=
  match k.failure x.batches, (k.rows ceiling x).getLast? with
  | some e, _ => (k.begin x, some (.error (.storage e)))
  | none, none => (k.begin x, some (.ok x.changed))
  | none, some last =>
    match (k.begin x).store.rotateBatch (k.services x.batches) k.tenantId x.cursor ceiling
      k.cipher.keyVersion k.batchSize with
    | .error e => (k.begin x, some (.error (.storage e)))
    | .ok s' => (k.advance ceiling x last s', none)

/-- Some rounds of the loop; `none` while it goes on. -/
def rounds (ceiling : String) : ℕ → RotationState → RotationState × Option (Except RotationError ℕ)
  | 0, x => (x, none)
  | fuel + 1, x =>
    match k.round ceiling x with
    | (x', none) => rounds ceiling fuel x'
    | (x', some result) => (x', some result)

/-- `rotate_key`, at most `fuel` rounds of it. -/
def rotateKey (s : Store) (fuel : ℕ) : RotationState × Option (Except RotationError ℕ) :=
  if k.batchSize < 1 then ({ store := s }, some (.error .invalidRotationBatchSize))
  else k.rounds (k.ceiling s) fuel { store := s }

/-- What others committed before the rotation's `n`-th transaction. -/
def committed (n : ℕ) : List PayloadChange := (k.between.take n).flatten

end KeyRotation

/-! ## One batch

A batch selects rows of old keys behind the cursor, seals each of them anew and replaces it under
its reference. A row that it can not open ends it with an error, and the batch is rolled back. -/

section Batch

variable {c : PayloadCipher} {s s' : Store} {p₀ p q : EncryptedPayload}

/-- A row that a batch replaced: its binding and its expiry stand, its plaintext too. -/
structure Rewrapped (c : PayloadCipher) (p q : EncryptedPayload) : Prop where
  same : q = { p with nonce := q.nonce, ciphertext := q.ciphertext, keyVersion := c.keyVersion }
  plaintext : ∃ content, c.plaintext p = some content ∧ c.plaintext q = some content

theorem Rewrapped.key (h : Rewrapped c p q) : q.key = p.key := by
  rw [h.same]
  rfl

namespace Store

theorem PayloadKeys.eq_of_key (h : s.PayloadKeys) (hp : p ∈ s.payloads) (hq : q ∈ s.payloads)
    (hkey : p.key = q.key) : p = q :=
  List.inj_on_of_nodup_map h hp hq hkey

/-- One row of a batch. -/
theorem rewrap_payloads {sv : Services} (huses : sv.UsesBlobs c) {n : ℕ}
    (h : s.rewrap sv n p = .ok s') :
    ∃ f : EncryptedPayload → EncryptedPayload, s'.payloads = s.payloads.map f ∧
      Rewrapped c p (f p) ∧ ∀ q, q.key ≠ p.key → f q = q := by
  obtain ⟨text, replacement, hdecrypt, hencrypt, hreplace⟩ := rewrap_eq_ok h
  rw [huses.decrypt] at hdecrypt
  obtain ⟨content, hcontent, rfl⟩ := Option.map_eq_some_iff.1 hdecrypt
  obtain ⟨nonce, reference, hseal⟩ := huses.encrypt n
  rw [hseal, blobBytes_blobText] at hencrypt
  obtain ⟨hfield, hversion, hopens⟩ := PayloadCipher.sealBlob_eq_ok hencrypt
  rw [replaceCiphertext_eq_ok hreplace]
  refine ⟨_, rfl, ?_, fun q hq => if_neg fun hkey => hq (Prod.ext hkey.1 hkey.2)⟩
  rw [if_pos ⟨rfl, rfl⟩, hversion]
  exact ⟨rfl, content, hcontent, hopens _ hfield.symm rfl rfl hversion.symm⟩

/-- The rows from the cursor on that a rotation has to replace, in its order. -/
def staleRows (s : Store) (tenant cursor ceiling keyVersion : String) (now : ℤ) :
    List EncryptedPayload :=
  (s.payloads.filter fun p => p.tenantId = tenant && cursor < p.reference && p.reference ≤ ceiling &&
    p.expiresAt > now && p.keyVersion ≠ keyVersion).insertionSort fun a b => a.reference ≤ b.reference

theorem mem_staleRows {tenant cursor ceiling keyVersion : String} {now : ℤ} :
    p ∈ s.staleRows tenant cursor ceiling keyVersion now ↔
      p ∈ s.payloads ∧ p.tenantId = tenant ∧ cursor < p.reference ∧ p.reference ≤ ceiling ∧
        now < p.expiresAt ∧ p.keyVersion ≠ keyVersion := by
  simp [staleRows, and_assoc]

theorem mem_rotationRows_of_mem {tenant cursor ceiling keyVersion : String} {now : ℤ} {batchSize : ℕ}
    (h : p ∈ s.rotationRows tenant cursor ceiling keyVersion now batchSize) :
    p ∈ s.payloads ∧ p.tenantId = tenant ∧ cursor < p.reference ∧ p.reference ≤ ceiling ∧
      now < p.expiresAt ∧ p.keyVersion ≠ keyVersion :=
  mem_staleRows.1 (List.mem_of_mem_take h)

theorem rotationRows_nodup (hkeys : s.PayloadKeys) {tenant cursor ceiling keyVersion : String}
    {now : ℤ} {batchSize : ℕ} : (s.rotationRows tenant cursor ceiling keyVersion now batchSize).Nodup := by
  refine (List.take_sublist _ _).nodup ((List.perm_insertionSort _ _).nodup_iff.2 ?_)
  exact List.filter_sublist.nodup (List.Nodup.of_map _ hkeys)

/-- What a batch leaves is behind its last row. -/
theorem mem_rotationRows_of_le (hkeys : s.PayloadKeys) {tenant cursor ceiling keyVersion : String}
    {now : ℤ} {batchSize : ℕ} {last : EncryptedPayload}
    (hlast : (s.rotationRows tenant cursor ceiling keyVersion now batchSize).getLast? = some last)
    (hp : p ∈ s.staleRows tenant cursor ceiling keyVersion now) (hle : p.reference ≤ last.reference) :
    p ∈ s.rotationRows tenant cursor ceiling keyVersion now batchSize := by
  have hmem := List.mem_of_getLast? hlast
  have hsorted : (s.staleRows tenant cursor ceiling keyVersion now).Pairwise
      fun a b => a.reference ≤ b.reference := List.pairwise_insertionSort _ _
  rw [← List.take_append_drop batchSize (s.staleRows _ _ _ _ _), List.pairwise_append] at hsorted
  have hp' := hp
  rw [← List.take_append_drop batchSize (s.staleRows _ _ _ _ _), List.mem_append] at hp'
  rcases hp' with htake | hdrop
  · exact htake
  -- a row left behind has a reference as great, so it would be the last one itself
  · have hreference := le_antisymm hle (hsorted.2.2 _ hmem _ hdrop)
    obtain ⟨hp, htenant, -⟩ := mem_staleRows.1 hp
    obtain ⟨hlast, hlastTenant, -⟩ := mem_rotationRows_of_mem hmem
    exact hkeys.eq_of_key hp hlast (Prod.ext (htenant.trans hlastTenant.symm) hreference) ▸ hmem

theorem staleRows_eq_nil {tenant cursor ceiling keyVersion : String} {now : ℤ} {batchSize : ℕ}
    (hbatch : 1 ≤ batchSize)
    (hnil : s.rotationRows tenant cursor ceiling keyVersion now batchSize = []) :
    s.staleRows tenant cursor ceiling keyVersion now = [] := by
  rcases List.take_eq_nil_iff.1 hnil with hzero | hnil
  · omega
  · exact hnil

/-- **A batch replaces its rows and no others.** -/
theorem rotateBatch_payloads {sv : Services} (huses : sv.UsesBlobs c) (hkeys : s.PayloadKeys)
    {tenant cursor ceiling keyVersion : String} {batchSize : ℕ} {rows : List EncryptedPayload}
    (hrows : s.rotationRows tenant cursor ceiling keyVersion (sv.clock 0) batchSize = rows)
    (h : s.rotateBatch sv tenant cursor ceiling keyVersion batchSize = .ok s') :
    List.Forall₂ (fun p q => p ∈ s.payloads ∧ if p ∈ rows then Rewrapped c p q else q = p)
      s.payloads s'.payloads := by
  unfold rotateBatch at h
  rw [hrows] at h
  have hmem : ∀ p ∈ rows, p ∈ s.payloads := fun p hp => (mem_rotationRows_of_mem (hrows ▸ hp)).1
  have hfirst : rows.zipIdx.map Prod.fst = rows := List.zipIdx_map_fst 0 rows
  -- the rows of the batch still to come are as they were read
  have hloop := Except.foldlM_of_invariant (fun rest t => (rest.map Prod.fst).Nodup ∧
    (∀ x ∈ rest, x.1 ∈ rows) ∧
    List.Forall₂ (fun p q => p ∈ s.payloads ∧
      if p ∈ rows ∧ p ∉ rest.map Prod.fst then Rewrapped c p q else q = p) s.payloads t.payloads)
    ?_ rows.zipIdx ⟨?_, ?_, ?_⟩ h
  · exact hloop.2.2.imp fun p q hpq => by simpa using hpq
  · rintro ⟨p, n⟩ rest t t' ⟨hnodup, hrest, hrel⟩ hstep
    obtain ⟨hfresh, hnodup⟩ := List.nodup_cons.1 hnodup
    obtain ⟨hp, hrest⟩ := List.forall_mem_cons.1 hrest
    obtain ⟨f, hpayloads, hp', hother⟩ := rewrap_payloads huses hstep
    refine ⟨hnodup, hrest, ?_⟩
    rw [hpayloads, List.forall₂_map_right_iff]
    refine hrel.imp fun p₁ q hq => ⟨hq.1, ?_⟩
    obtain ⟨hp₁, hq⟩ := hq
    by_cases hkey : p₁.key = p.key
    · obtain rfl := hkeys.eq_of_key hp₁ (hmem p hp) hkey
      rw [if_neg (by simp)] at hq
      subst hq
      rwa [if_pos ⟨hp, hfresh⟩]
    · have hqkey : q.key = p₁.key := by
        split at hq
        · exact hq.key
        · rw [hq]
      have hne : p₁ ≠ p := fun h => hkey (h ▸ rfl)
      rw [hother q (hqkey.trans_ne hkey)]
      have hmem : p₁ ∈ ((p, n) :: rest).map Prod.fst ↔ p₁ ∈ rest.map Prod.fst := by
        rw [List.map_cons, List.mem_cons, or_iff_right hne]
      rwa [if_congr (and_congr_right' (not_congr hmem)) rfl rfl] at hq
  · rw [hfirst]
    exact hrows ▸ rotationRows_nodup hkeys
  · exact fun x hx => List.fst_mem_of_mem_zipIdx hx
  · rw [hfirst, List.forall₂_same]
    exact fun p hp => ⟨hp, by simp⟩

end Store

namespace Store

/-- **The rows that a batch replaced are those that it read**, each once. -/
theorem replaced_perm {rows : List EncryptedPayload} (hkeys : s.PayloadKeys) (hnodup : rows.Nodup)
    (hrows : ∀ p ∈ rows, p ∈ s.payloads ∧ p.keyVersion ≠ c.keyVersion)
    (h : List.Forall₂ (fun p q => p ∈ s.payloads ∧ if p ∈ rows then Rewrapped c p q else q = p)
      s.payloads s'.payloads) :
    (s.payloads.filter fun p => p ∉ s'.payloads).Perm rows := by
  have hmem : ∀ p ∈ s.payloads, p ∉ s'.payloads ↔ p ∈ rows := by
    intro p hp
    constructor
    · intro hgone
      by_contra hrow
      obtain ⟨q, hq, -, hpq⟩ := h.exists_of_mem_left hp
      rw [if_neg hrow] at hpq
      exact hgone (hpq ▸ hq)
    · intro hrow hkept
      obtain ⟨q, hq, -, hqp⟩ := h.exists_of_mem_right hkept
      by_cases hqrow : q ∈ rows
      · rw [if_pos hqrow] at hqp
        refine (hrows p hrow).2 ?_
        rw [hqp.same]
      · rw [if_neg hqrow] at hqp
        exact hqrow (hqp ▸ hrow)
  refine (List.perm_ext_iff_of_nodup ((List.Nodup.of_map _ hkeys).filter _) hnodup).2 fun p => ?_
  rw [List.mem_filter, decide_eq_true_iff]
  exact ⟨fun hp => (hmem p hp.1).1 hp.2, fun hp => ⟨(hrows p hp).1, (hmem p (hrows p hp).1).2 hp⟩⟩

end Store

/-- What a rotation may do to a row: its binding, its expiry and its plaintext stand, and it is replaced
    if at all from another key to the current one, in the tenant of the rotation. -/
structure Kept (c : PayloadCipher) (tenant : String) (p q : EncryptedPayload) : Prop where
  same : q = { p with nonce := q.nonce, ciphertext := q.ciphertext, keyVersion := q.keyVersion }
  plaintext : c.plaintext q = c.plaintext p
  replaced : q = p ∨ p.tenantId = tenant ∧ p.keyVersion ≠ c.keyVersion ∧ q.keyVersion = c.keyVersion

namespace Kept

variable {tenant : String} {r : EncryptedPayload}

theorem refl (c : PayloadCipher) (tenant : String) (p : EncryptedPayload) : Kept c tenant p p :=
  ⟨rfl, rfl, .inl rfl⟩

theorem key (h : Kept c tenant p q) : q.key = p.key := by
  rw [h.same]
  rfl

/-- A batch comes to each row of the tenant under an old key. -/
theorem rewrapped (h : Kept c tenant p q) (htenant : q.tenantId = tenant)
    (hversion : q.keyVersion ≠ c.keyVersion) (hr : Rewrapped c q r) : Kept c tenant p r := by
  obtain rfl := h.replaced.resolve_right fun hold => hversion hold.2.2
  have hcurrent : r.keyVersion = c.keyVersion := by rw [hr.same]
  obtain ⟨content, hq, hr'⟩ := hr.plaintext
  refine ⟨?_, hr'.trans hq.symm, .inr ⟨htenant, hversion, hcurrent⟩⟩
  rw [hcurrent]
  exact hr.same

end Kept

/-! ## What is committed in between -/

namespace PayloadChange

variable {tenant : String} {ps qs : List EncryptedPayload} {change : PayloadChange}

theorem run_insert (ps : List EncryptedPayload) (p : EncryptedPayload) :
    (insert p).run ps = if p.key ∈ ps.map EncryptedPayload.key then ps else ps ++ [p] := rfl

theorem nodup_run (h : (ps.map EncryptedPayload.key).Nodup) :
    ((change.run ps).map EncryptedPayload.key).Nodup := by
  cases change with
  | insert p =>
    rw [run_insert]
    split
    · exact h
    · rename_i hfresh
      rw [List.map_append, List.map_singleton]
      exact h.append (List.nodup_singleton _) (List.disjoint_singleton.2 hfresh)
  | delete key => exact (List.filter_sublist.map _).nodup h

theorem forall₂_run (h : List.Forall₂ (Kept c tenant) ps qs) :
    List.Forall₂ (Kept c tenant) (change.run ps) (change.run qs) := by
  cases change with
  | insert p =>
    have hkeys : ps.map EncryptedPayload.key = qs.map EncryptedPayload.key :=
      (h.imp fun _ _ hpq => hpq.key.symm).map_eq
    rw [run_insert, run_insert, hkeys]
    split
    · exact h
    · exact List.rel_append h (.cons (.refl c tenant p) .nil)
  | delete key =>
    refine List.rel_filter (fun p q hpq => ?_) h
    simp only [hpq.key]

theorem mem_run (hp : p ∈ ps) (hdelete : change ≠ .delete p.key) : p ∈ change.run ps := by
  cases change with
  | insert p' =>
    rw [run_insert]
    split
    · exact hp
    · exact List.mem_append_left _ hp
  | delete key =>
    refine List.mem_filter.2 ⟨hp, ?_⟩
    simpa using fun h : p.key = key => hdelete (h ▸ rfl)

theorem reference_run (hp : p ∈ change.run ps) :
    p ∈ ps ∨ change.inserted = some p.reference := by
  cases change with
  | insert p' =>
    rw [run_insert] at hp
    split at hp
    · exact .inl hp
    · rcases List.mem_append.1 hp with hp | hp
      · exact .inl hp
      · exact .inr (by rw [List.mem_singleton.1 hp]; rfl)
  | delete key => exact .inl (List.mem_of_mem_filter hp)

variable {changes : List PayloadChange}

theorem nodup_runAll (h : (ps.map EncryptedPayload.key).Nodup) :
    ((runAll ps changes).map EncryptedPayload.key).Nodup := by
  induction changes generalizing ps with
  | nil => exact h
  | cons change changes ih => exact ih (nodup_run h)

theorem forall₂_runAll (h : List.Forall₂ (Kept c tenant) ps qs) :
    List.Forall₂ (Kept c tenant) (runAll ps changes) (runAll qs changes) := by
  induction changes generalizing ps qs with
  | nil => exact h
  | cons change changes ih => exact ih (forall₂_run h)

theorem mem_runAll (hp : p ∈ ps) (hdelete : .delete p.key ∉ changes) : p ∈ runAll ps changes := by
  induction changes generalizing ps with
  | nil => exact hp
  | cons change changes ih =>
    rw [List.mem_cons, not_or] at hdelete
    exact ih (mem_run hp (Ne.symm hdelete.1)) hdelete.2

theorem reference_runAll (hp : p ∈ runAll ps changes) :
    p ∈ ps ∨ p.reference ∈ changes.filterMap inserted := by
  induction changes generalizing ps with
  | nil => exact .inl hp
  | cons change changes ih =>
    rcases ih hp with hp | hp
    · refine (reference_run hp).imp_right fun h => ?_
      exact List.mem_filterMap.2 ⟨change, List.mem_cons_self, h⟩
    · refine .inr ?_
      obtain ⟨change', hchange, h⟩ := List.mem_filterMap.1 hp
      exact List.mem_filterMap.2 ⟨change', List.mem_cons_of_mem _ hchange, h⟩

end PayloadChange

/-! ## The whole rotation

Of every row of the start it is known where it stands: behind the cursor and still to come, rotated,
expired or gone. The count is the number of those that were rotated. -/

variable {k : KeyRotation} {ceiling : String} {x : RotationState} {last : EncryptedPayload}

namespace KeyRotation

/-- A row that the first `n` batches have seen to. -/
def Done (k : KeyRotation) (n : ℕ) (q : EncryptedPayload) : Prop :=
  q.keyVersion = k.cipher.keyVersion ∨ ∃ m < n, q.expiresAt ≤ (k.services m).clock 0

theorem Done.mono {n m : ℕ} (h : k.Done n q) (hle : n ≤ m) : k.Done m q :=
  h.imp_right fun ⟨i, hi, hexpired⟩ => ⟨i, hi.trans_le hle, hexpired⟩

theorem committed_succ (k : KeyRotation) (n : ℕ) :
    k.committed (n + 1) = k.committed n ++ k.between.getD n [] := by
  unfold committed
  rw [List.take_add_one, List.flatten_append, List.getD_eq_getElem?_getD]
  cases k.between[n]? <;> simp

/-- The three ends of a round. -/
theorem round_cases (k : KeyRotation) (ceiling : String) (x : RotationState) :
    (∃ e, k.round ceiling x = (k.begin x, some (.error (.storage e)))) ∨
    (k.rows ceiling x = [] ∧ k.round ceiling x = (k.begin x, some (.ok x.changed))) ∨
    ∃ last s', (k.rows ceiling x).getLast? = some last ∧
      (k.begin x).store.rotateBatch (k.services x.batches) k.tenantId x.cursor ceiling
        k.cipher.keyVersion k.batchSize = .ok s' ∧
      k.round ceiling x = (k.advance ceiling x last s', none) := by
  unfold round
  split
  · exact .inl ⟨_, rfl⟩
  · rename_i hnil
    exact .inr (.inl ⟨List.getLast?_eq_none_iff.1 hnil, rfl⟩)
  · rename_i hlast
    split
    · exact .inl ⟨_, rfl⟩
    · rename_i hbatch
      exact .inr (.inr ⟨_, _, hlast, hbatch, rfl⟩)

theorem mem_rows (hq : q ∈ k.rows ceiling x) :
    q ∈ (k.begin x).store.payloads ∧ q.tenantId = k.tenantId ∧ x.cursor < q.reference ∧
      q.keyVersion ≠ k.cipher.keyVersion := by
  obtain ⟨hmem, htenant, hcursor, -, -, hversion⟩ := Store.mem_rotationRows_of_mem hq
  exact ⟨hmem, htenant, hcursor, hversion⟩

theorem reference_le_last (hlast : (k.rows ceiling x).getLast? = some last)
    (hq : q ∈ k.rows ceiling x) : q.reference ≤ last.reference := by
  have hsorted : (k.rows ceiling x).Pairwise fun a b => a.reference ≤ b.reference :=
    (List.pairwise_insertionSort _ _).sublist (List.take_sublist _ _)
  obtain ⟨before, hrows⟩ := List.getLast?_eq_some_iff.1 hlast
  rw [hrows] at hq hsorted
  rcases List.mem_append.1 hq with hq | hq
  · exact (List.pairwise_append.1 hsorted).2.2 q hq last (List.mem_singleton_self _)
  · exact (List.mem_singleton.1 hq ▸ le_refl _)

/-- What the next batch does to a row. -/
def Batched (k : KeyRotation) (ceiling : String) (x : RotationState) (q r : EncryptedPayload) : Prop :=
  q ∈ (k.begin x).store.payloads ∧ if q ∈ k.rows ceiling x then Rewrapped k.cipher q r else r = q

theorem Batched.kept {r : EncryptedPayload} (h : k.Batched ceiling x q r)
    (hkept : Kept k.cipher k.tenantId p q) : Kept k.cipher k.tenantId p r := by
  obtain ⟨-, h⟩ := h
  split at h
  · rename_i hq
    exact hkept.rewrapped (mem_rows hq).2.1 (mem_rows hq).2.2.2 h
  · exact h ▸ hkept

end KeyRotation

/-- What holds between two batches of a rotation that began with the store `s`. -/
structure RotationInv (k : KeyRotation) (s : Store) (x : RotationState) : Prop where
  keys : x.store.PayloadKeys
  /-- Each row is what the others made of it, but for its encryption. -/
  kept : List.Forall₂ (Kept k.cipher k.tenantId)
    (PayloadChange.runAll s.payloads (k.committed x.batches)) x.store.payloads
  /-- A row of the start that nobody deleted is there, and done if it is behind the cursor. -/
  started : ∀ p ∈ s.payloads, .delete p.key ∉ k.committed x.batches →
    ∃ q ∈ x.store.payloads, Kept k.cipher k.tenantId p q ∧
      (p.tenantId = k.tenantId → p.reference ≤ x.cursor → k.Done x.batches q)
  replaced : (x.replaced.map EncryptedPayload.key).Nodup
  behind : ∀ p ∈ x.replaced, p.reference ≤ x.cursor
  changed : x.changed = x.replaced.length

namespace RotationInv

theorem start (hkeys : s.PayloadKeys) (hreferences : ∀ p ∈ s.payloads, p.reference ≠ "") :
    RotationInv k s { store := s } where
  keys := hkeys
  kept := List.forall₂_same.2 fun p _ => .refl _ _ p
  started p hp _ := by
    refine ⟨p, hp, .refl _ _ p, fun _ hle => absurd (le_antisymm hle ?_) (hreferences p hp)⟩
    exact String.le_iff_toList_le.2 (not_lt.1 (List.not_lt_nil _))
  replaced := List.nodup_nil
  behind _ hp := absurd hp List.not_mem_nil
  changed := rfl

theorem begin (h : RotationInv k s x) : RotationInv k s (k.begin x) where
  keys := PayloadChange.nodup_runAll h.keys
  kept := by
    have hall : PayloadChange.runAll s.payloads (k.committed (x.batches + 1)) =
        PayloadChange.runAll (PayloadChange.runAll s.payloads (k.committed x.batches))
          (k.between.getD x.batches []) := by
      rw [k.committed_succ]
      exact List.foldl_append
    show List.Forall₂ _ (PayloadChange.runAll s.payloads (k.committed (x.batches + 1))) _
    rw [hall]
    exact PayloadChange.forall₂_runAll h.kept
  started p hp hdelete := by
    change _ ∉ k.committed (x.batches + 1) at hdelete
    rw [k.committed_succ, List.mem_append, not_or] at hdelete
    obtain ⟨q, hq, hkept, hdone⟩ := h.started p hp hdelete.1
    refine ⟨q, PayloadChange.mem_runAll hq (hkept.key ▸ hdelete.2), hkept, fun htenant hle => ?_⟩
    exact (hdone htenant hle).mono (Nat.le_succ _)
  replaced := h.replaced
  behind := h.behind
  changed := h.changed

/-- Every row of the start is done up to the last row of a batch. -/
theorem advance_started (h : RotationInv k s x)
    (hceiling : ∀ p ∈ s.payloads, p.tenantId = k.tenantId → p.reference ≤ ceiling)
    (hlast : (k.rows ceiling x).getLast? = some last)
    (hrel : List.Forall₂ (k.Batched ceiling x) (k.begin x).store.payloads s'.payloads)
    (hp : p ∈ s.payloads) (hdelete : .delete p.key ∉ k.committed (x.batches + 1)) :
    ∃ q ∈ s'.payloads, Kept k.cipher k.tenantId p q ∧
      (p.tenantId = k.tenantId → p.reference ≤ last.reference → k.Done (x.batches + 1) q) := by
  obtain ⟨q, hq, hkept, hdone⟩ := h.begin.started p hp hdelete
  obtain ⟨r, hr, hqr⟩ := hrel.exists_of_mem_left hq
  refine ⟨r, hr, hqr.kept hkept, fun htenant hle => ?_⟩
  obtain ⟨-, hqr⟩ := hqr
  split at hqr
  · exact .inl (by rw [hqr.same])
  · rename_i hrow
    subst hqr
    rcases le_or_gt p.reference x.cursor with hbehind | hahead
    · exact hdone htenant hbehind
    -- what the batch passed over had expired, or has the current key
    · by_contra hnot
      simp only [KeyRotation.Done, not_or, not_exists, not_and, not_le] at hnot
      obtain ⟨hqTenant, hqReference⟩ := Prod.mk.inj hkept.key
      refine hrow (Store.mem_rotationRows_of_le h.begin.keys hlast (Store.mem_staleRows.2 ⟨hq, ?_⟩) ?_)
      · rw [hqTenant, hqReference]
        exact ⟨htenant, hahead, hceiling p hp htenant, hnot.2 x.batches (Nat.lt_succ_self _), hnot.1⟩
      · rw [hqReference]
        exact hle

/-- **Step lemma.** -/
theorem advance (h : RotationInv k s x) (huses : (k.services x.batches).UsesBlobs k.cipher)
    (hceiling : ∀ p ∈ s.payloads, p.tenantId = k.tenantId → p.reference ≤ ceiling)
    (hlast : (k.rows ceiling x).getLast? = some last)
    (hbatch : (k.begin x).store.rotateBatch (k.services x.batches) k.tenantId x.cursor ceiling
      k.cipher.keyVersion k.batchSize = .ok s') :
    RotationInv k s (k.advance ceiling x last s') := by
  have hrel : List.Forall₂ (k.Batched ceiling x) (k.begin x).store.payloads s'.payloads :=
    Store.rotateBatch_payloads huses h.begin.keys rfl hbatch
  have hperm : ((k.begin x).store.payloads.filter fun p => p ∉ s'.payloads).Perm (k.rows ceiling x) :=
    Store.replaced_perm h.begin.keys (Store.rotationRows_nodup h.begin.keys)
      (fun q hq => ⟨(KeyRotation.mem_rows hq).1, (KeyRotation.mem_rows hq).2.2.2⟩) hrel
  have hkeys : (k.begin x).store.payloads.map EncryptedPayload.key =
      s'.payloads.map EncryptedPayload.key :=
    (hrel.imp fun q r hqr => (hqr.kept (.refl _ _ q)).key.symm).map_eq
  exact
    { keys := (congrArg List.Nodup hkeys).mp h.begin.keys
      kept := h.begin.kept.comp (fun _ _ _ hkept hqr => hqr.kept hkept) hrel
      started := fun p hp hdelete => h.advance_started hceiling hlast hrel hp hdelete
      replaced := by
        show ((x.replaced ++ _).map EncryptedPayload.key).Nodup
        rw [List.map_append]
        refine h.replaced.append (List.filter_sublist.map _ |>.nodup h.begin.keys) ?_
        -- what was replaced before is behind the cursor, what is now is not
        intro key hold hnew
        obtain ⟨p, hp, rfl⟩ := List.mem_map.1 hold
        obtain ⟨q, hq, hkey⟩ := List.mem_map.1 hnew
        have hahead := (KeyRotation.mem_rows (hperm.mem_iff.1 hq)).2.2.1
        rw [(Prod.mk.inj hkey).2] at hahead
        exact absurd (h.behind p hp) (not_le.2 hahead)
      behind := fun p hp => by
        rcases List.mem_append.1 hp with hp | hp
        · exact (h.behind p hp).trans (KeyRotation.mem_rows (List.mem_of_getLast? hlast)).2.2.1.le
        · exact KeyRotation.reference_le_last hlast (hperm.mem_iff.1 hp)
      changed := by
        show x.changed + _ = (x.replaced ++ _).length
        rw [List.length_append, hperm.length_eq, h.changed] }

end RotationInv

/-- How a rotation ends: every row of the start that nobody deleted is done. -/
def KeyRotation.Finished (k : KeyRotation) (s : Store) (x : RotationState) : Prop :=
  ∀ p ∈ s.payloads, p.tenantId = k.tenantId → .delete p.key ∉ k.committed x.batches →
    ∃ q ∈ x.store.payloads, Kept k.cipher k.tenantId p q ∧ k.Done x.batches q

/-- The last round finds no row left. -/
theorem RotationInv.finished (h : RotationInv k s x) (hbatch : 1 ≤ k.batchSize)
    (hceiling : ∀ p ∈ s.payloads, p.tenantId = k.tenantId → p.reference ≤ ceiling)
    (hnil : k.rows ceiling x = []) : k.Finished s (k.begin x) := by
  intro p hp htenant hdelete
  obtain ⟨q, hq, hkept, hdone⟩ := h.begin.started p hp hdelete
  refine ⟨q, hq, hkept, ?_⟩
  rcases le_or_gt p.reference x.cursor with hbehind | hahead
  · exact hdone htenant hbehind
  · by_contra hnot
    simp only [KeyRotation.Done, not_or, not_exists, not_and, not_le] at hnot
    obtain ⟨hqTenant, hqReference⟩ := Prod.mk.inj hkept.key
    have hstale := Store.mem_staleRows.2 ⟨hq, hqTenant.trans htenant, hqReference ▸ hahead,
      hqReference ▸ hceiling p hp htenant, hnot.2 x.batches (Nat.lt_succ_self _), hnot.1⟩
    rw [Store.staleRows_eq_nil hbatch hnil] at hstale
    cases hstale

section Rounds

variable (hservices : ∀ n, (k.services n).UsesBlobs k.cipher) (hbatch : 1 ≤ k.batchSize)
  (hceiling : ∀ p ∈ s.payloads, p.tenantId = k.tenantId → p.reference ≤ ceiling)

include hservices hbatch hceiling

/-- **Run lemma.** -/
theorem RotationInv.rounds (h : RotationInv k s x) (fuel : ℕ) :
    RotationInv k s (k.rounds ceiling fuel x).1 ∧
      ∀ count, (k.rounds ceiling fuel x).2 = some (.ok count) →
        count = (k.rounds ceiling fuel x).1.changed ∧ k.Finished s (k.rounds ceiling fuel x).1 := by
  induction fuel generalizing x with
  | zero => exact ⟨h, fun count hcount => by cases hcount⟩
  | succ fuel ih =>
    unfold KeyRotation.rounds
    rcases k.round_cases ceiling x with ⟨e, hround⟩ | ⟨hnil, hround⟩ | ⟨last, s', hlast, hok, hround⟩
    · rw [hround]
      exact ⟨h.begin, fun count hcount => by cases hcount⟩
    · rw [hround]
      refine ⟨h.begin, fun count hcount => ?_⟩
      cases hcount
      exact ⟨rfl, h.finished hbatch hceiling hnil⟩
    · rw [hround]
      exact ih (h.advance (hservices _) hceiling hlast hok)

end Rounds

/-! ## Termination

The references behind the cursor get fewer with every round. References that others insert in the
meantime are finitely many as well, as each round has a finite list of changes. -/

namespace KeyRotation

/-- The references of all payloads that there ever are. -/
def references (k : KeyRotation) (s : Store) : List String :=
  s.payloads.map (·.reference) ++ k.between.flatten.filterMap PayloadChange.inserted

/-- How many of them are ahead of the cursor. -/
def ahead (k : KeyRotation) (s : Store) (x : RotationState) : ℕ :=
  ((k.references s).filter (x.cursor < ·)).length

end KeyRotation

theorem RotationInv.reference_mem (h : RotationInv k s x) (hq : q ∈ x.store.payloads) :
    q.reference ∈ k.references s := by
  obtain ⟨p, hp, hkept⟩ := h.kept.exists_of_mem_right hq
  rw [(Prod.mk.inj hkept.key).2]
  rcases PayloadChange.reference_runAll hp with hp | hp
  · exact List.mem_append_left _ (List.mem_map_of_mem hp)
  · refine List.mem_append_right _ ?_
    obtain ⟨change, hchange, hinserted⟩ := List.mem_filterMap.1 hp
    obtain ⟨changes, hchanges, hmem⟩ := List.mem_flatten.1 hchange
    exact List.mem_filterMap.2 ⟨change, List.mem_flatten.2 ⟨changes, List.mem_of_mem_take hchanges, hmem⟩,
      hinserted⟩

/-- Every batch takes at least one of them. -/
theorem RotationInv.ahead_advance (h : RotationInv k s x) (hlast : (k.rows ceiling x).getLast? = some last)
    (s' : Store) : k.ahead s (k.advance ceiling x last s') < k.ahead s x := by
  obtain ⟨hmem, -, hcursor, -⟩ := KeyRotation.mem_rows (List.mem_of_getLast? hlast)
  have hreference := h.begin.reference_mem hmem
  have hfilter : ((k.references s).filter (last.reference < ·)) =
      ((k.references s).filter (x.cursor < ·)).filter (last.reference < ·) := by
    rw [List.filter_filter]
    refine List.filter_congr fun r _ => ?_
    rw [eq_comm, Bool.and_eq_left_iff_imp, decide_eq_true_iff, decide_eq_true_iff]
    exact hcursor.trans
  show ((k.references s).filter (last.reference < ·)).length < _
  rw [hfilter]
  refine List.length_filter_lt_length_iff_exists.2 ⟨last.reference, ?_, by simp⟩
  exact List.mem_filter.2 ⟨hreference, by simpa using hcursor⟩

/-- **A rotation ends**: each round moves the cursor over a reference. -/
theorem RotationInv.rounds_isSome (hservices : ∀ n, (k.services n).UsesBlobs k.cipher)
    (hceiling : ∀ p ∈ s.payloads, p.tenantId = k.tenantId → p.reference ≤ ceiling)
    (h : RotationInv k s x) {fuel : ℕ} (hfuel : k.ahead s x < fuel) :
    (k.rounds ceiling fuel x).2.isSome := by
  induction fuel generalizing x with
  | zero => omega
  | succ fuel ih =>
    unfold KeyRotation.rounds
    rcases k.round_cases ceiling x with ⟨e, hround⟩ | ⟨hnil, hround⟩ | ⟨last, s', hlast, hok, hround⟩
    · rw [hround]
      rfl
    · rw [hround]
      rfl
    · rw [hround]
      have hless := h.ahead_advance hlast s'
      exact ih (h.advance (hservices _) hceiling hlast hok) (by omega)

theorem KeyRotation.le_ceiling (k : KeyRotation) (hp : p ∈ s.payloads) (htenant : p.tenantId = k.tenantId) :
    p.reference ≤ k.ceiling s := by
  have hmem : p.reference ∈ (s.payloads.filter fun p => p.tenantId = k.tenantId).map (·.reference) :=
    List.mem_map_of_mem (List.mem_filter.2 ⟨hp, by simpa using htenant⟩)
  unfold ceiling
  cases hmax : ((s.payloads.filter fun p => p.tenantId = k.tenantId).map (·.reference)).max? with
  | none =>
    rw [List.max?_eq_none_iff.1 hmax] at hmem
    cases hmem
  | some r => exact (List.max?_eq_some_iff.1 hmax).2 _ hmem

theorem KeyRotation.rotateKey_of_pos (k : KeyRotation) (hbatch : 1 ≤ k.batchSize) (s : Store) (fuel : ℕ) :
    k.rotateKey s fuel = k.rounds (k.ceiling s) fuel { store := s } := by
  unfold rotateKey
  rw [if_neg (by omega)]

end Batch

/-- **Key rotation.** Whatever others commit between the batches, `rotate_key` ends. At any point, also
    where it stops with an error, each row is what the others made of it but for its encryption, and its
    plaintext, binding and expiry stand; rows of other tenants are untouched. When it returns, what it
    counts are the rows it replaced, each once, and every row of the start that is still there and has
    not expired is under the current key, if the wall clock that each batch reads did not go back from one
    batch to the next (`hclock`). (References are `uid()`s, never empty.) -/
theorem rotateKey_rotates {k : KeyRotation} (hservices : ∀ n, (k.services n).UsesBlobs k.cipher)
    (hclock : Monotone fun n => (k.services n).clock 0) (hbatch : 1 ≤ k.batchSize) {s : Store}
    (hkeys : s.PayloadKeys) (hreferences : ∀ p ∈ s.payloads, p.reference ≠ "") :
    (∀ fuel, s.payloads.length + k.between.flatten.length < fuel → (k.rotateKey s fuel).2.isSome) ∧
    ∀ fuel x result, k.rotateKey s fuel = (x, result) →
      List.Forall₂ (Kept k.cipher k.tenantId)
        (PayloadChange.runAll s.payloads (k.committed x.batches)) x.store.payloads ∧
      ∀ count, result = some (.ok count) →
        count = x.replaced.length ∧ (x.replaced.map EncryptedPayload.key).Nodup ∧
        ∀ p ∈ s.payloads, p.tenantId = k.tenantId → .delete p.key ∉ k.committed x.batches →
          (k.services (x.batches - 1)).clock 0 < p.expiresAt →
          ∃ q ∈ x.store.payloads, Kept k.cipher k.tenantId p q ∧ q.keyVersion = k.cipher.keyVersion := by
  have hstart : RotationInv k s { store := s } := .start hkeys hreferences
  have hceiling : ∀ p ∈ s.payloads, p.tenantId = k.tenantId → p.reference ≤ k.ceiling s :=
    fun p hp htenant => k.le_ceiling hp htenant
  refine ⟨fun fuel hfuel => ?_, fun fuel x result hrun => ?_⟩
  · rw [k.rotateKey_of_pos hbatch]
    refine hstart.rounds_isSome hservices hceiling (lt_of_le_of_lt ?_ hfuel)
    have hlength : (k.references s).length ≤ s.payloads.length + k.between.flatten.length := by
      rw [KeyRotation.references, List.length_append, List.length_map]
      exact Nat.add_le_add_left (List.length_filterMap_le _ _) _
    exact (List.length_filter_le _ _).trans hlength
  · rw [k.rotateKey_of_pos hbatch] at hrun
    obtain ⟨hinv, hfinished⟩ := hstart.rounds hservices hbatch hceiling fuel
    rw [hrun] at hinv hfinished
    refine ⟨hinv.kept, fun count hcount => ?_⟩
    obtain ⟨hcount, hdone⟩ := hfinished count hcount
    refine ⟨hcount.trans hinv.changed, hinv.replaced, fun p hp htenant hdelete hexpiry => ?_⟩
    obtain ⟨q, hq, hkept, hcurrent | ⟨m, hm, hexpired⟩⟩ := hdone p hp htenant hdelete
    · exact ⟨q, hq, hkept, hcurrent⟩
    · have hle : (k.services m).clock 0 ≤ (k.services (x.batches - 1)).clock 0 :=
        hclock (Nat.le_sub_one_of_lt hm)
      rw [hkept.same] at hexpired
      exact absurd (hexpired.trans hle) (not_le.2 hexpiry)

/-! Two rows of an old key, one of which is deleted between the batches. -/

namespace RotatedStore

/-- Puts the associated data in front. -/
def aead : Crypto.Aead where
  encrypt _ content aad := aad ++ content
  decrypt _ ciphertext aad := if aad <+: ciphertext then some (ciphertext.drop aad.length) else none
  decrypt_encrypt _ content aad := by
    rw [if_pos (List.prefix_append aad content), List.drop_left]

/-- A cipher of two keys that seals with the second. -/
def ring : PayloadCipher :=
  { ciphers := fun version => if version = "k1" ∨ version = "k2" then some aead else none
    keyVersion := "k2"
    current := rfl }

/-- A nonce that begins with `k`. -/
def nonce (k : ℕ) : Nonce := ⟨UInt8.ofNat k :: List.replicate 11 0, rfl⟩

/-- A payload that is sealed with the first key. -/
def row (reference : String) (k : ℕ) : EncryptedPayload :=
  { reference
    tenantId := "acme"
    interactionId := "i1"
    field := "input"
    nonce := blobText (nonce k).1
    ciphertext := blobText (Bytes.encodeText "acme|i1|inputhello".toList)
    keyVersion := "k1"
    expiresAt := 100 }

/-- A store of two such payloads. -/
def stored : Store := { payloads := [row "b" 1, row "a" 2] }

/-- Services that seal with the second key. -/
def services (n : ℕ) : Services :=
  { SupportStore.services 0 with
    encrypt := fun k content => ring.sealBlob (nonce (10 * n + k)) "r" (blobBytes content)
    decrypt := fun p tenant interaction field => (ring.openBlob p tenant interaction field).map blobText }

/-- A rotation of the tenant in batches of one, between which one payload goes and another comes. -/
def rotation : KeyRotation :=
  { tenantId := "acme"
    cipher := ring
    batchSize := 1
    services
    between := [[], [.delete ("acme", "b"), .insert (row "c" 3)]]
    failure := fun _ => none }

end RotatedStore

open RotatedStore in
theorem rotatedStore_row : ∃ q ∈ (rotation.rotateKey stored 5).1.store.payloads,
    Kept ring "acme" (row "a" 2) q ∧ q.keyVersion = "k2" := by
  have hkeys : stored.PayloadKeys := by
    unfold Store.PayloadKeys
    decide +kernel
  have hrun := (rotateKey_rotates (k := rotation) (fun _ => ⟨fun _ => ⟨_, _, fun _ _ _ _ _ => rfl⟩,
    fun _ _ _ _ => rfl⟩) monotone_const (le_refl 1) hkeys (by decide +kernel)).2 5
    (rotation.rotateKey stored 5).1 (rotation.rotateKey stored 5).2 rfl
  have hbatches : (rotation.rotateKey stored 5).1.batches = 2 := by decide +kernel
  refine (hrun.2 1 (by decide +kernel)).2.2 (row "a" 2) (by decide +kernel) rfl ?_ (by decide)
  rw [hbatches]
  decide +kernel

namespace RotatedStore

/-- One row more, that expires later, -/
def skippedStore : Store := { payloads := [row "a" 1, { row "b" 2 with expiresAt := 300 }] }

/-- and a clock that is set back after the first batch. -/
def setBack : KeyRotation :=
  { rotation with
    services := fun n => { services n with clock := fun _ => if n = 0 then 200 else 50 }
    between := [] }

end RotatedStore

open RotatedStore in
/-- The first batch passes over a row that has expired on its clock. The clock is set back, the row has not
    expired when the call returns, and it is still under the old key. -/
theorem rotateKey_setBack : ¬∀ (k : KeyRotation) (s : Store) (fuel : ℕ) (x : RotationState) (count : ℕ),
    (∀ n, (k.services n).UsesBlobs k.cipher) → 1 ≤ k.batchSize → s.PayloadKeys →
      (∀ p ∈ s.payloads, p.reference ≠ "") → k.rotateKey s fuel = (x, some (.ok count)) →
      ∀ p ∈ s.payloads, p.tenantId = k.tenantId → .delete p.key ∉ k.committed x.batches →
        (k.services (x.batches - 1)).clock 0 < p.expiresAt →
        ∃ q ∈ x.store.payloads, Kept k.cipher k.tenantId p q ∧ q.keyVersion = k.cipher.keyVersion := by
  intro hclaim
  have hkeys : skippedStore.PayloadKeys := by
    unfold Store.PayloadKeys
    decide +kernel
  have hcount : (setBack.rotateKey skippedStore 5).2 = some (.ok 1) := by decide +kernel
  have hbatches : (setBack.rotateKey skippedStore 5).1.batches = 2 := by decide +kernel
  have hclock : (setBack.services ((setBack.rotateKey skippedStore 5).1.batches - 1)).clock 0 <
      (row "a" 1).expiresAt := by
    rw [hbatches]
    decide +kernel
  obtain ⟨q, hq, hkept, hcurrent⟩ := hclaim setBack skippedStore 5 (setBack.rotateKey skippedStore 5).1 1
    (fun _ => ⟨fun _ => ⟨_, _, fun _ _ _ _ _ => rfl⟩, fun _ _ _ _ => rfl⟩) (le_refl 1)
    hkeys (by decide +kernel)
    (Prod.ext rfl hcount) (row "a" 1) (by decide +kernel) rfl List.not_mem_nil hclock
  -- the only row with this key has the old version
  have hold : ∀ q ∈ (setBack.rotateKey skippedStore 5).1.store.payloads,
      q.key = ("acme", "a") → q.keyVersion = "k1" := by decide +kernel
  rw [hold q hq hkept.key] at hcurrent
  exact absurd hcurrent (by decide)

end Stored

end AdaptiveLlm
