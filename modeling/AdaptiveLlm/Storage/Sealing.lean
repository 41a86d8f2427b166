import AdaptiveLlm.Storage.Changes
import AdaptiveLlm.Storage.Crypto

set_option autoImplicit false

/-! # Services over the payload cipher

What the encryptions of a call are: those of `PayloadCipher` under the keyring of the process, whose
nonce, ciphertext and text go through the columns of the payload table. The rings of different calls
differ while keys are rotated, and are parts of one ring with every key there is.

Rings of different calls have keys in common, and what one ring seals another opens if it has the
key. So a text in the store is related to the ring of all keys, and the rings of single calls come
in only where something is encrypted or decrypted. -/

namespace AdaptiveLlm

open Crypto (PayloadCipher Nonce)

/-! ## Columns -/

/-- A BLOB column, a character a byte. -/
def blobText (bytes : List UInt8) : String := String.ofList (bytes.map fun b => Char.ofNat b.toNat)

/-- The bytes of a blob, which the model holds as characters. -/
def blobBytes (text : String) : List UInt8 := text.toList.map fun c => UInt8.ofNat c.toNat

theorem toNat_ofNat_byte : ∀ n < 256, (Char.ofNat n).toNat = n := by decide +kernel

theorem blobBytes_blobText (bytes : List UInt8) : blobBytes (blobText bytes) = bytes := by
  unfold blobBytes blobText
  rw [String.toList_ofList, List.map_map]
  refine (List.map_congr_left fun b _ => ?_).trans (List.map_id bytes)
  rw [Function.comp_apply, toNat_ofNat_byte b.toNat b.toNat_lt, id_eq, UInt8.ofNat_toNat]

namespace Crypto.PayloadCipher

variable (c : PayloadCipher)

/-- `encrypt` of a text, with the nonce and the reference that it draws. -/
def sealText (nonce : Nonce) (reference content tenant interaction field : String) (expiry : ℤ) :
    Stored.StoreResult Stored.EncryptedPayload :=
  match c.encrypt nonce (Bytes.encodeText content.toList) tenant interaction field none with
  | .error _ => .error .invalidPayloadBinding
  | .ok p => .ok {
      reference
      tenantId := tenant
      interactionId := interaction
      field := p.field
      nonce := blobText p.nonce
      ciphertext := blobText p.ciphertext
      keyVersion := p.keyVersion
      expiresAt := expiry }

/-- `decrypt` of a text. -/
def openText (p : Stored.EncryptedPayload) (tenant interaction field : String) : Option String :=
  let payload : EncryptedPayload := {
    field := p.field
    nonce := blobBytes p.nonce
    ciphertext := blobBytes p.ciphertext
    keyVersion := p.keyVersion }
  match c.decrypt payload tenant interaction field none with
  | .error _ => none
  | .ok content => (Bytes.decodeText content).map String.ofList

/-- Every key of the ring is one of `ring`. -/
def Within (ring : PayloadCipher) : Prop :=
  ∀ version aead, c.ciphers version = some aead → ring.ciphers version = some aead

variable {c}

theorem sealText_eq_ok {nonce : Nonce} {reference content tenant interaction field : String}
    {expiry : ℤ} {p : Stored.EncryptedPayload}
    (h : c.sealText nonce reference content tenant interaction field expiry = .ok p) :
    ∃ payload, c.encrypt nonce (Bytes.encodeText content.toList) tenant interaction field none =
      .ok payload ∧ p = {
        reference
        tenantId := tenant
        interactionId := interaction
        field := payload.field
        nonce := blobText payload.nonce
        ciphertext := blobText payload.ciphertext
        keyVersion := payload.keyVersion
        expiresAt := expiry } := by
  unfold sealText at h
  split at h
  · cases h
  · rename_i payload hpayload
    cases h
    exact ⟨payload, hpayload, rfl⟩

/-- A text opens as it was sealed. -/
theorem openText_of_sealText {nonce : Nonce} {reference content tenant interaction field : String}
    {expiry : ℤ} {p : Stored.EncryptedPayload}
    (h : c.sealText nonce reference content tenant interaction field expiry = .ok p) :
    c.openText p tenant interaction field = some content := by
  obtain ⟨payload, hpayload, rfl⟩ := sealText_eq_ok h
  unfold openText
  dsimp only
  rw [blobBytes_blobText, blobBytes_blobText, decrypt_of_encrypt_eq_ok hpayload]
  simp [Bytes.decodeText_encodeText]

/-- A ring opens what a ring within it opens, -/
theorem Within.openText {ring : PayloadCipher} (h : c.Within ring) {p : Stored.EncryptedPayload}
    {tenant interaction field text : String}
    (hopen : c.openText p tenant interaction field = some text) :
    ring.openText p tenant interaction field = some text := by
  unfold PayloadCipher.openText decrypt at *
  dsimp only at *
  cases hcipher : c.ciphers p.keyVersion with
  | none => simp [hcipher] at hopen
  | some aead =>
    rw [hcipher] at hopen
    rwa [h _ _ hcipher]

/-- and with the key of a payload, opens it alike. -/
theorem Within.openText_eq {ring : PayloadCipher} (h : c.Within ring) {p : Stored.EncryptedPayload}
    (hkey : (c.ciphers p.keyVersion).isSome) (tenant interaction field : String) :
    c.openText p tenant interaction field = ring.openText p tenant interaction field := by
  obtain ⟨aead, haead⟩ := Option.isSome_iff_exists.1 hkey
  unfold PayloadCipher.openText decrypt
  dsimp only
  rw [haead, h _ _ haead]

end Crypto.PayloadCipher

namespace Stored

/-- `PayloadCipher.encrypt` writes what a payload is bound to, and its expiry, into the payload. -/
structure Services.Binds (sv : Services) : Prop where
  encrypt : ∀ {k : ℕ} {content tenant id field : String} {expiry : ℤ} {p : EncryptedPayload},
    sv.encrypt k content tenant id field expiry = .ok p →
      p.tenantId = tenant ∧ p.interactionId = id ∧ p.field = field ∧ p.expiresAt = expiry

/-- The encryptions of a call are those of a cipher. -/
structure Services.Uses (sv : Services) (c : PayloadCipher) : Prop where
  encrypt : ∀ k, ∃ nonce reference, ∀ content tenant id field expiry,
    sv.encrypt k content tenant id field expiry =
      c.sealText nonce reference content tenant id field expiry
  decrypt : ∀ p tenant id field, sv.decrypt p tenant id field = c.openText p tenant id field

theorem Services.Uses.binds {sv : Services} {c : PayloadCipher} (h : sv.Uses c) : sv.Binds where
  encrypt {k content tenant id field expiry p} hp := by
    obtain ⟨nonce, reference, hencrypt⟩ := h.encrypt k
    rw [hencrypt] at hp
    obtain ⟨payload, hpayload, rfl⟩ := PayloadCipher.sealText_eq_ok hp
    exact ⟨rfl, rfl, (PayloadCipher.encrypt_eq_ok hpayload).1, rfl⟩

/-- What a call encrypts, the ring opens. -/
theorem Services.Uses.openText {sv : Services} {c ring : PayloadCipher} (h : sv.Uses c)
    (hwithin : c.Within ring) {k : ℕ} {content tenant interaction field : String} {expiry : ℤ}
    {p : EncryptedPayload} (hp : sv.encrypt k content tenant interaction field expiry = .ok p) :
    ring.openText p tenant interaction field = some content := by
  obtain ⟨nonce, reference, hencrypt⟩ := h.encrypt k
  rw [hencrypt] at hp
  exact hwithin.openText (PayloadCipher.openText_of_sealText hp)

end Stored

end AdaptiveLlm
