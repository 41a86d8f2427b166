import AdaptiveLlm.Lib.Bytes
import AdaptiveLlm.Lib.Except

set_option autoImplicit false

/-! # Payload encryption

`PayloadCipher` (`storage/crypto.py`) encrypts under the current key of its ring and binds each
ciphertext to a tenant, an interaction and a field. AES-GCM is a parameter: decryption inverts
encryption under one key, nonce and binding.

The binding is the associated data of the cipher, made of the tenant, the interaction and the field
with a separator between them; one that has the separator in it is refused, so different bindings
have different texts. A ring has a current version, and keys of older versions for decryption. A row
names the version that it was encrypted under. -/

namespace AdaptiveLlm

namespace Crypto

/-- What `secrets.token_bytes(12)` draws. -/
def Nonce : Type := { bytes : List UInt8 // bytes.length = 12 }

/-- `AESGCM` under one key; `none` is `InvalidTag`. -/
structure Aead where
  /-- nonce, content, associated data -/
  encrypt : Nonce → List UInt8 → List UInt8 → List UInt8
  decrypt : List UInt8 → List UInt8 → List UInt8 → Option (List UInt8)
  decrypt_encrypt : ∀ nonce content aad,
    decrypt nonce.1 (encrypt nonce content aad) aad = some content

/-- How the store can refuse a call. -/
inductive StorageError where
  | invalidPayloadBinding
  | unknownPayloadKeyVersion
  | payloadAuthenticationFailed
  deriving DecidableEq, Repr

/-- What `decrypt` reads of a payload. -/
structure EncryptedPayload where
  field : String
  nonce : List UInt8
  ciphertext : List UInt8
  keyVersion : String

/-- `PayloadCipher`: a cipher for each version of the key, and the version that seals. -/
structure PayloadCipher where
  ciphers : String → Option Aead
  keyVersion : String
  current : (ciphers keyVersion).isSome

namespace PayloadCipher

/-- The cipher of the current key. -/
def currentCipher (c : PayloadCipher) : Aead := (c.ciphers c.keyVersion).get c.current

theorem ciphers_keyVersion (c : PayloadCipher) : c.ciphers c.keyVersion = some c.currentCipher :=
  (Option.some_get c.current).symm

/-- `_aad`. -/
def aad (tenantId interactionId field : String) : Except StorageError (List UInt8) :=
  if [tenantId, interactionId, field].any (·.toList.contains '|') then
    .error .invalidPayloadBinding
  else .ok (Bytes.encodeText
    (tenantId.toList ++ '|' :: interactionId.toList ++ '|' :: field.toList))

/-- `aad_field or field`. -/
def boundField (field : String) (aadField : Option String) : String :=
  (aadField.filter (· ≠ "")).getD field

/-- `encrypt`, bound to the tenant, the interaction and the field. -/
def encrypt (c : PayloadCipher) (nonce : Nonce) (content : List UInt8)
    (tenantId interactionId field : String) (aadField : Option String) :
    Except StorageError EncryptedPayload := do
  let aad ← aad tenantId interactionId (boundField field aadField)
  .ok
    { field
      nonce := nonce.1
      ciphertext := c.currentCipher.encrypt nonce content aad
      keyVersion := c.keyVersion }

/-- `decrypt`, which checks the same binding. -/
def decrypt (c : PayloadCipher) (payload : EncryptedPayload)
    (tenantId interactionId field : String) (aadField : Option String) :
    Except StorageError (List UInt8) :=
  match c.ciphers payload.keyVersion with
  | none => .error .unknownPayloadKeyVersion
  | some aead =>
    if payload.field ≠ field then .error .payloadAuthenticationFailed
    else do
      let aad ← aad tenantId interactionId (boundField field aadField)
      match aead.decrypt payload.nonce payload.ciphertext aad with
      | some content => .ok content
      | none => .error .payloadAuthenticationFailed

/-- **Decryption inverts encryption** under the binding it was made with. -/
theorem decrypt_of_encrypt_eq_ok {c : PayloadCipher} {nonce : Nonce} {content : List UInt8}
    {tenantId interactionId field : String} {aadField : Option String} {payload : EncryptedPayload}
    (h : c.encrypt nonce content tenantId interactionId field aadField = .ok payload) :
    c.decrypt payload tenantId interactionId field aadField = .ok content := by
  obtain ⟨bound, hbound, h⟩ := Except.bind_eq_ok.1 h
  cases h
  simp only [decrypt, ciphers_keyVersion, ne_eq, not_true_eq_false, if_false, hbound,
    Except.ok_bind]
  rw [Aead.decrypt_encrypt]

/-- What an encryption says of itself. -/
theorem encrypt_eq_ok {c : PayloadCipher} {nonce : Nonce} {content : List UInt8}
    {tenantId interactionId field : String} {aadField : Option String} {payload : EncryptedPayload}
    (h : c.encrypt nonce content tenantId interactionId field aadField = .ok payload) :
    payload.field = field ∧ payload.nonce = nonce.1 ∧ payload.keyVersion = c.keyVersion := by
  obtain ⟨bound, -, h⟩ := Except.bind_eq_ok.1 h
  cases h
  exact ⟨rfl, rfl, rfl⟩

end PayloadCipher

end Crypto

end AdaptiveLlm
