import AdaptiveLlm.Python.Json

set_option autoImplicit false

/-! # Signed records

`sign_record` and `verify_record` (`signing/__init__.py`) sign the version, the purpose and the key id
with a payload, and `Keyring` (`gateway/identity.py`) holds the signer, the verifier and the key of
the MACs that older records have. Ed25519 and HMAC-SHA-256 are parameters.

The text that is signed has the purpose and the key id in it, so a signature is for one purpose and
under one key, which a verifier looks up by the id. Unforgeability is not assumed here; only that
what was signed verifies. -/

namespace AdaptiveLlm

namespace Signing

/-- The version that signed records carry. -/
def VERSION : String := "ed25519-v1"

/-- A signer and the identifier of its key. -/
structure Signer where
  keyId : String
  sign : List UInt8 → String

/-- `verify` raises unless this holds of payload, signature, key id and version. -/
structure Verifier where
  accepts : List UInt8 → String → String → String → Bool

/-- The contract `SignedRecord`. -/
structure SignedRecord where
  signature : Option String := none
  signatureKeyId : Option String := none
  signatureVersion : Option String := none
  deriving DecidableEq

/-- The names in `FIELDS`. -/
def FIELDS : List String := ["signature", "signature_key_id", "signature_version"]

/-- What is signed. -/
def message (r : Python.JsonReader) (purpose : String) (payload : List Char) (keyId : String) :
    List UInt8 :=
  Bytes.encodeText (JsonText.dump r.floats { ascii := true, spaced := false }
    (.arr [.str VERSION, .str purpose, .str keyId, .str (String.ofList payload)]))

/-- The signature fields `sign_record` fills in. -/
def signRecord (r : Python.JsonReader) (signer : Signer) (purpose : String) (payload : List Char) :
    SignedRecord where
  signature := some (signer.sign (message r purpose payload signer.keyId))
  signatureKeyId := some signer.keyId
  signatureVersion := some VERSION

/-- `verify_record` returns. -/
def verifyRecord (r : Python.JsonReader) (record : SignedRecord) (verifier : Option Verifier)
    (purpose : String) (payload : List Char) : Bool :=
  match verifier, record.signature.filter (· ≠ ""), record.signatureKeyId.filter (· ≠ "") with
  | some verifier, some signature, some keyId =>
    verifier.accepts (message r purpose payload keyId) signature keyId
      (record.signatureVersion.getD "")
  | _, _, _ => false

/-- Partial signatures are signatures too. -/
def signed (record : SignedRecord) : Bool :=
  record.signature.isSome || record.signatureKeyId.isSome || record.signatureVersion.isSome

/-! ## The keyring -/

/-- `Keyring`: what records are signed and verified with. -/
structure Keyring where
  signer : Option Signer
  verifier : Option Verifier
  legacyMacRecords : Bool := false
  /-- HMAC-SHA-256 under the key of the manifests -/
  manifestHmac : List UInt8 → List UInt8

namespace Keyring

/-- `require_signer` raises unless this holds. -/
def hasSigner (k : Keyring) : Bool := k.verifier.isNone || k.signer.isSome

/-- Records with a MAC instead of a signature are taken. -/
def acceptsLegacyMac (k : Keyring) : Bool := k.verifier.isNone || k.legacyMacRecords

/-- `manifest_mac`. -/
def manifestMac (k : Keyring) (value : List Char) : List Char :=
  Bytes.hex (k.manifestHmac (Bytes.encodeText value))

/-- The verifier of a keyring accepts what its signer signs, as that of `local_keys` is checked to.
    Neither a signature nor a key id is empty. -/
def Consistent (k : Keyring) : Prop :=
  ∀ signer ∈ k.signer, signer.keyId ≠ "" ∧ (∀ payload, signer.sign payload ≠ "") ∧
    ∃ verifier ∈ k.verifier, ∀ payload,
      verifier.accepts payload (signer.sign payload) signer.keyId VERSION = true

/-- **Signatures verify.** -/
theorem verifyRecord_signRecord {k : Keyring} (hk : k.Consistent) {signer : Signer}
    (hsigner : k.signer = some signer) (r : Python.JsonReader) (purpose : String)
    (payload : List Char) :
    verifyRecord r (signRecord r signer purpose payload) k.verifier purpose payload = true := by
  obtain ⟨hkeyId, hsignature, verifier, hverifier, haccepts⟩ := hk signer hsigner
  rw [Option.mem_def.1 hverifier]
  simp [verifyRecord, signRecord, Option.filter, hkeyId, hsignature, haccepts]

/-- A record without a signature that was written is accepted by its MAC. -/
theorem acceptsLegacyMac_of_signer_eq_none {k : Keyring} (hsigner : k.signer = none)
    (h : k.hasSigner = true) : k.acceptsLegacyMac = true := by
  simp only [hasSigner, hsigner, Option.isSome_none, Bool.or_false] at h
  simp [acceptsLegacyMac, h]

end Keyring

end Signing

end AdaptiveLlm
