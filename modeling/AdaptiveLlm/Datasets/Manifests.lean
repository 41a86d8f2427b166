import AdaptiveLlm.Datasets.Builder
import AdaptiveLlm.Signing.Records

set_option autoImplicit false

/-! # Authenticated manifests

`verify_manifest` (`datasets/artifacts.py`) checks the manifest that a caller holds against the signed
or MACed one among the files of the dataset, and its approval against the approval's own signature or
MAC. What pydantic makes of a manifest is a parameter.

A manifest that carries a signature is checked by its key, and one that carries none by the MAC that
older manifests have, under a flag for MACs. Both cover the dump of the manifest without the fields
of the signature itself. The same two ways exist for the approval of a dataset and for its
rejection; only a pending one needs neither. -/

namespace AdaptiveLlm

namespace Datasets

open Signing (SignedRecord Keyring FIELDS signed verifyRecord)

/-! ## Files -/

/-- A file of a dataset directory. -/
structure File where
  content : List UInt8
  isSymlink : Bool := false

/-- The files of a directory by their names. -/
abbrev Files : Type := String → Option File

/-- `(directory / name).read_text()`. -/
def Files.readText (files : Files) (name : String) : Option (List Char) :=
  (files name).bind fun file => Bytes.readText file.content

/-! ## Manifests

A manifest is signed as it was built, and again with its approval. Each signature is over the text
of the model's dump, so what is compared is text; that two manifests with one text are one manifest
is a property of the format and not of the signature. -/

/-- The entry of a soft target in a manifest. -/
structure SoftTargetFile where
  tenantId : String
  exampleHash : String
  plaintextHash : String
  keyVersion : String
  deriving DecidableEq

/-- `ApprovalStatus` of a dataset. -/
inductive ApprovalStatus where
  | pending
  | approved
  | rejected
  deriving DecidableEq, Repr

/-- `approval_mac_version`. -/
inductive ApprovalMacVersion where
  | one
  | two
  deriving DecidableEq, Repr

/-- A `DatasetApproval` without the note of who gave it. -/
structure DatasetApproval extends SignedRecord where
  status : ApprovalStatus := .pending
  mac : Option String := none
  approvalMacVersion : ApprovalMacVersion := .one

/-- A manifest with its digests, its signature and its approval. Of the lineage of a distillation it
    has the soft targets. -/
structure SealedManifest extends DatasetManifest, SignedRecord where
  specification : BuildSpecification
  contentDigest : String
  distillation : Option (List SoftTargetFile)
  approval : DatasetApproval := {}

/-- `model_copy` with the fields of a signature. -/
def SealedManifest.withSignature (m : SealedManifest) (record : SignedRecord) : SealedManifest :=
  { m with toSignedRecord := record }

/-- What pydantic makes of a manifest. -/
structure ManifestFormat where
  Dumped : Type
  [decidableEqDumped : DecidableEq Dumped]
  /-- `model_dump(exclude={"approval"})` -/
  dump : SealedManifest → Dumped
  /-- `model_dump_json(indent=2)` -/
  encode : SealedManifest → List Char
  /-- `model_dump_json`, with the paths of the fields left out -/
  encodeWithout : List String → SealedManifest → List Char
  /-- `model_validate_json` -/
  validate : List Char → Option SealedManifest
  /-- JSON escapes control characters, and an indent is a line feed and spaces. -/
  noReturn : ∀ m, '\r' ∉ encode m
  /-- Fields that are left out have no say in the text. -/
  encodeWithout_signature : ∀ (m : SealedManifest) (record : SignedRecord),
    encodeWithout (FIELDS ++ ["approval"]) (m.withSignature record) =
      encodeWithout (FIELDS ++ ["approval"]) m

attribute [instance] ManifestFormat.decidableEqDumped

section Verify

variable (r : Python.JsonReader) (format : ManifestFormat) (k : Keyring)

/-- What a signature of a manifest is of. -/
def signedPayload (m : SealedManifest) : List Char :=
  format.encodeWithout (FIELDS ++ ["approval"]) m

/-- `approval_payload`. -/
def approvalPayload (m : SealedManifest) : List Char :=
  format.encodeWithout ((FIELDS ++ ["mac"]).map ("approval." ++ ·)) m

/-- `approval_mac`. -/
def approvalMac (m : SealedManifest) : List Char :=
  let unsigned := { m with approval := { m.approval with mac := none } }
  match m.approval.approvalMacVersion with
  | .two => k.manifestMac (format.encodeWithout [] unsigned)
  | .one =>
    let omitted :=
      (if m.specification.sourceDatasetId.isNone then ["source_dataset_id", "source_dataset_version"]
        else []) ++
      (if m.distillation.isNone then
          ["teacher_deployment_id", "teacher_minimum_score", "teacher_max_output_tokens",
            "general_safety_fraction", "soft_targets"]
        else [])
    k.manifestMac (format.encodeWithout
      ("approval.approval_mac_version" ::
        (if m.distillation.isNone then ["distillation"] else []) ++
        omitted.map ("specification." ++ ·)) unsigned)

/-- The manifest as it was built is authentic. -/
def originalVerified (files : Files) (encoded : List Char) (original : SealedManifest) : Bool :=
  if signed original.toSignedRecord then
    verifyRecord r original.toSignedRecord k.verifier "dataset-manifest"
      (signedPayload format original)
  else k.acceptsLegacyMac && files.readText "manifest.mac" = some (k.manifestMac encoded)

/-- An approval, or a rejection, is authentic. -/
def approvalVerified (m : SealedManifest) : Bool :=
  if m.approval.status = .pending then true
  else if signed m.approval.toSignedRecord then
    verifyRecord r m.approval.toSignedRecord k.verifier "dataset-approval" (approvalPayload format m)
  else k.acceptsLegacyMac && (m.approval.mac.getD "").toList = approvalMac format k m

/-- `verify_manifest` returns. -/
def verifyManifest (m : SealedManifest) (files : Files) : Bool :=
  (m.datasetId :: m.version :: m.tenantIds).all (fun v => v ≠ "." && v ≠ "..") &&
    ((files.readText "manifest.json").any fun encoded =>
      (format.validate encoded).any fun original =>
        originalVerified r format k files encoded original &&
          format.dump original = format.dump m && original.approval.status = .pending) &&
    approvalVerified r format k m

end Verify

end Datasets

end AdaptiveLlm
