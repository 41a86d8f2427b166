import AdaptiveLlm.Datasets.Manifests
import AdaptiveLlm.Lib.LastWrite
import AdaptiveLlm.Storage.Crypto

set_option autoImplicit false

/-! # Encrypted shards

The second half of `_stage` (`datasets/builder.py`) encrypts every shard for its tenant, dataset and
split and writes it in an envelope, with the tensors of a distillation and the manifest that has the
digest of all of them. `read_shards` (`datasets/artifacts.py`) reads them back.

A file system is a function from names to contents, written file by file in the order of the source,
so that a later file of the same name replaces an earlier one. Digests, the cipher and the
signatures are parameters with what their documentation says of them. That the two halves fit
together is proved in `Datasets/ShardRoundTrip.lean` and `Datasets/ShardReads.lean`. -/

namespace AdaptiveLlm

namespace Datasets

open Crypto (Nonce PayloadCipher EncryptedPayload StorageError)
open Signing (Keyring signRecord)
open Stored (Fields)

/-! ## Services -/

/-- `hashlib.sha256`. -/
structure Sha256 where
  digest : List UInt8 → List UInt8
  length_digest : ∀ bytes, (digest bytes).length = 32

/-- `sha256(...).hexdigest()`. -/
def Sha256.hexdigest (h : Sha256) (bytes : List UInt8) : String :=
  String.ofList (Bytes.hex (h.digest bytes))

/-- What the files of a dataset are made with: JSON, the form of the manifest, the digest and the cipher. -/
structure ArtifactServices where
  json : Python.JsonReader
  format : ManifestFormat
  sha256 : Sha256
  cipher : PayloadCipher
  keyring : Keyring
  /-- the nonces that encryptions draw, in order -/
  nonces : ℕ → Nonce

/-- The last part of the path of a shard. -/
def shardName (tenantId : String) (split : Split) : String :=
  tenantId ++ "." ++ split.name ++ ".jsonl.enc"

/-- The name of the file with the soft target of an example. -/
def softTargetName (exampleHash : String) : String := exampleHash ++ ".safetensors.enc"

/-- What a dataset is bound to. -/
def bindingOf (datasetId version : String) : String := datasetId ++ "/" ++ version

/-- `"".join(hashes).encode()`. -/
def joinDigests (digests : List String) : List UInt8 :=
  Bytes.encodeText (digests.flatMap String.toList)

section Write

variable (sv : BuildServices) (av : ArtifactServices)

/-! ## Shards -/

/-- A row as it is written. -/
def dumpRow (row : Fields) : List Char :=
  JsonText.dump av.json.floats .compact (JsonText.sortKeys (.obj row))

/-- A row as a line of its shard. -/
def rowLine (row : Fields) : List UInt8 := Bytes.encodeText (dumpRow av row)

/-- The lines of a shard, each with its newline. -/
def Shard.plaintext (revision : String) (shard : Shard) : List UInt8 :=
  Bytes.encodeText ((shard.rows revision).flatMap fun row => dumpRow av row ++ ['\n'])

/-- The envelope of a shard. -/
def envelopeOf (shard : Shard) (payload : EncryptedPayload) (digest : String) : Json :=
  .obj [("field", .str "dataset"), ("tenant_id", .str shard.tenantId),
    ("split", .str shard.split.name), ("key_version", .str payload.keyVersion),
    ("nonce", .str (String.ofList (Bytes.base64 payload.nonce))),
    ("ciphertext", .str (String.ofList (Bytes.base64 payload.ciphertext))),
    ("plaintext_hash", .str digest)]

/-- A file that was written, and the digest of what it holds. -/
structure Written where
  name : String
  content : List UInt8
  digest : String

/-- The sealed file of a shard and its entry in the manifest. -/
def sealShard (binding : String) (nonce : Nonce) (shard : Shard) : Except StorageError Written := do
  let plaintext := shard.plaintext av sv.revision
  let digest := av.sha256.hexdigest plaintext
  let payload ← av.cipher.encrypt nonce plaintext shard.tenantId binding "dataset"
    (some shard.split.name)
  .ok
    { name := shardName shard.tenantId shard.split
      content := Bytes.encodeText (av.json.dumps (envelopeOf shard payload digest))
      digest }

/-! ## Soft targets -/

/-- The sealed file of a soft target and its entry in the manifest. -/
def sealSoftTarget (binding : String) (nonce : Nonce) (e : BuiltExample) (content : List UInt8) :
    Except StorageError (Written × SoftTargetFile) := do
  let name := softTargetName e.exactHash
  let payload ← av.cipher.encrypt nonce content e.tenantId binding "dataset" (some name)
  let digest := av.sha256.hexdigest content
  .ok
    ({ name, content := payload.nonce ++ payload.ciphertext, digest },
      { tenantId := e.tenantId
        exampleHash := e.exactHash
        plaintextHash := digest
        keyVersion := payload.keyVersion })

/-- The training examples that have tensors, with them. -/
def withTensors (train : List BuiltExample) (tensors : List (String × List UInt8)) :
    List (BuiltExample × List UInt8) :=
  train.filterMap fun e => (LastWrite.last tensors e.exactHash).map fun content => (e, content)

/-! ## Files -/

/-- `staging.glob("*.safetensors.enc")`, unlinked. -/
def unlinkStale (files : Files) : Files := fun name =>
  if ".safetensors.enc".toList <:+ name.toList then none else files name

/-- The directory after the files are written. A later file of a name replaces an earlier one. -/
def writeAll (files : Files) (written : List Written) : Files :=
  LastWrite.apply files (written.map fun w => (w.name, some { content := w.content }))

/-- The shards, and the soft targets of a distillation in place of older ones. -/
def writeShards (left : Files) (shards : List Written)
    (softTargets : Option (List (Written × SoftTargetFile))) : Files :=
  let files := writeAll left shards
  match softTargets with
  | none => files
  | some soft => writeAll (unlinkStale files) (soft.map (·.1))

/-- The manifest file and the file with its MAC. -/
def writeManifest (files : Files) (m : SealedManifest) : Files :=
  let encoded := av.format.encode m
  let mac := if m.signature.any (· ≠ "") then [] else av.keyring.manifestMac encoded
  LastWrite.apply files
    [("manifest.json", some { content := Bytes.encodeText encoded }),
      ("manifest.mac", some { content := Bytes.encodeText mac })]

/-- The manifest with its signature, where there is a signer. -/
def signManifest (m : SealedManifest) : SealedManifest :=
  match av.keyring.signer with
  | some signer =>
    m.withSignature (signRecord av.json signer "dataset-manifest" (signedPayload av.format m))
  | none => m

/-! ## Staging -/

/-- How staging can fail. -/
inductive StageError where
  | build (e : BuildError)
  | storage (e : StorageError)
  | signingKeyRequired

variable (spec : BuildSpecification) (version : String)

/-- The shards of a staging. -/
def sealShards (splits : Split → List BuiltExample) : Except StorageError (List Written) :=
  (shardsOf spec.sortedTenants splits).zipIdx.mapM fun shard =>
    sealShard sv av (bindingOf spec.datasetId version) (av.nonces shard.2) shard.1

/-- The soft targets of a staging, whose nonces are drawn after `drawn` others. -/
def sealSoftTargets (drawn : ℕ) (train : List BuiltExample)
    (tensors : List (String × List UInt8)) : Except StorageError (List (Written × SoftTargetFile)) :=
  (withTensors train tensors).zipIdx.mapM fun item =>
    sealSoftTarget av (bindingOf spec.datasetId version) (av.nonces (drawn + item.2))
      item.1.1 item.1.2

/-- The soft targets of a distillation; another build has none. -/
def sealTensors (drawn : ℕ) (train : List BuiltExample) :
    Option (List (String × List UInt8)) → Except StorageError (Option (List (Written × SoftTargetFile)))
  | none => .ok none
  | some tensors => (sealSoftTargets av spec version drawn train tensors).map some

/-- The manifest before it is signed. -/
def unsignedManifest (asOf createdAt : ℤ) (considered : ℕ) (built : Built) (st : Staging)
    (shards : List Written) (soft : Option (List (Written × SoftTargetFile))) : SealedManifest :=
  { manifestOf sv spec version asOf createdAt
      (consideredOf considered built.softTargets.isSome st.splits) st with
    specification := spec
    contentDigest := av.sha256.hexdigest
      (joinDigests (shards.map (·.digest) ++ (soft.getD []).map (·.2.plaintextHash)))
    distillation := soft.map fun soft => soft.map (·.2) }

/-- `_stage`, in a directory that holds `left` of an earlier round. -/
def stageFiles (asOf createdAt : ℤ) (considered : ℕ) (built : Built) (left : Files) :
    Except StageError (Files × SealedManifest) := do
  let st ← (staging sv spec built).mapError .build
  let shards ← (sealShards sv av spec version st.splits).mapError .storage
  let soft ← (sealTensors av spec version shards.length (st.splits .train)
    built.softTargets).mapError .storage
  if av.keyring.hasSigner then
    let manifest := signManifest av
      (unsignedManifest sv av spec version asOf createdAt considered built st shards soft)
    .ok (writeManifest av (writeShards left shards soft) manifest, manifest)
  else .error .signingKeyRequired

end Write

/-! ## Reading

Reading takes nothing on trust. The manifest has to verify, each file has to have the digest that
the manifest gives, its envelope has to decrypt under the reference of its place, and each line has
to be of the tenant and split of its shard. -/

/-- A shard that was read, with what it was encrypted from. -/
structure ShardContents where
  split : Split
  plaintext : List UInt8

/-- `plaintext.splitlines()`. -/
def ShardContents.lines (c : ShardContents) : List (List UInt8) := Bytes.splitlines c.plaintext

/-- How reading a staged dataset can fail. -/
inductive ArtifactError where
  /-- status 409 -/
  | invalidDatasetArtifact

section Read

variable (av : ArtifactServices) (m : SealedManifest) (files : Files)

/-- `value[name]`, a text. -/
def textAt (value : Json) (name : String) : Option String :=
  (value.field name).bind Json.str?

/-- What the envelope of a shard decrypts to. -/
def openEnvelope (tenantId : String) (split : Split) (envelope : Json) : Option (List UInt8) := do
  guard (textAt envelope "tenant_id" = some tenantId ∧
    textAt envelope "split" = some split.name ∧
    textAt envelope "field" = some "dataset")
  let nonce ← (textAt envelope "nonce").bind fun text => Bytes.unbase64 text.toList
  let ciphertext ← (textAt envelope "ciphertext").bind fun text => Bytes.unbase64 text.toList
  let keyVersion ← textAt envelope "key_version"
  (av.cipher.decrypt { field := "dataset", nonce, ciphertext, keyVersion } tenantId
    (bindingOf m.datasetId m.version) "dataset" (some split.name)).toOption

/-- The row of a line is of its tenant and split. -/
def rowBelongs (tenantId : String) (split : Split) (line : List UInt8) : Bool :=
  (av.json.loadsBytes line).any fun row =>
    textAt row "tenant_id" = some tenantId && textAt row "split" = some split.name

/-- One shard of the loop of `read_shards`. -/
def readShard (place : String × Split) : Option ShardContents := do
  let text ← files.readText (shardName place.1 place.2)
  let envelope ← av.json.loads text
  let plaintext ← openEnvelope av m place.1 place.2 envelope
  guard (textAt envelope "plaintext_hash" = some (av.sha256.hexdigest plaintext))
  guard ((Bytes.splitlines plaintext).all (rowBelongs av place.1 place.2))
  some { split := place.2, plaintext }

/-- Where the shards of a manifest are, in the order they are read in. -/
def places (m : SealedManifest) : List (String × Split) :=
  (m.tenantIds.mergeSort (· ≤ ·)).flatMap fun tenant => SPLITS.map fun split => (tenant, split)

/-- `[0-9a-f]{64}`. -/
def isHexDigest (text : String) : Bool :=
  text.toList.length = 64 && text.toList.all fun c => "0123456789abcdef".toList.contains c

/-- One file of the loop of `read_soft_targets`. -/
def readSoftTarget (file : SoftTargetFile) : Option (String × List UInt8) := do
  guard (isHexDigest file.exampleHash)
  let name := softTargetName file.exampleHash
  let stored ← files name
  guard (stored.isSymlink = false)
  let raw ← (av.cipher.decrypt
    { field := "dataset"
      nonce := stored.content.take 12
      ciphertext := stored.content.drop 12
      keyVersion := file.keyVersion }
    file.tenantId (bindingOf m.datasetId m.version) "dataset" (some name)).toOption
  guard (av.sha256.hexdigest raw = file.plaintextHash)
  some (file.exampleHash, raw)

/-- `read_soft_targets`. -/
def readSoftTargets : Option (List (String × List UInt8)) :=
  (m.distillation.getD []).mapM (readSoftTarget av m files)

/-- The lists `rows` that the loop fills. -/
def rowsOf (contents : List ShardContents) (split : Split) : List (List UInt8) :=
  (contents.filter (·.split = split)).flatMap (·.lines)

/-- All digests, in the order they are joined in. -/
def digestsOf (contents : List ShardContents) : List String :=
  contents.map (fun c => av.sha256.hexdigest c.plaintext) ++
    (m.distillation.getD []).map (·.plaintextHash)

/-- `read_shards`. -/
def readShards : Except ArtifactError (Split → List (List UInt8)) :=
  if verifyManifest av.json av.format av.keyring m files then
    match (places m).mapM (readShard av m files), readSoftTargets av m files with
    | some contents, some _ =>
      if SPLITS.all (fun split => (rowsOf contents split).length = m.examples split) &&
          av.sha256.hexdigest (joinDigests (digestsOf av m contents)) = m.contentDigest then
        .ok (rowsOf contents)
      else .error .invalidDatasetArtifact
    | _, _ => .error .invalidDatasetArtifact
  else .error .invalidDatasetArtifact

end Read

end Datasets

end AdaptiveLlm
