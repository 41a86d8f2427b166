import AdaptiveLlm.Datasets.Publication
import AdaptiveLlm.Datasets.ShardRoundTrip

set_option autoImplicit false

/-! # Reading a staged dataset

`_stage` and `read_shards` as a whole: what was staged is read, and what is read for a manifest is the
same for any files, as far as no two texts that were hashed collide.

The two directions have different assumptions. That what was staged comes back needs the cipher, the
signature and the JSON reader to invert what writes them, and a nonce per file. That no other files
are read needs the digests to tell texts apart, among those that are in fact hashed: the files read
and the files staged. Both are put together at the end for a distillation, where rows and tensors
are checked against each other as well. -/

namespace AdaptiveLlm

namespace Datasets

open Crypto (Nonce)
open Signing (Keyring)
open Stored (Fields)

/-! ## The manifest -/

section Manifest

variable {av : ArtifactServices} {m : SealedManifest} {files : Files}

theorem signManifest_fields (m : SealedManifest) :
    (signManifest av m).toDatasetManifest = m.toDatasetManifest ∧
      (signManifest av m).contentDigest = m.contentDigest ∧
      (signManifest av m).distillation = m.distillation ∧
      (signManifest av m).approval = m.approval := by
  unfold signManifest
  split <;> exact ⟨rfl, rfl, rfl, rfl⟩

theorem originalVerified_signManifest (hkeyring : av.keyring.Consistent)
    (hsigner : av.keyring.hasSigner = true) (hunsigned : m.toSignedRecord = {}) :
    originalVerified av.json av.format av.keyring (writeManifest av files (signManifest av m))
      (av.format.encode (signManifest av m)) (signManifest av m) = true := by
  cases hkey : av.keyring.signer with
  | some signer =>
    have hsigned : signManifest av m = m.withSignature
        (Signing.signRecord av.json signer "dataset-manifest" (signedPayload av.format m)) := by
      rw [signManifest, hkey]
    have hpayload : signedPayload av.format (signManifest av m) = signedPayload av.format m := by
      rw [hsigned]
      exact av.format.encodeWithout_signature m _
    rw [originalVerified, hpayload, hsigned]
    exact Keyring.verifyRecord_signRecord hkeyring hkey _ _ _
  | none =>
    have hsame : signManifest av m = m := by rw [signManifest, hkey]
    have hsigned : Signing.signed m.toSignedRecord = false := by
      rw [hunsigned]
      rfl
    have hsignature : m.signature = none := congrArg (·.signature) hunsigned
    rw [hsame, originalVerified, hsigned, readText_mac files hsignature,
      Keyring.acceptsLegacyMac_of_signer_eq_none hkey hsigner]
    simp

/-- **Authentic.** The manifest that was written is accepted. -/
theorem verifyManifest_signManifest (hkeyring : av.keyring.Consistent)
    (hsigner : av.keyring.hasSigner = true) (hunsigned : m.toSignedRecord = {})
    (hpending : m.approval.status = .pending)
    (hnames : ∀ v ∈ m.datasetId :: m.version :: m.tenantIds, v ≠ "." ∧ v ≠ "..")
    (hvalid : av.format.validate (av.format.encode (signManifest av m)) =
      some (signManifest av m)) :
    verifyManifest av.json av.format av.keyring (signManifest av m)
      (writeManifest av files (signManifest av m)) = true := by
  obtain ⟨hfields, -, -, happroval⟩ := @signManifest_fields av m
  have hnames' : ((signManifest av m).datasetId :: (signManifest av m).version ::
      (signManifest av m).tenantIds).all (fun v => v ≠ "." && v ≠ "..") = true := by
    rw [hfields, List.all_eq_true]
    intro v hv
    obtain ⟨hdot, hdots⟩ := hnames v hv
    simp [hdot, hdots]
  have hstatus : (signManifest av m).approval.status = .pending := by rw [happroval, hpending]
  rw [verifyManifest, hnames', readText_manifest, Option.any_some, hvalid, Option.any_some,
    originalVerified_signManifest hkeyring hsigner hunsigned, approvalVerified, hstatus]
  simp

end Manifest

/-! ## What was staged

Each file is followed from the staging to its reader: it is the last one written under its name, it
opens under the key of its tenant, and its lines are the rows of its shard. -/

section Stage

variable {sv : BuildServices} {av : ArtifactServices} {spec : BuildSpecification}
  {version : String} {asOf createdAt : ℤ} {considered : ℕ} {built : Built} {left files : Files}
  {manifest : SealedManifest}

/-- What a staging that succeeded did. -/
theorem stageFiles_eq_ok
    (h : stageFiles sv av spec version asOf createdAt considered built left = .ok (files, manifest)) :
    ∃ st shards soft,
      staging sv spec built = .ok st ∧ sealShards sv av spec version st.splits = .ok shards ∧
      sealTensors av spec version shards.length (st.splits .train) built.softTargets = .ok soft ∧
      av.keyring.hasSigner = true ∧
      manifest = signManifest av (unsignedManifest sv av spec version asOf createdAt considered built
        st shards soft) ∧
      files = writeManifest av (writeShards left shards soft) manifest := by
  obtain ⟨st, hst, h⟩ := Except.bind_eq_ok.1 h
  obtain ⟨shards, hshards, h⟩ := Except.bind_eq_ok.1 h
  obtain ⟨soft, hsoft, h⟩ := Except.bind_eq_ok.1 h
  split at h
  next hsigner =>
    cases h
    exact ⟨st, shards, soft, Except.mapError_eq_ok.1 hst, Except.mapError_eq_ok.1 hshards,
      Except.mapError_eq_ok.1 hsoft, hsigner, rfl, rfl⟩
  next => cases h

/-- What the callers of `_stage` promise: identifiers name no directory above, examples are of the
    tenants of the specification, their rows are dictionaries that say so, and tensors are kept under
    digests, each of one tenant's example. -/
structure Promised (spec : BuildSpecification) (version : String) (built : Built) : Prop where
  names : ∀ v ∈ spec.datasetId :: version :: spec.tenantIds, v ≠ "." ∧ v ≠ ".."
  tenants : ∀ e ∈ built.examples, e.tenantId ∈ spec.tenantIds
  rows : ∀ e ∈ built.examples, Stageable e
  hashes : ∀ tensors ∈ built.softTargets, ∀ e ∈ built.examples,
    e.exactHash ∈ tensors.map (·.1) → isHexDigest e.exactHash = true
  owners : ∀ tensors ∈ built.softTargets, ∀ e ∈ built.examples, ∀ e' ∈ built.examples,
    e.exactHash ∈ tensors.map (·.1) → e.exactHash = e'.exactHash → e.tenantId = e'.tenantId

/-- The rows of a split as they are staged: by tenant in sorted order, for each in the order of the
    split. -/
def stagedLines (sv : BuildServices) (av : ArtifactServices) (spec : BuildSpecification)
    (splits : Split → List BuiltExample) (split : Split) : List (List UInt8) :=
  spec.sortedTenants.flatMap fun tenant =>
    ((splits split).filter (·.tenantId = tenant)).map fun e =>
      rowLine av (stagedRow sv.revision split e)

/-- A shard as it is read. -/
def Shard.contents (av : ArtifactServices) (revision : String) (shard : Shard) : ShardContents where
  split := shard.split
  plaintext := shard.plaintext av revision

theorem rowsOf_contents (splits : Split → List BuiltExample) (split : Split) :
    rowsOf ((shardsOf spec.sortedTenants splits).map (Shard.contents av sv.revision)) split =
      stagedLines sv av spec splits split := by
  have hlines : ∀ shard : Shard, (Shard.contents av sv.revision shard).lines =
      (shard.rows sv.revision).map (rowLine av) := fun shard =>
    splitlines_plaintext sv.revision shard
  have hfilter := filter_shardsOf spec.sortedTenants splits split
  rw [rowsOf, List.filter_map, List.flatMap_map]
  show ((shardsOf spec.sortedTenants splits).filter (·.split = split)).flatMap _ = _
  rw [hfilter, List.flatMap_map]
  simp only [hlines, Shard.rows, List.map_map, stagedLines]
  rfl

/-- Every example of a split is in some tenant's rows, once. -/
theorem length_stagedLines (splits : Split → List BuiltExample) (split : Split)
    (h : ∀ e ∈ splits split, e.tenantId ∈ spec.tenantIds) :
    (stagedLines sv av spec splits split).length = (splits split).length := by
  rw [← Grouping.sum_length_filter spec.sortedTenants_nodup
    fun e he => spec.sortedTenants_perm.mem_iff.2 (h e he)]
  simp [stagedLines, List.length_flatMap]

theorem places_of_manifest {m : SealedManifest} (htenants : m.tenantIds = spec.sortedTenants)
    (splits : Split → List BuiltExample) : places m =
      (shardsOf spec.sortedTenants splits).map fun shard => (shard.tenantId, shard.split) := by
  have hsorted : spec.sortedTenants.mergeSort (· ≤ ·) = spec.sortedTenants :=
    List.mergeSort_of_pairwise (List.pairwise_mergeSort (by simpa using fun a b c => le_trans)
      (by simpa using le_total) _)
  rw [places_of_shardsOf, places, htenants, hsorted]

section Sealed

variable (left) {st : Staging} {shards : List Written} {soft : Option (List (Written × SoftTargetFile))}

/-- Every file of soft targets is named after its example. -/
theorem names_of_sealTensors {drawn : ℕ} {train : List BuiltExample}
    {tensors : Option (List (String × List UInt8))}
    (h : sealTensors av spec version drawn train tensors = .ok soft) :
    ∀ p ∈ soft.getD [], ∃ exampleHash, p.1.name = softTargetName exampleHash := by
  cases tensors with
  | none =>
    cases h
    intro p hp
    cases hp
  | some tensors =>
    obtain ⟨written, hwritten, rfl⟩ := Except.map_eq_ok.1 h
    intro p hp
    obtain ⟨item, -, nonce, hp⟩ := (forall₂_of_sealSoftTargets hwritten).exists_of_mem_right hp
    exact ⟨_, (sealSoftTarget_eq_ok hp).1⟩

/-- **Shards.** Every shard of a staging is read. -/
theorem readShard_staged {m : SealedManifest} {splits : Split → List BuiltExample}
    (hshards : sealShards sv av spec version splits = .ok shards)
    (hsoft : ∀ p ∈ soft.getD [], ∃ exampleHash, p.1.name = softTargetName exampleHash)
    (hbinding : bindingOf m.datasetId m.version = bindingOf spec.datasetId version)
    (hrows : ∀ split, ∀ e ∈ splits split, Stageable e) :
    ∀ shard ∈ shardsOf spec.sortedTenants splits,
      readShard av m (writeManifest av (writeShards left shards soft) m)
        (shard.tenantId, shard.split) = some (shard.contents av sv.revision) := by
  intro shard hshard
  obtain ⟨w, hw, nonce, hcall⟩ := (forall₂_of_sealShards hshards).exists_of_mem_left hshard
  rw [← hbinding] at hcall
  refine readShard_of_sealShard hcall (stagedFile_shard hshards hsoft hw) fun e he => ?_
  obtain ⟨tenant, -, hmem⟩ := List.mem_flatMap.1 hshard
  obtain ⟨split, -, rfl⟩ := List.mem_map.1 hmem
  obtain ⟨he, htenant⟩ := List.mem_filter.1 he
  exact ⟨of_decide_eq_true htenant, hrows split e he⟩

theorem digests_of_sealShards {splits : Split → List BuiltExample}
    (hshards : sealShards sv av spec version splits = .ok shards) :
    shards.map (·.digest) = ((shardsOf spec.sortedTenants splits).map
      (Shard.contents av sv.revision)).map fun c => av.sha256.hexdigest c.plaintext := by
  have hdigests : (shardsOf spec.sortedTenants splits).map
      (fun shard => av.sha256.hexdigest (shard.plaintext av sv.revision)) =
      shards.map (·.digest) := by
    refine List.Forall₂.map_eq ((forall₂_of_sealShards hshards).imp ?_)
    rintro shard w ⟨nonce, hw⟩
    exact (sealShard_eq_ok hw).2.symm
  rw [← hdigests, List.map_map]
  rfl

theorem mem_withTensors {train : List BuiltExample} {tensors : List (String × List UInt8)}
    {item : BuiltExample × List UInt8} (h : item ∈ withTensors train tensors) :
    item.1 ∈ train ∧ LastWrite.last tensors item.1.exactHash = some item.2 := by
  obtain ⟨e, he, hitem⟩ := List.mem_filterMap.1 h
  obtain ⟨content, hcontent, rfl⟩ := Option.map_eq_some_iff.1 hitem
  exact ⟨he, hcontent⟩

/-- **Soft targets.** Every file of tensors of a staging is read, written over by a later one or
    not: the one that is there has the same tensors, for the same tenant. -/
theorem readSoftTarget_staged {m : SealedManifest} {train : List BuiltExample}
    {tensors : List (String × List UInt8)} {written : List (Written × SoftTargetFile)}
    (hwritten : sealSoftTargets av spec version shards.length train tensors = .ok written)
    (hbinding : bindingOf m.datasetId m.version = bindingOf spec.datasetId version)
    (hhashes : ∀ e ∈ train, e.exactHash ∈ tensors.map (·.1) → isHexDigest e.exactHash = true)
    (howners : ∀ e ∈ train, ∀ e' ∈ train, e.exactHash ∈ tensors.map (·.1) →
      e.exactHash = e'.exactHash → e.tenantId = e'.tenantId) :
    ∀ p ∈ written, ∃ result,
      readSoftTarget av m (writeManifest av (writeShards left shards (some written)) m) p.2 =
        some result := by
  intro p hp
  have hcalls := forall₂_of_sealSoftTargets hwritten
  have hnames : ∀ p ∈ written, ∃ exampleHash, p.1.name = softTargetName exampleHash := by
    intro p hp
    obtain ⟨item, -, nonce, hcall⟩ := hcalls.exists_of_mem_right hp
    exact ⟨_, (sealSoftTarget_eq_ok hcall).1⟩
  obtain ⟨⟨e, content⟩, hitem, nonce, hcall⟩ := hcalls.exists_of_mem_right hp
  have hpresent : ∃ p' ∈ written, p'.1.name = p.1.name ∧
      writeManifest av (writeShards left shards (some written)) m p.1.name =
        some { content := p'.1.content } := stagedFile_softTarget hnames hp
  obtain ⟨p', hp', hname, hfile⟩ := hpresent
  obtain ⟨⟨e', content'⟩, hitem', nonce', hcall'⟩ := hcalls.exists_of_mem_right hp'
  obtain ⟨htrain, hcontent⟩ := mem_withTensors hitem
  obtain ⟨htrain', hcontent'⟩ := mem_withTensors hitem'
  obtain ⟨hwname, hrecord⟩ := sealSoftTarget_eq_ok hcall
  obtain ⟨hwname', hrecord'⟩ := sealSoftTarget_eq_ok hcall'
  have hhash : e'.exactHash = e.exactHash :=
    softTargetName_injective (hwname'.symm.trans (hname.trans hwname))
  have hsame : content' = content := by
    rw [hhash, hcontent] at hcontent'
    exact (Option.some.inj hcontent').symm
  have hmem := LastWrite.mem_of_last_eq_some hcontent
  have htenant : e'.tenantId = e.tenantId :=
    (howners e htrain e' htrain' hmem hhash.symm).symm
  have hfiles : p.2 = p'.2 := by rw [hrecord, hrecord', hhash, hsame, htenant]
  rw [← hbinding] at hcall'
  rw [← hname] at hfile
  rw [hfiles]
  exact ⟨_, readSoftTarget_of_sealSoftTarget hcall' (hhashes e' htrain' (hhash ▸ hmem)) hfile⟩

theorem readSoftTargets_staged {m : SealedManifest} {train : List BuiltExample}
    {tensors : Option (List (String × List UInt8))}
    (hsoft : sealTensors av spec version shards.length train tensors = .ok soft)
    (hm : m.distillation = soft.map fun soft => soft.map (·.2))
    (hbinding : bindingOf m.datasetId m.version = bindingOf spec.datasetId version)
    (hhashes : ∀ kept ∈ tensors, ∀ e ∈ train, e.exactHash ∈ kept.map (·.1) →
      isHexDigest e.exactHash = true)
    (howners : ∀ kept ∈ tensors, ∀ e ∈ train, ∀ e' ∈ train, e.exactHash ∈ kept.map (·.1) →
      e.exactHash = e'.exactHash → e.tenantId = e'.tenantId) :
    ∃ results, readSoftTargets av m (writeManifest av (writeShards left shards soft) m) =
      some results := by
  cases tensors with
  | none =>
    cases hsoft
    exact ⟨[], by rw [readSoftTargets, hm]; rfl⟩
  | some kept =>
    obtain ⟨written, hwritten, rfl⟩ := Except.map_eq_ok.1 hsoft
    have hreads := readSoftTarget_staged left hwritten hbinding (hhashes kept rfl)
      (howners kept rfl)
    have hcalls : ∀ file ∈ written.map (·.2), ∃ result,
        readSoftTarget av m (writeManifest av (writeShards left shards (some written)) m) file =
          some result := by
      intro file hfile
      obtain ⟨p, hp, rfl⟩ := List.mem_map.1 hfile
      exact hreads p hp
    choose! result hresult using hcalls
    refine ⟨(written.map (·.2)).map result, ?_⟩
    rw [readSoftTargets, hm]
    exact Option.mapM_eq_some_map hresult

end Sealed

/-- The shards that a staging wrote, as they are read. -/
theorem mapM_readShard_staged (left : Files) {m : SealedManifest} {st : Staging} {shards : List Written}
    {soft : Option (List (Written × SoftTargetFile))} (hpromised : Promised spec version built)
    (hst : staging sv spec built = .ok st)
    (hshards : sealShards sv av spec version st.splits = .ok shards)
    (hsoft : sealTensors av spec version shards.length (st.splits .train) built.softTargets =
      .ok soft)
    (hbinding : bindingOf m.datasetId m.version = bindingOf spec.datasetId version)
    (htenants : m.tenantIds = spec.sortedTenants) :
    (places m).mapM (readShard av m (writeManifest av (writeShards left shards soft) m)) =
      some ((shardsOf spec.sortedTenants st.splits).map (Shard.contents av sv.revision)) := by
  have hreads := readShard_staged left hshards (names_of_sealTensors hsoft) hbinding
    fun split e he => hpromised.rows e (staging_subset hst split he)
  rw [places_of_manifest htenants st.splits, List.mapM_map]
  exact Option.mapM_eq_some_map hreads

/-- **Round trip.** What `_stage` wrote, `read_shards` reads: the rows of every split, as they were
    staged. -/
theorem readShards_stageFiles (hkeyring : av.keyring.Consistent)
    (hpromised : Promised spec version built)
    (h : stageFiles sv av spec version asOf createdAt considered built left = .ok (files, manifest))
    (hvalid : av.format.validate (av.format.encode manifest) = some manifest) :
    ∃ st rows, staging sv spec built = .ok st ∧ readShards av manifest files = .ok rows ∧
      ∀ split, rows split = stagedLines sv av spec st.splits split := by
  obtain ⟨st, shards, soft, hst, hshards, hsoft, hsigner, hmanifest, hfiles⟩ := stageFiles_eq_ok h
  obtain ⟨hfields, hdigest, hdistillation, -⟩ := @signManifest_fields av
    (unsignedManifest sv av spec version asOf createdAt considered built st shards soft)
  rw [← hmanifest] at hfields hdigest hdistillation
  have hbuilt : ∀ split, ∀ e ∈ st.splits split, e ∈ built.examples := fun split e he =>
    staging_subset hst split he
  have hbinding : bindingOf manifest.datasetId manifest.version =
      bindingOf spec.datasetId version := by
    rw [hfields]
    rfl
  have htenants : manifest.tenantIds = spec.sortedTenants := by
    rw [hfields]
    rfl
  have hverify : verifyManifest av.json av.format av.keyring manifest files = true := by
    rw [hmanifest] at hvalid
    rw [hfiles, hmanifest]
    refine verifyManifest_signManifest hkeyring hsigner rfl rfl ?_ hvalid
    intro v hv
    refine hpromised.names v ?_
    simp only [List.mem_cons] at hv ⊢
    exact hv.imp_right (Or.imp_right fun hv => spec.sortedTenants_perm.mem_iff.1 hv)
  have hcontents := mapM_readShard_staged left hpromised hst hshards hsoft hbinding
    htenants
  rw [← hfiles] at hcontents
  obtain ⟨results, hresults⟩ := readSoftTargets_staged left hsoft hdistillation hbinding
    (fun kept hkept e he => hpromised.hashes kept hkept e (hbuilt .train e he))
    (fun kept hkept e he e' he' => hpromised.owners kept hkept e (hbuilt .train e he) e'
      (hbuilt .train e' he'))
  rw [← hfiles] at hresults
  have hcounts : SPLITS.all (fun split => (rowsOf ((shardsOf spec.sortedTenants st.splits).map
      (Shard.contents av sv.revision)) split).length = manifest.examples split) = true := by
    rw [List.all_eq_true]
    intro split _
    have hlength : (stagedLines sv av spec st.splits split).length = (st.splits split).length :=
      length_stagedLines st.splits split fun e he => hpromised.tenants e (hbuilt split e he)
    rw [rowsOf_contents, hlength, hfields]
    exact decide_eq_true rfl
  have hcontent : av.sha256.hexdigest (joinDigests (digestsOf av manifest
      ((shardsOf spec.sortedTenants st.splits).map (Shard.contents av sv.revision)))) =
      manifest.contentDigest := by
    have hdigests : (((soft.map fun soft => soft.map (·.2)).getD []).map (·.plaintextHash)) =
        (soft.getD []).map (·.2.plaintextHash) := by
      cases soft with
      | none => rfl
      | some soft => exact List.map_map
    rw [hdigest, digestsOf, ← digests_of_sealShards hshards, hdistillation]
    exact congrArg (fun digests => av.sha256.hexdigest (joinDigests (shards.map (·.digest) ++
      digests))) hdigests
  refine ⟨st, _, hst, ?_, rowsOf_contents st.splits⟩
  rw [readShards, if_pos hverify, hcontents, hresults]
  simp only [hcounts, hcontent, Bool.true_and, decide_true, if_true]

end Stage

/-! ## Replaced files

Nothing is assumed of who has put the files there. The reader hashes what it reads and compares with
the manifest, so where no two of the hashed texts collide, the plaintexts are those that were
staged. -/

section Replaced

variable {av : ArtifactServices} {m : SealedManifest} {files files' : Files}

/-- What a read hashes: what the shards decrypt to, and the digests of them all. -/
def hashed (av : ArtifactServices) (m : SealedManifest) (files : Files) : List (List UInt8) :=
  match (places m).mapM (readShard av m files) with
  | none => []
  | some contents => contents.map (·.plaintext) ++ [joinDigests (digestsOf av m contents)]

/-- No text hashed in one read has the digest of another one hashed in the other. -/
def CollisionFree (av : ArtifactServices) (m : SealedManifest) (files files' : Files) : Prop :=
  ∀ b ∈ hashed av m files, ∀ b' ∈ hashed av m files',
    av.sha256.digest b = av.sha256.digest b' → b = b'

/-- What a read that succeeded did. -/
theorem readShards_eq_ok {rows : Split → List (List UInt8)} (h : readShards av m files = .ok rows) :
    ∃ contents, (places m).mapM (readShard av m files) = some contents ∧
      av.sha256.hexdigest (joinDigests (digestsOf av m contents)) = m.contentDigest ∧
      rows = rowsOf contents := by
  rw [readShards] at h
  split at h
  · split at h
    next contents _ hcontents _ =>
      split at h
      next hchecks =>
        cases h
        simp only [Bool.and_eq_true, decide_eq_true_eq] at hchecks
        exact ⟨contents, hcontents, hchecks.2, rfl⟩
      next => cases h
    next => cases h
  · cases h

theorem length_hexdigest (h : Sha256) (bytes : List UInt8) : (h.hexdigest bytes).toList.length = 64 := by
  rw [Sha256.hexdigest, String.toList_ofList, Bytes.length_hex, h.length_digest]

theorem digest_eq_of_hexdigest_eq {h : Sha256} {bytes bytes' : List UInt8}
    (heq : h.hexdigest bytes = h.hexdigest bytes') : h.digest bytes = h.digest bytes' := by
  have hlists := congrArg String.toList heq
  rw [Sha256.hexdigest, Sha256.hexdigest, String.toList_ofList, String.toList_ofList] at hlists
  exact Bytes.hex_injective hlists

/-- Digests of one length are told apart in what they are joined to. -/
theorem eq_of_flatMap_toList_eq {n : ℕ} {digests digests' : List String}
    (h : ∀ d ∈ digests, d.toList.length = n) (h' : ∀ d ∈ digests', d.toList.length = n)
    (hlength : digests.length = digests'.length)
    (heq : digests.flatMap String.toList = digests'.flatMap String.toList) : digests = digests' := by
  induction digests generalizing digests' with
  | nil => exact (List.length_eq_zero_iff.1 hlength.symm).symm
  | cons d digests ih =>
    cases digests' with
    | nil => cases hlength
    | cons d' digests' =>
      rw [List.flatMap_cons, List.flatMap_cons] at heq
      have hd := h d List.mem_cons_self
      have hd' := h' d' List.mem_cons_self
      obtain ⟨hhead, htail⟩ := List.append_inj heq (hd.trans hd'.symm)
      rw [String.toList_inj.1 hhead, ih (fun d hd => h d (List.mem_cons_of_mem _ hd))
        (fun d hd => h' d (List.mem_cons_of_mem _ hd)) (Nat.succ.inj hlength) htail]

/-- The shards a read collects are those of the places it reads. -/
theorem map_split_of_mapM {contents : List ShardContents}
    (h : (places m).mapM (readShard av m files) = some contents) :
    (places m).map (·.2) = contents.map (·.split) := by
  refine List.Forall₂.map_eq ((Option.forall₂_of_mapM_eq_some h).imp fun place c hc => ?_)
  obtain ⟨_, -, hc⟩ := Option.bind_eq_some_iff.1 hc
  obtain ⟨_, -, hc⟩ := Option.bind_eq_some_iff.1 hc
  obtain ⟨_, -, hc⟩ := Option.bind_eq_some_iff.1 hc
  obtain ⟨_, -, hc⟩ := Option.bind_eq_some_iff.1 hc
  obtain ⟨_, -, hc⟩ := Option.bind_eq_some_iff.1 hc
  cases hc
  rfl

/-- Shards of the same splits with texts of the same digests are the same, where no two texts
    collide. -/
theorem contents_eq {contents contents' : List ShardContents}
    (hsplits : contents.map (·.split) = contents'.map (·.split))
    (hdigests : contents.map (fun c => av.sha256.hexdigest c.plaintext) =
      contents'.map fun c => av.sha256.hexdigest c.plaintext)
    (hfree : ∀ c ∈ contents, ∀ c' ∈ contents',
      av.sha256.digest c.plaintext = av.sha256.digest c'.plaintext → c.plaintext = c'.plaintext) :
    contents = contents' := by
  induction contents generalizing contents' with
  | nil => exact (List.map_eq_nil_iff.1 hsplits.symm).symm
  | cons c contents ih =>
    cases contents' with
    | nil => cases hsplits
    | cons c' contents' =>
      simp only [List.map_cons, List.cons.injEq] at hsplits hdigests
      have hplaintext := hfree c List.mem_cons_self c' List.mem_cons_self
        (digest_eq_of_hexdigest_eq hdigests.1)
      obtain ⟨split, plaintext⟩ := c
      obtain ⟨split', plaintext'⟩ := c'
      obtain rfl : split = split' := hsplits.1
      obtain rfl : plaintext = plaintext' := hplaintext
      rw [ih hsplits.2 hdigests.2 fun c hc c' hc' =>
        hfree c (List.mem_cons_of_mem _ hc) c' (List.mem_cons_of_mem _ hc')]

/-- **Tamper evidence.** Whatever files a manifest is read with, the rows are the same. -/
theorem readShards_unique {rows rows' : Split → List (List UInt8)}
    (hfree : CollisionFree av m files files') (h : readShards av m files = .ok rows)
    (h' : readShards av m files' = .ok rows') : rows' = rows := by
  obtain ⟨contents, hcontents, hdigest, rfl⟩ := readShards_eq_ok h
  obtain ⟨contents', hcontents', hdigest', rfl⟩ := readShards_eq_ok h'
  simp only [CollisionFree, hashed, hcontents, hcontents'] at hfree
  have hsplits : contents.map (·.split) = contents'.map (·.split) :=
    (map_split_of_mapM hcontents).symm.trans (map_split_of_mapM hcontents')
  have hlength : contents.length = contents'.length := by
    rw [← List.length_map (·.split), hsplits, List.length_map]
  have hjoined : joinDigests (digestsOf av m contents) = joinDigests (digestsOf av m contents') :=
    hfree _ (List.mem_append_right _ (List.mem_singleton_self _)) _
      (List.mem_append_right _ (List.mem_singleton_self _))
      (digest_eq_of_hexdigest_eq (hdigest.trans hdigest'.symm))
  have htexts := Bytes.encodeText_injective hjoined
  rw [digestsOf, digestsOf, List.flatMap_append, List.flatMap_append] at htexts
  have hdigests : contents.map (fun c => av.sha256.hexdigest c.plaintext) =
      contents'.map fun c => av.sha256.hexdigest c.plaintext := by
    refine eq_of_flatMap_toList_eq (n := 64) ?_ ?_ (by simpa using hlength)
      (List.append_cancel_right htexts)
    all_goals
      intro d hd
      obtain ⟨c, -, rfl⟩ := List.mem_map.1 hd
      exact length_hexdigest av.sha256 c.plaintext
  rw [contents_eq hsplits hdigests fun c hc c' hc' =>
    hfree _ (List.mem_append_left _ (List.mem_map_of_mem hc)) _
      (List.mem_append_left _ (List.mem_map_of_mem hc'))]

end Replaced

/-! ## Both

A read goes through the manifest, the shards and the tensors in turn. If all checks pass on some
files, and the digests are free of collisions, these files give the rows that were staged, whoever
put them there. -/

/-- **Shards come back, and no others.** The rows of every split are read as they were staged, each of
    them from its line, and whatever files the manifest is read with then, the read fails or its rows
    are the same. -/
theorem stagedShards_read_unique {sv : BuildServices} {av : ArtifactServices}
    {spec : BuildSpecification} {version : String} {asOf createdAt : ℤ} {considered : ℕ}
    {built : Built} {left files : Files} {manifest : SealedManifest}
    (hkeyring : av.keyring.Consistent) (hpromised : Promised spec version built)
    (h : stageFiles sv av spec version asOf createdAt considered built left = .ok (files, manifest))
    (hvalid : av.format.validate (av.format.encode manifest) = some manifest) :
    ∃ st rows, staging sv spec built = .ok st ∧ readShards av manifest files = .ok rows ∧
      (∀ split, rows split = stagedLines sv av spec st.splits split) ∧
      (∀ split, ∀ e ∈ st.splits split,
        av.json.loadsBytes (rowLine av (stagedRow sv.revision split e)) =
          some (JsonText.sortKeys (.obj (stagedRow sv.revision split e)))) ∧
      ∀ files', CollisionFree av manifest files files' →
        ∀ rows', readShards av manifest files' = .ok rows' → rows' = rows := by
  obtain ⟨st, rows, hst, hrows, hstaged⟩ := readShards_stageFiles hkeyring hpromised h hvalid
  refine ⟨st, rows, hst, hrows, hstaged, fun split e he => ?_, fun files' hfree rows' hrows' =>
    readShards_unique hfree hrows hrows'⟩
  exact loadsBytes_rowLine
    (proper_stagedRow (hpromised.rows e (staging_subset hst split he)) sv.revision split)

namespace Distilled

open Samples (buildServices)

/-- A distillation of one tenant, with tensors. -/
def specification : BuildSpecification := { Samples.specification with purpose := .distillation }

/-- An example with a soft target. -/
def e : BuiltExample where
  interactionId := "i1"
  tenantId := "acme"
  subject := none
  families := []
  startedAt := 0
  targetSource := "teacher"
  language := "en"
  exactHash := String.ofList (List.replicate 64 'a')
  text := ""
  row := [("tenant_id", .str "acme"), ("split", .str "train"), ("target", .str "one\u2028two\r\nthree")]

/-- A build of this one example. -/
def built : Built where
  examples := [e]
  exclusions := fun _ => 0
  softTargets := some [(e.exactHash, [1, 2, 3])]

/-- Floats as the integers of their bits, with a point. These are not the texts of `repr`, which
    prints the shortest decimal that reads back as the float: the results ask of the format no more
    than that its texts are numbers with a fraction and read back as what was printed. -/
def floats : JsonText.FloatFormat where
  repr x := Nat.toDigits 10 x.bits.toNat ++ ['.', '0']
  read text :=
    let bits := UInt64.ofNat (Nat.ofDigitChars 10 (text.take (text.length - 2)) 0)
    if h : bits >>> 52 &&& 0x7ff ≠ 0x7ff then some ⟨bits, h⟩ else none
  scan_repr x rest hrest := by
    obtain ⟨c, digits, hcons, hc, -⟩ := JsonText.toDigits_cons x.bits.toNat
    have hminus : c ≠ '-' := by
      rintro rfl
      cases hc
    have hwhole : JsonText.scanWhole (Nat.toDigits 10 x.bits.toNat ++ '.' :: '0' :: rest) =
        some (Nat.toDigits 10 x.bits.toNat, '.' :: '0' :: rest) :=
      JsonText.scanWhole_toDigits x.bits.toNat fun c hc => by cases hc; rfl
    have hspan : (['0'] ++ rest).takeWhile Char.isDigit = ['0'] ∧
        (['0'] ++ rest).dropWhile Char.isDigit = rest :=
      JsonText.span_digits (by simp) fun c hc => (hrest c hc).1
    have hsign : JsonText.scanSign false (Nat.toDigits 10 x.bits.toNat ++ '.' :: '0' :: rest) =
        ([], Nat.toDigits 10 x.bits.toNat ++ '.' :: '0' :: rest) := by
      rw [hcons]
      simp [JsonText.scanSign, hminus]
    have hfraction : JsonText.scanFraction ('.' :: '0' :: rest) = (['.', '0'], rest) := by
      rw [JsonText.scanFraction, if_pos ⟨rfl, by rw [← List.singleton_append, hspan.1]; simp⟩,
        ← List.singleton_append (l := rest), hspan.1, hspan.2]
    rw [List.append_assoc]
    simp only [JsonText.scanNumber, List.cons_append, List.nil_append, hsign, hwhole,
      Option.bind_eq_bind, Option.bind_some, hfraction, JsonText.scanExponent_follow hrest]
    simp
  read_repr x := by
    have htake : (Nat.toDigits 10 x.bits.toNat ++ ['.', '0']).take
        ((Nat.toDigits 10 x.bits.toNat ++ ['.', '0']).length - 2) = Nat.toDigits 10 x.bits.toNat := by
      rw [List.length_append]
      exact List.take_left' rfl
    simp only [htake, Nat.ofDigitChars_ten_toDigits, UInt64.ofNat_toNat]
    rw [dif_pos x.finite]

/-- Appends the associated data. -/
def aead : Crypto.Aead where
  encrypt _ content aad := content ++ aad
  decrypt _ ciphertext aad :=
    if aad <:+ ciphertext then some (ciphertext.take (ciphertext.length - aad.length)) else none
  decrypt_encrypt nonce content aad := by
    rw [if_pos (List.suffix_append content aad), List.length_append, Nat.add_sub_cancel,
      List.take_left]

/-- A nonce of twelve bytes. -/
def nonce : Nonce := ⟨List.replicate 12 0, rfl⟩

/-- Manifests as their digests, of which `expected` is read. -/
def format (expected : Option SealedManifest) : ManifestFormat where
  Dumped := String
  dump m := m.contentDigest
  encode m := JsonText.dump floats .compact (.str m.contentDigest)
  encodeWithout _ m := m.contentDigest.toList
  validate _ := expected
  noReturn m hm := absurd (JsonText.printable_dump floats .compact _ _ hm) (by decide)
  encodeWithout_signature _ _ := rfl

/-- Services whose manifest format prints and reads the one manifest of the run. -/
def services (expected : Option SealedManifest) : ArtifactServices where
  json := { floats, otherText := fun _ => none, otherBytes := fun _ => none }
  format := format expected
  sha256 :=
    { digest := fun bytes => (bytes ++ List.replicate 32 0).take 32
      length_digest := fun bytes => by simp }
  cipher :=
    { ciphers := fun version => if version = "local-1" then some aead else none
      keyVersion := "local-1"
      current := rfl }
  keyring := { signer := none, verifier := none, manifestHmac := fun _ => [] }
  nonces _ := nonce

theorem promised : Promised specification "v1" built where
  names := by decide
  tenants := by decide
  rows := by
    intro x hx
    obtain rfl := List.mem_singleton.1 hx
    exact ⟨by simp [e, JsonText.Proper, JsonText.ProperFields], rfl⟩
  hashes := by
    rintro tensors - x hx -
    obtain rfl := List.mem_singleton.1 hx
    decide
  owners := by
    rintro tensors - x hx x' hx' - -
    rw [List.mem_singleton.1 hx, List.mem_singleton.1 hx']

theorem sortedTenants_eq : specification.sortedTenants = ["acme"] :=
  Samples.sortedTenants_eq

/-- What is staged: the example is in training. -/
def staged : Staging where
  accepted := [e]
  splits split := [e].filter fun e => textField e.row "split" = some split.name
  counts _ := 0

theorem staging_built : staging buildServices specification built = .ok staged := rfl

/-- The staging succeeds, whatever the manifest is read as. -/
theorem stageFiles_built (expected : Option SealedManifest) :
    stageFiles buildServices (services expected) specification "v1" 5 6 1 built (fun _ => none) =
      stageFiles buildServices (services none) specification "v1" 5 6 1 built (fun _ => none) := rfl

theorem exists_stageFiles : ∃ files m,
    stageFiles buildServices (services none) specification "v1" 5 6 1 built (fun _ => none) =
      .ok (files, m) := by
  obtain ⟨shards, hshards⟩ : ∃ shards,
      sealShards buildServices (services none) specification "v1" staged.splits = .ok shards := by
    unfold sealShards shardsOf
    rw [sortedTenants_eq]
    exact ⟨_, rfl⟩
  unfold stageFiles
  rw [staging_built]
  simp only [Except.mapError, Except.ok_bind, hshards]
  exact ⟨_, _, rfl⟩

/-- The digests begin as the texts do. -/
theorem head?_digest (expected : Option SealedManifest) (bytes : List UInt8) :
    ((services expected).sha256.digest bytes).head? = some (bytes.head?.getD 0) := by
  cases bytes <;> rfl

/-- Digests begin with the first digit of the first byte. -/
theorem head?_joinDigests (expected : Option SealedManifest) (bytes : List UInt8)
    (digests : List String) :
    (joinDigests ((services expected).sha256.hexdigest (123 :: bytes) :: digests)).head? =
      some 55 := by
  rw [joinDigests, List.flatMap_cons, Sha256.hexdigest, String.toList_ofList]
  rfl

/-- The one row, the empty shards and the digests begin differently. -/
theorem collisionFree_built {files : Files} {m : SealedManifest}
    (h : stageFiles buildServices (services (some m)) specification "v1" 5 6 1 built
      (fun _ => none) = .ok (files, m)) : CollisionFree (services (some m)) m files files := by
  obtain ⟨st, shards, soft, hst, hshards, hsoft, -, hmanifest, hfiles⟩ := stageFiles_eq_ok h
  obtain rfl : staged = st := Except.ok.inj (staging_built.symm.trans hst)
  have hcontents := mapM_readShard_staged (m := m) (fun _ => none) promised hst hshards hsoft
    (by rw [hmanifest]; rfl) (by rw [hmanifest]; rfl)
  rw [← hfiles, sortedTenants_eq] at hcontents
  obtain ⟨row, digests, htexts, hrow, hdigests⟩ : ∃ row digests,
      hashed (services (some m)) m files = [row, [], [], digests] ∧
      row.head? = some 123 ∧ digests.head? = some 55 := by
    rw [hashed, hcontents]
    exact ⟨_, _, rfl, rfl, head?_joinDigests (some m) _ _⟩
  intro b hb b' hb' hdigest
  have hhead := congrArg List.head? hdigest
  rw [head?_digest, head?_digest, Option.some_inj] at hhead
  rw [htexts] at hb hb'
  simp only [List.mem_cons, List.not_mem_nil, or_false] at hb hb'
  rcases hb with rfl | rfl | rfl | rfl <;> rcases hb' with rfl | rfl | rfl | rfl <;>
    first
    | rfl
    | simp [hrow, hdigests] at hhead

/-- The row comes back, and a read of the same files reads it again. -/
theorem distillation_read : ∃ files m row rows,
    stageFiles buildServices (services (some m)) specification "v1" 5 6 1 built (fun _ => none) =
      .ok (files, m) ∧
    readShards (services (some m)) m files = .ok rows ∧ rows .train = [row] ∧
    (services (some m)).json.loadsBytes row = some (.obj [("split", .str "train"),
      ("target", .str "one\u2028two\r\nthree"), ("tenant_id", .str "acme"),
      ("transformation_code_revision", .str "unknown")]) ∧
    ∀ rows', readShards (services (some m)) m files = .ok rows' → rows' = rows := by
  obtain ⟨files, m, hnone⟩ := exists_stageFiles
  have h := (stageFiles_built (some m)).trans hnone
  obtain ⟨st, rows, hst, hrows, hstaged, hloads, hunique⟩ := stagedShards_read_unique
    (fun signer hsigner => by cases hsigner) promised h rfl
  obtain rfl : staged = st := Except.ok.inj (staging_built.symm.trans hst)
  refine ⟨files, m, _, rows, h, hrows, ?_, hloads .train e List.mem_cons_self,
    hunique files (collisionFree_built h)⟩
  rw [hstaged, stagedLines, sortedTenants_eq]
  rfl

end Distilled

end Datasets

end AdaptiveLlm
