import AdaptiveLlm.Datasets.Artifacts

set_option autoImplicit false

/-! # Shards come back

What `_stage` seals, `read_shards` reads: every row comes back as it was staged, whatever text it
has, by tenant in sorted order. And what `read_shards` returns for a manifest does not depend on the
files it reads, as far as no two texts that it hashes collide.

A row is one line of its shard. It is dumped without a control character in it, so that the lines
can be told apart whatever text the row has, and read back by the JSON reader of
`Lib/JsonText.lean`. The names of the files are made of a tenant's digest, or of an interaction's,
and no two files of a staging share a name unless two digests agree. -/

namespace AdaptiveLlm

namespace Datasets

open Crypto (Nonce PayloadCipher EncryptedPayload StorageError)
open Stored (Fields)

/-! ## Rows as lines -/

/-- The row of an example is a dictionary that names the example's tenant, as `IsOf` says. -/
structure Stageable (e : BuiltExample) : Prop where
  proper : JsonText.Proper (.obj e.row)
  tenant : textField e.row "tenant_id" = some e.tenantId

section Rows

variable {sv : BuildServices} {av : ArtifactServices}

theorem le_of_mem_rowLine (row : Fields) : ∀ b ∈ rowLine av row, 0x20 ≤ b.toNat :=
  Bytes.le_of_mem_encodeText (JsonText.printable_dump av.json.floats .compact _)

theorem plaintext_eq (revision : String) (shard : Shard) : shard.plaintext av revision =
    ((shard.rows revision).map (rowLine av)).flatMap fun line => line ++ [10] := by
  unfold Shard.plaintext
  induction shard.rows revision with
  | nil => rfl
  | cons row rows ih =>
    rw [List.flatMap_cons, List.map_cons, List.flatMap_cons, ← ih]
    simp only [Bytes.encodeText, List.flatMap_append, rowLine]
    rfl

/-- The lines of a shard are its rows, line separators in their texts or not. -/
theorem splitlines_plaintext (revision : String) (shard : Shard) :
    Bytes.splitlines (shard.plaintext av revision) = (shard.rows revision).map (rowLine av) := by
  rw [plaintext_eq]
  refine Bytes.splitlines_flatMap fun line hline => ?_
  obtain ⟨row, -, rfl⟩ := List.mem_map.1 hline
  exact le_of_mem_rowLine row

theorem loadsBytes_rowLine {row : Fields} (h : JsonText.Proper (.obj row)) :
    av.json.loadsBytes (rowLine av row) = some (JsonText.sortKeys (.obj row)) := by
  rw [Python.JsonReader.loadsBytes, rowLine, Bytes.decodeText_encodeText, Option.bind_some, dumpRow,
    JsonText.loads_dump av.json.floats .compact (JsonText.proper_sortKeys _ h), Option.some_or]

theorem textAt_sortKeys {row : Fields} (h : (row.map (·.1)).Nodup) {name text : String}
    (htext : textField row name = some text) :
    textAt (JsonText.sortKeys (.obj row)) name = some text := by
  obtain ⟨j, hj, hstr⟩ := Option.bind_eq_some_iff.1 htext
  cases j with
  | str s =>
    rw [textAt, JsonText.field_sortKeys h hj]
    exact hstr
  | _ => cases hstr

theorem proper_stagedRow {e : BuiltExample} (he : Stageable e) (revision : String) (split : Split) :
    JsonText.Proper (.obj (stagedRow revision split e)) := by
  refine JsonText.proper_setFields he.proper fun f hf => ?_
  rcases List.mem_cons.1 hf with rfl | hf
  · trivial
  · rw [List.mem_singleton.1 hf]
    trivial

theorem stagedRow_split (revision : String) (split : Split) (e : BuiltExample) :
    textField (stagedRow revision split e) "split" = some split.name := by
  simp [textField, stagedRow, Json.setFields, Json.lookup_setField, Json.str?]

theorem rowBelongs_stagedRow {e : BuiltExample} (he : Stageable e) (revision : String)
    (split : Split) :
    rowBelongs av e.tenantId split (rowLine av (stagedRow revision split e)) = true := by
  have hproper := proper_stagedRow he revision split
  have htenant : textField (stagedRow revision split e) "tenant_id" = some e.tenantId := by
    rw [stagedRow_text (by decide), he.tenant]
  rw [rowBelongs, loadsBytes_rowLine hproper, Option.any_some, textAt_sortKeys hproper.1 htenant,
    textAt_sortKeys hproper.1 (stagedRow_split revision split e)]
  simp

end Rows

/-! ## One file

Sealing binds the contents to the place of the file through the associated data, and reading opens
it with the data of the place that it reads from. A shard and a file of tensors differ in what is
sealed only. -/

section Files

variable {sv : BuildServices} {av : ArtifactServices} {m : SealedManifest} {files : Files}
  {binding : String} {nonce : Nonce}

/-- The texts of an envelope. -/
theorem textAt_envelopeOf (shard : Shard) (payload : EncryptedPayload) (digest : String) :
    let at' := textAt (envelopeOf shard payload digest)
    at' "field" = some "dataset" ∧ at' "tenant_id" = some shard.tenantId ∧
      at' "split" = some shard.split.name ∧ at' "key_version" = some payload.keyVersion ∧
      at' "nonce" = some (String.ofList (Bytes.base64 payload.nonce)) ∧
      at' "ciphertext" = some (String.ofList (Bytes.base64 payload.ciphertext)) ∧
      at' "plaintext_hash" = some digest :=
  ⟨rfl, rfl, rfl, rfl, rfl, rfl, rfl⟩

theorem openEnvelope_envelopeOf {shard : Shard} {plaintext : List UInt8} {digest : String}
    {payload : EncryptedPayload}
    (h : av.cipher.encrypt nonce plaintext shard.tenantId (bindingOf m.datasetId m.version) "dataset"
      (some shard.split.name) = .ok payload) :
    openEnvelope av m shard.tenantId shard.split (envelopeOf shard payload digest) =
      some plaintext := by
  have hdecrypt := PayloadCipher.decrypt_of_encrypt_eq_ok h
  have hfield := (PayloadCipher.encrypt_eq_ok h).1
  obtain ⟨htype, htenant, hsplit, hversion, hnonce, hciphertext, -⟩ :=
    textAt_envelopeOf shard payload digest
  obtain ⟨field, nonce, ciphertext, keyVersion⟩ := payload
  cases hfield
  simp [openEnvelope, htype, htenant, hsplit, hversion, hnonce, hciphertext,
    Bytes.unbase64_base64, hdecrypt, Except.toOption]

theorem proper_envelopeOf (shard : Shard) (payload : EncryptedPayload) (digest : String) :
    JsonText.Proper (envelopeOf shard payload digest) := by
  simp [envelopeOf, JsonText.Proper, JsonText.ProperFields]

/-- What was sealed of a shard. -/
theorem sealShard_eq_ok {shard : Shard} {w : Written}
    (h : sealShard sv av binding nonce shard = .ok w) :
    w.name = shardName shard.tenantId shard.split ∧
      w.digest = av.sha256.hexdigest (shard.plaintext av sv.revision) := by
  obtain ⟨payload, -, h⟩ := Except.bind_eq_ok.1 h
  cases h
  exact ⟨rfl, rfl⟩

/-- **One shard.** A sealed shard that is where it was written is read. -/
theorem readShard_of_sealShard {shard : Shard} {w : Written}
    (h : sealShard sv av (bindingOf m.datasetId m.version) nonce shard = .ok w)
    (hfile : files w.name = some { content := w.content })
    (hrows : ∀ e ∈ shard.examples, e.tenantId = shard.tenantId ∧ Stageable e) :
    readShard av m files (shard.tenantId, shard.split) =
      some { split := shard.split, plaintext := shard.plaintext av sv.revision } := by
  have hbelongs : ∀ line ∈ Bytes.splitlines (shard.plaintext av sv.revision),
      rowBelongs av shard.tenantId shard.split line = true := by
    rw [splitlines_plaintext]
    intro line hline
    obtain ⟨row, hrow, rfl⟩ := List.mem_map.1 hline
    obtain ⟨e, he, rfl⟩ := List.mem_map.1 hrow
    obtain ⟨htenant, he⟩ := hrows e he
    rw [← htenant]
    exact rowBelongs_stagedRow he sv.revision shard.split
  obtain ⟨payload, hpayload, h⟩ := Except.bind_eq_ok.1 h
  cases h
  have htext : files.readText (shardName shard.tenantId shard.split) = some (av.json.dumps
      (envelopeOf shard payload (av.sha256.hexdigest (shard.plaintext av sv.revision)))) := by
    rw [Files.readText, hfile, Option.bind_some, Python.JsonReader.readText_dumps]
  obtain ⟨-, -, -, -, -, -, hdigest⟩ := textAt_envelopeOf shard payload
    (av.sha256.hexdigest (shard.plaintext av sv.revision))
  simp only [readShard, htext, av.json.loads_dumps (proper_envelopeOf shard payload _),
    openEnvelope_envelopeOf hpayload, hdigest, guard, if_pos hbelongs, List.all_eq_true,
    if_true, Option.bind_eq_bind, Option.bind_some, Option.pure_def]

/-- What was sealed of the tensors of an example. -/
theorem sealSoftTarget_eq_ok {e : BuiltExample} {content : List UInt8} {w : Written}
    {file : SoftTargetFile} (h : sealSoftTarget av binding nonce e content = .ok (w, file)) :
    w.name = softTargetName e.exactHash ∧
      file =
        { tenantId := e.tenantId
          exampleHash := e.exactHash
          plaintextHash := av.sha256.hexdigest content
          keyVersion := av.cipher.keyVersion } := by
  obtain ⟨payload, hpayload, h⟩ := Except.bind_eq_ok.1 h
  cases h
  exact ⟨rfl, by rw [(PayloadCipher.encrypt_eq_ok hpayload).2.2]⟩

/-- **One soft target.** Sealed tensors that are where they were written are read. -/
theorem readSoftTarget_of_sealSoftTarget {e : BuiltExample} {content : List UInt8} {w : Written}
    {file : SoftTargetFile}
    (h : sealSoftTarget av (bindingOf m.datasetId m.version) nonce e content = .ok (w, file))
    (hhash : isHexDigest e.exactHash = true)
    (hfile : files w.name = some { content := w.content }) :
    readSoftTarget av m files file = some (e.exactHash, content) := by
  obtain ⟨payload, hpayload, h⟩ := Except.bind_eq_ok.1 h
  cases h
  have hdecrypt := PayloadCipher.decrypt_of_encrypt_eq_ok hpayload
  obtain ⟨hfield, hnonce, -⟩ := PayloadCipher.encrypt_eq_ok hpayload
  obtain ⟨field, bytes, ciphertext, keyVersion⟩ := payload
  cases hfield
  cases hnonce
  have htake : (nonce.1 ++ ciphertext).take 12 = nonce.1 := List.take_left' nonce.2
  have hdrop : (nonce.1 ++ ciphertext).drop 12 = ciphertext := List.drop_left' nonce.2
  have hstored : files (softTargetName e.exactHash) = some { content := nonce.1 ++ ciphertext } :=
    hfile
  simp [readSoftTarget, hhash, hstored, htake, hdrop, hdecrypt, Except.toOption]

end Files

/-! ## Names

Shards, tensors and the two files of the manifest have names of different forms, and within a form
the name tells the tenant, the split or the example. So writing one file leaves all others as they
are. -/

section Names

/-- Two texts that end differently are different. -/
theorem ne_of_suffix {a b : String} {p q : List Char} (ha : p <:+ a.toList) (hb : q <:+ b.toList)
    (hpq : ¬ p <:+ q) (hqp : ¬ q <:+ p) : a ≠ b := by
  rintro rfl
  exact (List.suffix_or_suffix_of_suffix ha hb).elim hpq hqp

theorem shardName_toList (tenantId : String) (split : Split) : (shardName tenantId split).toList =
    tenantId.toList ++ ("." ++ split.name ++ ".jsonl.enc").toList := by
  simp [shardName]

theorem suffix_shardName (tenantId : String) (split : Split) :
    ".jsonl.enc".toList <:+ (shardName tenantId split).toList := by
  simp only [shardName, String.toList_append]
  exact List.suffix_append _ _

theorem suffix_softTargetName (exampleHash : String) :
    ".safetensors.enc".toList <:+ (softTargetName exampleHash).toList := by
  simp only [softTargetName, String.toList_append]
  exact List.suffix_append _ _

theorem shardName_injective {tenantId tenantId' : String} {split split' : Split}
    (h : shardName tenantId split = shardName tenantId' split') :
    tenantId = tenantId' ∧ split = split' := by
  have hlists := congrArg String.toList h
  rw [shardName_toList, shardName_toList] at hlists
  have hsplit : split = split' := by
    have hsuffix := List.suffix_append tenantId.toList ("." ++ split.name ++ ".jsonl.enc").toList
    have hsuffix' := List.suffix_append tenantId'.toList ("." ++ split'.name ++ ".jsonl.enc").toList
    rw [← hlists] at hsuffix'
    have hor := List.suffix_or_suffix_of_suffix hsuffix hsuffix'
    revert hor
    cases split <;> cases split' <;> decide
  subst hsplit
  exact ⟨String.toList_inj.1 (List.append_cancel_right hlists), rfl⟩

theorem softTargetName_injective {exampleHash exampleHash' : String}
    (h : softTargetName exampleHash = softTargetName exampleHash') : exampleHash = exampleHash' := by
  have hlists := congrArg String.toList h
  simp only [softTargetName, String.toList_append] at hlists
  exact String.toList_inj.1 (List.append_cancel_right hlists)

end Names

/-! ## All files

Each file is written under a name of its own. So none overwrites another, and the file that the
manifest points to is the one that was sealed for it. -/

section Staged

variable {sv : BuildServices} {av : ArtifactServices} {spec : BuildSpecification}
  {version : String} {splits : Split → List BuiltExample} {shards : List Written}

/-- Where the shards are, in the order they are sealed in. -/
theorem places_of_shardsOf (tenants : List String) (splits : Split → List BuiltExample) :
    (shardsOf tenants splits).map (fun shard => (shard.tenantId, shard.split)) =
      tenants.flatMap fun tenant => SPLITS.map fun split => (tenant, split) := by
  simp [shardsOf, List.map_flatMap, Function.comp_def]

theorem places_nodup {tenants : List String} (h : tenants.Nodup) :
    (tenants.flatMap fun tenant => SPLITS.map fun split => (tenant, split)).Nodup :=
  h.product (by decide)

/-- Every shard is sealed. -/
theorem forall₂_of_sealShards (h : sealShards sv av spec version splits = .ok shards) :
    List.Forall₂ (fun shard w => ∃ nonce,
      sealShard sv av (bindingOf spec.datasetId version) nonce shard = .ok w)
      (shardsOf spec.sortedTenants splits) shards := by
  unfold sealShards at h
  refine (Except.forall₂_of_zipIdx_mapM_eq_ok (f := fun i =>
    sealShard sv av (bindingOf spec.datasetId version) (av.nonces i)) h).imp ?_
  rintro shard w ⟨i, hi⟩
  exact ⟨av.nonces i, hi⟩

theorem forall₂_of_sealSoftTargets {drawn : ℕ} {train : List BuiltExample}
    {tensors : List (String × List UInt8)} {soft : List (Written × SoftTargetFile)}
    (h : sealSoftTargets av spec version drawn train tensors = .ok soft) :
    List.Forall₂ (fun item p => ∃ nonce,
      sealSoftTarget av (bindingOf spec.datasetId version) nonce item.1 item.2 = .ok p)
      (withTensors train tensors) soft := by
  have hcalls := Except.forall₂_of_zipIdx_mapM_eq_ok
    (f := fun i (item : BuiltExample × List UInt8) =>
      sealSoftTarget av (bindingOf spec.datasetId version) (av.nonces (drawn + i)) item.1 item.2) h
  refine hcalls.imp ?_
  rintro item p ⟨i, hi⟩
  exact ⟨av.nonces (drawn + i), hi⟩

/-- The names of the shards, each written once. -/
theorem names_nodup (h : sealShards sv av spec version splits = .ok shards) :
    (shards.map (·.name)).Nodup := by
  have hnames : (shardsOf spec.sortedTenants splits).map
      (fun shard => shardName shard.tenantId shard.split) = shards.map (·.name) := by
    refine List.Forall₂.map_eq ((forall₂_of_sealShards h).imp ?_)
    rintro shard w ⟨nonce, hw⟩
    exact (sealShard_eq_ok hw).1.symm
  have hplaces := places_nodup spec.sortedTenants_nodup
  rw [← places_of_shardsOf spec.sortedTenants splits] at hplaces
  have hmap := hplaces.map (f := fun place : String × Split => shardName place.1 place.2)
    fun place place' hname => Prod.ext_iff.2 (shardName_injective hname)
  rw [List.map_map] at hmap
  exact hnames ▸ hmap

variable {left : Files} {soft : Option (List (Written × SoftTargetFile))} {m : SealedManifest}

theorem writeManifest_of_ne (files : Files) (m : SealedManifest) {name : String}
    (hjson : name ≠ "manifest.json") (hmac : name ≠ "manifest.mac") :
    writeManifest av files m name = files name :=
  LastWrite.apply_of_not_mem files (by simp [hjson, hmac])

/-- The manifest is read as it was encoded. -/
theorem readText_manifest (files : Files) (m : SealedManifest) :
    (writeManifest av files m).readText "manifest.json" = some (av.format.encode m) := by
  have hfile : writeManifest av files m "manifest.json" =
      some { content := Bytes.encodeText (av.format.encode m) } := by
    simp [writeManifest, LastWrite.apply]
  rw [Files.readText, hfile, Option.bind_some, Bytes.readText_encodeText (av.format.noReturn m)]

theorem readText_mac (files : Files) {m : SealedManifest} (hm : m.signature = none) :
    (writeManifest av files m).readText "manifest.mac" =
      some (av.keyring.manifestMac (av.format.encode m)) := by
  have hfile : writeManifest av files m "manifest.mac" =
      some { content := Bytes.encodeText (av.keyring.manifestMac (av.format.encode m)) } := by
    simp [writeManifest, LastWrite.apply, hm]
  have hreturn : '\r' ∉ av.keyring.manifestMac (av.format.encode m) := by
    intro hmem
    obtain ⟨d, hd, hc⟩ := Bytes.exists_of_mem_hex hmem
    have hdigit : ∀ d < 16, '\r' ≠ d.digitChar := by decide
    exact hdigit d hd hc
  rw [Files.readText, hfile, Option.bind_some, Bytes.readText_encodeText hreturn]

/-- A sealed shard is in its file. -/
theorem stagedFile_shard (h : sealShards sv av spec version splits = .ok shards)
    (hsoft : ∀ p ∈ soft.getD [], ∃ exampleHash, p.1.name = softTargetName exampleHash) {w : Written}
    (hw : w ∈ shards) :
    writeManifest av (writeShards left shards soft) m w.name = some { content := w.content } := by
  obtain ⟨shard, -, nonce, hshard⟩ := (forall₂_of_sealShards h).exists_of_mem_right hw
  have hsuffix : ".jsonl.enc".toList <:+ w.name.toList := by
    rw [(sealShard_eq_ok hshard).1]
    exact suffix_shardName _ _
  have hne : ∀ {name : String} {suffix : List Char}, suffix <:+ name.toList →
      ¬ ".jsonl.enc".toList <:+ suffix → ¬ suffix <:+ ".jsonl.enc".toList → w.name ≠ name :=
    fun hname hpq hqp => ne_of_suffix hsuffix hname hpq hqp
  have hwritten : writeAll left shards w.name = some { content := w.content } := by
    have hnodup : ((shards.map fun w => (w.name, some ({ content := w.content } : File))).map
        (·.1)).Nodup := by
      rw [List.map_map]
      exact names_nodup h
    exact LastWrite.apply_of_nodup left hnodup (List.mem_map_of_mem hw)
  rw [writeManifest_of_ne _ _ (hne (List.suffix_refl _) (by decide) (by decide))
    (hne (List.suffix_refl _) (by decide) (by decide))]
  cases soft with
  | none => exact hwritten
  | some written =>
    have hout : w.name ∉ ((written.map (·.1)).map fun w =>
        (w.name, some ({ content := w.content } : File))).map (·.1) := by
      intro hmem
      simp only [List.map_map, List.mem_map, Function.comp_def] at hmem
      obtain ⟨p, hp, hname⟩ := hmem
      obtain ⟨exampleHash, hp⟩ := hsoft p hp
      exact hne (suffix_softTargetName exampleHash) (by decide) (by decide) (hname.symm.trans hp)
    have hstale : ¬ ".safetensors.enc".toList <:+ w.name.toList := fun hstale =>
      hne hstale (by decide) (by decide) rfl
    show LastWrite.apply (unlinkStale (writeAll left shards)) _ w.name = _
    rw [LastWrite.apply_of_not_mem _ hout, unlinkStale, if_neg hstale, hwritten]

/-- A file of tensors holds the tensors of some example with its name. -/
theorem stagedFile_softTarget {written : List (Written × SoftTargetFile)}
    (hsoft : ∀ p ∈ written, ∃ exampleHash, p.1.name = softTargetName exampleHash)
    {p : Written × SoftTargetFile} (hp : p ∈ written) :
    ∃ p' ∈ written, p'.1.name = p.1.name ∧
      writeManifest av (writeShards left shards (some written)) m p.1.name =
        some { content := p'.1.content } := by
  obtain ⟨exampleHash, hname⟩ := hsoft p hp
  have hsuffix : ".safetensors.enc".toList <:+ p.1.name.toList := by
    rw [hname]
    exact suffix_softTargetName exampleHash
  have hmem : p.1.name ∈ ((written.map (·.1)).map fun w =>
      (w.name, some ({ content := w.content } : File))).map (·.1) := by
    simp only [List.map_map, List.mem_map, Function.comp_def]
    exact ⟨p, hp, rfl⟩
  obtain ⟨w, hw, hkey, happly⟩ :=
    LastWrite.exists_mem_apply (unlinkStale (writeAll left shards)) hmem
  simp only [List.map_map, List.mem_map, Function.comp_def] at hw
  obtain ⟨p', hp', rfl⟩ := hw
  refine ⟨p', hp', hkey, ?_⟩
  rw [writeManifest_of_ne _ _ (ne_of_suffix hsuffix (List.suffix_refl _) (by decide) (by decide))
    (ne_of_suffix hsuffix (List.suffix_refl _) (by decide) (by decide))]
  exact happly

end Staged

end Datasets

end AdaptiveLlm
