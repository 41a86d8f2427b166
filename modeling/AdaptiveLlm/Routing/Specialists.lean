import AdaptiveLlm.Lib.Except
import AdaptiveLlm.Lib.Runs
import AdaptiveLlm.Registry.SignedMetadata
import AdaptiveLlm.Routing.Chain

set_option autoImplicit false

/-! # Specialists of the registry

`RegistrySpecialists.load` (`routing/shadow.py`): the provider of a model version, from a cache of at
most eight. A call holds `_lock` to its end. It reads the model from the registry, and once more after
a load, which is slow; in between the registry may become anything else that is filed under the
primary key of its table.

What `registry.get` raises beyond its own errors and what a directory holds when it is loaded are
answers of the environment. The cache is keyed by version and digest, so a row that took another digest
leaves its old entry behind until the version is next read; the invariant ties an entry to both parts
of its key, and a reading compares both with the row that it has just seen.

What the registry may become between two readings is anything, so the result cannot be that the
candidate is current when it is returned. It is that there was a moment during the call at which the
registry allowed it. For a cached candidate this is the reading at which the entry was compared with
the row; for a loaded one the second reading, after the load. -/

namespace AdaptiveLlm

namespace Specialists

/-! ## Artifacts -/

/-- How loading a specialist can fail. -/
inductive LoadError where
  | modelNotFound
  | artifactIntegrityFailed
  | shadowModelIneligible
  /-- raised by other code -/
  | other
  deriving DecidableEq

/-- What a loader is made with; `hexdigest` is of SHA-256. -/
structure LoaderServices where
  reader : Python.JsonReader
  keyring : Signing.Keyring
  artifactMac : List Char → String
  hexdigest : List UInt8 → String
  foundation : Deployment
  tenants : List String
  allowedStates : List LifecycleState := [.shadow]

/-- The files of a directory by their relative paths. -/
abbrev Files : Type := List (String × List UInt8)

section Artifacts

variable (sv : LoaderServices)

/-- `artifact_digest`. -/
def artifactDigest (hashes : JsonDict String) : String :=
  sv.hexdigest (Bytes.encodeText
    (sv.reader.dumps (JsonText.sortKeys ((JsonWriter.dict JsonWriter.str).json hashes))))

/-- `verify_model_metadata`, with the services of the loader. -/
def verifyModelMetadata (m : Artifacts.ModelManifest) : Bool :=
  Artifacts.verifyModelMetadata sv.reader sv.keyring sv.artifactMac m

/-- The path of a file stays below the directory. -/
def isRelative (name : String) : Bool :=
  name.toList.head? ≠ some '/' && ['.', '.'] ∉ name.toList.splitOn '/'

/-- A listed file, if its path and its digest are right. -/
def verifyFile (files : Files) (entry : String × String) : Option (String × List UInt8) :=
  if isRelative entry.1 then
    (files.lookup entry.1).bind fun content =>
      if sv.hexdigest content = entry.2 then some (entry.1, content) else none
  else none

/-- `verify_artifact`; the directory is `none` where it is none or has links. -/
def verifyArtifact (m : Artifacts.ModelManifest) (directory : Option Files) : Option Files :=
  directory.bind fun files =>
    if verifyModelMetadata sv m && files.map Prod.fst ⊆ m.artifactHashes.entries.map Prod.fst &&
        m.artifactHashes.entries.map Prod.fst ⊆ files.map Prod.fst then
      (m.artifactHashes.entries.mapM (verifyFile sv files)).filter fun _ =>
        m.artifactDigest = artifactDigest sv m.artifactHashes
    else none

/-! ## Providers -/

/-- A provider of one loaded artifact. -/
structure SpecialistProvider where
  modelVersion : String
  artifactDigest : String
  /-- it is a `LoraGenerator` -/
  real : Bool
  /-- the bytes that it was loaded from -/
  verified : Files

/-- `SpecialistProvider.__init__`; a `LoraGenerator` may raise as well. -/
def loadProvider (m : Artifacts.ModelManifest) (directory : Option Files) :
    Option SpecialistProvider :=
  (verifyArtifact sv m directory).bind fun verified =>
    let real := m.adapterArchitecture ∈ ["lora-peft-v1", "student-full-v1", "pruned-full-v1"]
    if real || (verified.lookup "adapter_weights.bin").isSome then
      some
        { modelVersion := m.baseModelRevision ++ "." ++ m.artifactDigest
          artifactDigest := m.artifactDigest
          real
          verified }
    else none

/-- `ExecutionCandidate` with its provider. -/
structure SpecialistCandidate extends ExecutionCandidate where
  provider : SpecialistProvider

/-- The candidate of a model. -/
def candidateOf (m : Artifacts.ModelManifest) (provider : SpecialistProvider) :
    SpecialistCandidate where
  deployment :=
    { sv.foundation with
      modelDeploymentId := m.version
      modelId := m.baseModelId
      modelVersion := provider.modelVersion
      modelProvider := "local-specialist"
      processingRegion := m.processingRegion
      priceList :=
        { version := "model-" ++ m.version
          inputMicrosPer1000Tokens := m.inputMicrosPer1000Tokens.toNat
          outputMicrosPer1000Tokens := m.outputMicrosPer1000Tokens.toNat } }
  specialist := true
  contextLimit := m.contextLimit.toNat
  provider

end Artifacts

/-! ## The cache -/

/-- The version and the digest of the artifact. -/
abbrev CacheKey : Type := String × String

/-- The entries, the least recently used first. -/
abbrev Cache : Type := List (CacheKey × SpecialistCandidate)

namespace Cache

/-- `_evict`. -/
def evict (cache : Cache) (version : String) : Cache := cache.filter fun e => e.1.1 ≠ version

/-- `cache.move_to_end(key)`. -/
def moveToEnd (cache : Cache) (key : CacheKey) (c : SpecialistCandidate) : Cache :=
  cache.filter (fun e => e.1 ≠ key) ++ [(key, c)]

/-- `cache[key] = c`. -/
def setItem (cache : Cache) (key : CacheKey) (c : SpecialistCandidate) : Cache :=
  if key ∈ cache.map Prod.fst then cache.map fun e => if e.1 = key then (key, c) else e
  else cache ++ [(key, c)]

/-- A new entry drops the oldest beyond eight. -/
def store (cache : Cache) (key : CacheKey) (c : SpecialistCandidate) : Cache :=
  if 8 < (cache.setItem key c).length then (cache.setItem key c).drop 1 else cache.setItem key c

end Cache

/-! ## Loading -/

/-- Where a call stands. -/
inductive Phase where
  | waiting
  /-- under `_lock` -/
  | reading
  | loading (model : Artifacts.ModelManifest)
  /-- loaded, before the second reading -/
  | checking (model : Artifacts.ModelManifest) (provider : SpecialistProvider)
  | returned (c : SpecialistCandidate)
  | raised (error : LoadError)

/-- The call has returned or raised. -/
def Phase.ended : Phase → Bool
  | returned _ | raised _ => true
  | _ => false

/-- The call has begun and has not ended. -/
def Phase.underWay : Phase → Bool
  | reading | loading _ | checking _ _ => true
  | _ => false

/-- A call: which version, for which tenant. -/
structure LoadCall where
  version : String
  tenantId : String

/-- The table `models`: `version` is its primary key, and a row is written under its manifest's. -/
structure Models where
  row : String → Option Artifacts.ModelManifest
  filed : ∀ {version : String} {m : Artifacts.ModelManifest}, row version = some m → m.version = version

section Load

variable (sv : LoaderServices)

/-- `registry.get(version, internal)`. -/
def registryGet (models : Models) (version : String) : Except LoadError Artifacts.ModelManifest :=
  match models.row version with
  | none => .error .modelNotFound
  | some m =>
    if ¬m.tenantIds ⊆ sv.tenants then .error .modelNotFound
    else if verifyModelMetadata sv m then .ok m
    else .error .artifactIntegrityFailed

/-- Other entries of the version go, and all of them where its state is not allowed. -/
def tidy (cache : Cache) (version : String) (model : Artifacts.ModelManifest) : Cache :=
  cache.filter fun e => !(e.1.1 = version &&
    (e.1 ≠ (version, model.artifactDigest) || model.state ∉ sv.allowedStates))

/-- `_load` up to the load. -/
def firstRead (call : LoadCall) (cache : Cache) : Except LoadError Artifacts.ModelManifest → Cache × Phase
  | .error e => (cache.evict call.version, .raised e)
  | .ok model =>
    let key := (call.version, model.artifactDigest)
    let cache := tidy sv cache call.version model
    if model.state ∉ sv.allowedStates ∨ call.tenantId ∉ model.tenantIds then
      (cache, .raised .shadowModelIneligible)
    else
      match cache.lookup key with
      | some cached => (cache.moveToEnd key cached, .returned cached)
      | none => (cache, .loading model)

/-- `_load` after the load. -/
def secondRead (call : LoadCall) (cache : Cache) (model : Artifacts.ModelManifest)
    (provider : SpecialistProvider) : Except LoadError Artifacts.ModelManifest → Cache × Phase
  | .error e => (cache.evict call.version, .raised e)
  | .ok latest =>
    if latest.state ∉ sv.allowedStates ∨ latest.artifactDigest ≠ model.artifactDigest then
      (cache.evict call.version, .raised .shadowModelIneligible)
    else if call.tenantId ∉ latest.tenantIds then (cache, .raised .shadowModelIneligible)
    else
      let candidate := candidateOf sv model provider
      (cache.store (call.version, model.artifactDigest) candidate, .returned candidate)

end Load

/-! ## The system -/

/-- The registry, the cache with its lock, and where each call stands. -/
structure System (τ : Type) where
  models : Models
  cache : Cache := []
  /-- who holds `_lock` -/
  lock : Option τ := none
  phase : τ → Phase := fun _ => .waiting

/-- What `registry.get` answers while the registry is `models`. -/
def Answers (sv : LoaderServices) (models : Models) (version : String)
    (found : Except LoadError Artifacts.ModelManifest) : Prop :=
  found = registryGet sv models version ∨ found = .error .other

section Step

variable (sv : LoaderServices) {τ : Type} [DecidableEq τ] (calls : τ → LoadCall)

/-- A call goes on with a cache and a phase; it leaves the lock when it ends. -/
def System.goOn (s : System τ) (t : τ) (result : Cache × Phase) : System τ :=
  { s with
    cache := result.1
    lock := if result.2.ended then none else s.lock
    phase := Function.update s.phase t result.2 }

/-- One call goes on, or an operator changes the registry. -/
inductive Step : System τ → System τ → Prop
  | acquire {s : System τ} {t : τ} (waiting : s.phase t = .waiting) (free : s.lock = none) :
      Step s { s with lock := some t, phase := Function.update s.phase t .reading }
  | read {s : System τ} {t : τ} {found : Except LoadError Artifacts.ModelManifest}
      (reading : s.phase t = .reading) (answer : Answers sv s.models (calls t).version found) :
      Step s (s.goOn t (firstRead sv (calls t) s.cache found))
  | load {s : System τ} {t : τ} {m : Artifacts.ModelManifest} {directory : Option Files}
      {p : SpecialistProvider} (loading : s.phase t = .loading m)
      (loaded : loadProvider sv m directory = some p) : Step s (s.goOn t (s.cache, .checking m p))
  | loadFails {s : System τ} {t : τ} {m : Artifacts.ModelManifest} (error : LoadError)
      (loading : s.phase t = .loading m) : Step s (s.goOn t (s.cache, .raised error))
  | recheck {s : System τ} {t : τ} {m : Artifacts.ModelManifest} {p : SpecialistProvider}
      {found : Except LoadError Artifacts.ModelManifest} (checking : s.phase t = .checking m p)
      (answer : Answers sv s.models (calls t).version found) :
      Step s (s.goOn t (secondRead sv (calls t) s.cache m p found))
  /-- the registry becomes anything else -/
  | change {s : System τ} (models : Models) : Step s { s with models }

end Step

/-! ## What is cached

An entry of the cache is sound for the version and the digest of its key: it was loaded from files
with that digest, whose manifest was verified. Whether the model may still be used is asked at every
reading. -/

section Cached

variable {sv : LoaderServices}

/-- The provider was loaded from authenticated files with the digest. -/
structure Loaded (sv : LoaderServices) (p : SpecialistProvider) (digest : String) : Prop where
  provider : p.artifactDigest = digest
  files : ∃ hashes, artifactDigest sv hashes = digest ∧
    p.verified.map (fun f => (f.1, sv.hexdigest f.2)) = hashes.entries

theorem verifyFile_eq_some {files : Files} {entry : String × String} {f : String × List UInt8}
    (h : verifyFile sv files entry = some f) : id entry = (f.1, sv.hexdigest f.2) := by
  unfold verifyFile at h
  split at h
  · obtain ⟨content, -, hcontent⟩ := Option.bind_eq_some_iff.1 h
    split at hcontent
    · rename_i hdigest
      cases hcontent
      exact Prod.ext rfl hdigest.symm
    · cases hcontent
  · cases h

theorem verifyArtifact_eq_some {m : Artifacts.ModelManifest} {directory : Option Files} {verified : Files}
    (h : verifyArtifact sv m directory = some verified) :
    artifactDigest sv m.artifactHashes = m.artifactDigest ∧
      verified.map (fun f => (f.1, sv.hexdigest f.2)) = m.artifactHashes.entries := by
  obtain ⟨files, -, h⟩ := Option.bind_eq_some_iff.1 h
  split at h
  · obtain ⟨hread, hdigest⟩ := Option.filter_eq_some_iff.1 h
    have hentries := ((Option.forall₂_of_mapM_eq_some hread).imp fun _ _ => verifyFile_eq_some).map_eq
    rw [List.map_id] at hentries
    exact ⟨(of_decide_eq_true hdigest).symm, hentries.symm⟩
  · cases h

theorem loaded_of_loadProvider {m : Artifacts.ModelManifest} {directory : Option Files}
    {p : SpecialistProvider} (h : loadProvider sv m directory = some p) :
    Loaded sv p m.artifactDigest := by
  obtain ⟨verified, hverified, h⟩ := Option.bind_eq_some_iff.1 h
  dsimp only at h
  split at h
  · cases h
    exact ⟨rfl, m.artifactHashes, verifyArtifact_eq_some hverified⟩
  · cases h

/-- What `registry.get` has checked of a model that it returns for the version. -/
structure Authentic (sv : LoaderServices) (version : String) (m : Artifacts.ModelManifest) : Prop where
  version : m.version = version
  tenants : m.tenantIds ⊆ sv.tenants
  verified : verifyModelMetadata sv m = true

/-- The model may be used for a call. -/
structure Eligible (sv : LoaderServices) (call : LoadCall) (m : Artifacts.ModelManifest) : Prop where
  state : m.state ∈ sv.allowedStates
  tenant : call.tenantId ∈ m.tenantIds

/-- A candidate for the key: of an authentic model of the key's version and digest that was in an
    allowed state, with a provider that was loaded from that digest. -/
structure Sound (sv : LoaderServices) (key : CacheKey) (c : SpecialistCandidate) : Prop where
  model : ∃ m, c = candidateOf sv m c.provider ∧ Authentic sv key.1 m ∧ m.artifactDigest = key.2 ∧
    m.state ∈ sv.allowedStates
  loaded : Loaded sv c.provider key.2

theorem Sound.modelDeploymentId {key : CacheKey} {c : SpecialistCandidate} (h : Sound sv key c) :
    c.deployment.modelDeploymentId = key.1 := by
  obtain ⟨m, hcandidate, hauthentic, -, -⟩ := h.model
  rw [hcandidate]
  exact hauthentic.version

/-- Every entry is of its key's version and digest, and there are at most eight. -/
structure Cache.Valid (sv : LoaderServices) (cache : Cache) : Prop where
  sound : ∀ e ∈ cache, Sound sv e.1 e.2
  length_le : cache.length ≤ 8

namespace Cache

variable {cache : Cache} {key : CacheKey} {c : SpecialistCandidate}

theorem Valid.filter (h : cache.Valid sv) (q : CacheKey × SpecialistCandidate → Bool) :
    Valid sv (cache.filter q) where
  sound e he := h.sound e (List.mem_filter.1 he).1
  length_le := (List.length_filter_le q cache).trans h.length_le

theorem mem_of_lookup (h : cache.lookup key = some c) : (key, c) ∈ cache := by
  obtain ⟨before, after, rfl, -⟩ := List.lookup_eq_some_iff.1 h
  exact List.mem_append_right _ List.mem_cons_self

theorem Valid.moveToEnd (h : cache.Valid sv) (hmem : (key, c) ∈ cache) :
    Valid sv (cache.moveToEnd key c) where
  sound e he := by
    rcases List.mem_append.1 he with he | he
    · exact h.sound e (List.mem_filter.1 he).1
    · rw [List.mem_singleton.1 he]
      exact h.sound _ hmem
  length_le := by
    have hlt : (cache.filter fun e => e.1 ≠ key).length < cache.length :=
      List.length_filter_lt_length_iff_exists.2 ⟨_, hmem, by simp⟩
    have hle := h.length_le
    rw [Cache.moveToEnd, List.length_append, List.length_singleton]
    omega

/-- Nine entries are one too many. -/
theorem Valid.store (h : cache.Valid sv) (hc : Sound sv key c) : Valid sv (cache.store key c) := by
  have hsound : ∀ e ∈ cache.setItem key c, Sound sv e.1 e.2 := by
    intro e he
    unfold setItem at he
    split at he
    · obtain ⟨old, hold, rfl⟩ := List.mem_map.1 he
      split
      · exact hc
      · exact h.sound old hold
    · rcases List.mem_append.1 he with he | he
      · exact h.sound e he
      · rw [List.mem_singleton.1 he]
        exact hc
  have hlength : (cache.setItem key c).length ≤ 9 := by
    have hle := h.length_le
    unfold setItem
    split
    · rw [List.length_map]
      omega
    · rw [List.length_append, List.length_singleton]
      omega
  unfold Cache.store
  split
  · refine ⟨fun e he => hsound e (List.mem_of_mem_drop he), ?_⟩
    rw [List.length_drop]
    omega
  · rename_i hfits
    exact ⟨hsound, Nat.le_of_not_lt hfits⟩

end Cache

/-- What a reading leads to: a valid cache, with a candidate the eligible model that was read and whose
    version and digest it has, and a load only of the eligible model that was read. -/
structure ReadSpec (sv : LoaderServices) (call : LoadCall)
    (found : Except LoadError Artifacts.ModelManifest) (result : Cache × Phase) : Prop where
  valid : result.1.Valid sv
  returned : ∀ c, result.2 = .returned c →
    ∃ m, found = .ok m ∧ Eligible sv call m ∧ Sound sv (call.version, m.artifactDigest) c
  loading : ∀ m, result.2 = .loading m → found = .ok m ∧ Eligible sv call m
  checking : ∀ m p, result.2 ≠ .checking m p

variable {call : LoadCall} {cache : Cache} {found : Except LoadError Artifacts.ModelManifest}

theorem ReadSpec.raised {result : Cache} (h : result.Valid sv) (error : LoadError) :
    ReadSpec sv call found (result, .raised error) where
  valid := h
  returned c hc := by
    dsimp only at hc
    cases hc
  loading m hm := by
    dsimp only at hm
    cases hm
  checking m p hp := by
    dsimp only at hp
    cases hp

theorem ReadSpec.load {result : Cache} (h : result.Valid sv) {model : Artifacts.ModelManifest}
    (heligible : Eligible sv call model) : ReadSpec sv call (.ok model) (result, .loading model) where
  valid := h
  returned c hc := by
    dsimp only at hc
    cases hc
  loading m hm := by
    dsimp only at hm
    cases hm
    exact ⟨rfl, heligible⟩
  checking m p hp := by
    dsimp only at hp
    cases hp

theorem ReadSpec.ok {result : Cache} (h : result.Valid sv) {m : Artifacts.ModelManifest}
    (heligible : Eligible sv call m) {c : SpecialistCandidate}
    (hsound : Sound sv (call.version, m.artifactDigest) c) :
    ReadSpec sv call (.ok m) (result, .returned c) where
  valid := h
  returned c' hc := by
    dsimp only at hc
    cases hc
    exact ⟨m, rfl, heligible, hsound⟩
  loading m hm := by
    dsimp only at hm
    cases hm
  checking m p hp := by
    dsimp only at hp
    cases hp

theorem firstRead_spec (h : cache.Valid sv) : ReadSpec sv call found (firstRead sv call cache found) := by
  cases found with
  | error e => exact .raised (h.filter _) e
  | ok model =>
    have htidy : Cache.Valid sv (tidy sv cache call.version model) := h.filter _
    unfold firstRead
    dsimp only
    split
    · exact .raised htidy _
    · rename_i heligible
      rw [not_or, not_not, not_not] at heligible
      split
      · rename_i cached hcached
        have hmem := Cache.mem_of_lookup hcached
        exact .ok (htidy.moveToEnd hmem) ⟨heligible.1, heligible.2⟩ (htidy.sound _ hmem)
      · exact .load htidy ⟨heligible.1, heligible.2⟩

theorem secondRead_spec (h : cache.Valid sv) {model : Artifacts.ModelManifest} {p : SpecialistProvider}
    (hread : Authentic sv call.version model) (hstate : model.state ∈ sv.allowedStates)
    (hloaded : Loaded sv p model.artifactDigest) :
    ReadSpec sv call found (secondRead sv call cache model p found) := by
  cases found with
  | error e => exact .raised (h.filter _) e
  | ok latest =>
    have hsound : Sound sv (call.version, model.artifactDigest) (candidateOf sv model p) :=
      ⟨⟨model, rfl, hread, rfl, hstate⟩, hloaded⟩
    unfold secondRead
    dsimp only
    split
    · exact .raised (h.filter _) _
    · rename_i hlatest
      rw [not_or, not_not, not_not] at hlatest
      split
      · exact .raised h _
      · rename_i htenant
        have hsame : Sound sv (call.version, latest.artifactDigest) (candidateOf sv model p) := by
          rwa [hlatest.2]
        exact .ok (h.store hsound) ⟨hlatest.1, not_not.1 htenant⟩ hsame

theorem registryGet_eq_ok {models : Models} {version : String} {m : Artifacts.ModelManifest}
    (h : registryGet sv models version = .ok m) :
    models.row version = some m ∧ Authentic sv version m := by
  unfold registryGet at h
  cases hrow : models.row version with
  | none =>
    rw [hrow] at h
    cases h
  | some row =>
    rw [hrow] at h
    dsimp only at h
    split_ifs at h with htenants hverified
    cases h
    exact ⟨rfl, models.filed hrow, htenants, hverified⟩

/-- An answer that is a model is the registry's row, and authentic. -/
theorem Answers.ok {models : Models} {version : String} {m : Artifacts.ModelManifest}
    (h : Answers sv models version (.ok m)) : models.row version = some m ∧ Authentic sv version m := by
  rcases h with hget | hother
  · exact registryGet_eq_ok hget.symm
  · cases hother

/-- The model of a call is eligible in the registry, and the candidate is that model's: deployed under
    its version, and loaded from its digest. -/
def Current (sv : LoaderServices) (models : Models) (call : LoadCall) (c : SpecialistCandidate) : Prop :=
  ∃ m, models.row call.version = some m ∧ Eligible sv call m ∧
    c.deployment.modelDeploymentId = m.version ∧ Sound sv (m.version, m.artifactDigest) c

theorem ReadSpec.current {result : Cache × Phase} (h : ReadSpec sv call found result) {models : Models}
    (answer : Answers sv models call.version found) {c : SpecialistCandidate}
    (hc : result.2 = .returned c) : Current sv models call c := by
  obtain ⟨m, rfl, heligible, hsound⟩ := h.returned c hc
  obtain ⟨hrow, hauthentic⟩ := answer.ok
  rw [← hauthentic.version] at hsound
  exact ⟨m, hrow, heligible, hsound.modelDeploymentId, hsound⟩

end Cached

/-! ## Runs

The moment that the result speaks of is the reading after which the call returns. In between the
registry may change again, which is why it is a moment of the call and not its end. -/

section Runs

variable {sv : LoaderServices} {τ : Type} [DecidableEq τ] {calls : τ → LoadCall} {s s' : System τ}

/-- What a call holds in a phase: a model that it read as authentic and eligible, and later a provider
    that was loaded from that model's digest. -/
def Holds (sv : LoaderServices) (call : LoadCall) : Phase → Prop
  | .loading m => Authentic sv call.version m ∧ Eligible sv call m
  | .checking m p => Authentic sv call.version m ∧ Eligible sv call m ∧ Loaded sv p m.artifactDigest
  | _ => True

theorem ReadSpec.holds {call : LoadCall} {found : Except LoadError Artifacts.ModelManifest}
    {result : Cache × Phase} (h : ReadSpec sv call found result) {models : Models}
    (answer : Answers sv models call.version found) : Holds sv call result.2 := by
  cases hphase : result.2 with
  | loading m =>
    obtain ⟨rfl, heligible⟩ := h.loading m hphase
    exact ⟨answer.ok.2, heligible⟩
  | checking m p => exact absurd hphase (h.checking m p)
  | _ => trivial

/-- The cache is valid, and every call holds what it has read. -/
structure Inv (sv : LoaderServices) (calls : τ → LoadCall) (s : System τ) : Prop where
  valid : s.cache.Valid sv
  holds : ∀ t, Holds sv (calls t) (s.phase t)

theorem Inv.goOn (h : Inv sv calls s) {t : τ} {result : Cache × Phase} (hvalid : result.1.Valid sv)
    (hholds : Holds sv (calls t) result.2) : Inv sv calls (s.goOn t result) where
  valid := hvalid
  holds t' := by
    change Holds sv (calls t') (Function.update s.phase t result.2 t')
    by_cases heq : t' = t
    · subst heq
      rwa [Function.update_self]
    · rw [Function.update_of_ne heq]
      exact h.holds t'

omit [DecidableEq τ] in
theorem Inv.recheck_spec (h : Inv sv calls s) {t : τ} {m : Artifacts.ModelManifest}
    {p : SpecialistProvider} (checking : s.phase t = .checking m p)
    {found : Except LoadError Artifacts.ModelManifest} :
    ReadSpec sv (calls t) found (secondRead sv (calls t) s.cache m p found) := by
  have hholds := h.holds t
  rw [checking] at hholds
  obtain ⟨hauthentic, heligible, hloaded⟩ := hholds
  exact secondRead_spec h.valid hauthentic heligible.state hloaded

theorem Inv.step (h : Inv sv calls s) (hstep : Step sv calls s s') : Inv sv calls s' := by
  cases hstep with
  | @acquire t waiting free =>
    have hreading : Inv sv calls (s.goOn t (s.cache, .reading)) := h.goOn h.valid trivial
    exact ⟨h.valid, hreading.holds⟩
  | @read t found reading answer =>
    have hspec : ReadSpec sv (calls t) found _ := firstRead_spec h.valid
    exact h.goOn hspec.valid (hspec.holds answer)
  | @load t m directory p loading loaded =>
    have hholds := h.holds t
    rw [loading] at hholds
    exact h.goOn h.valid ⟨hholds.1, hholds.2, loaded_of_loadProvider loaded⟩
  | loadFails error loading => exact h.goOn h.valid trivial
  | @recheck t m p found checking answer =>
    have hspec : ReadSpec sv (calls t) found _ := h.recheck_spec checking
    exact h.goOn hspec.valid (hspec.holds answer)
  | change models => exact ⟨h.valid, h.holds⟩

/-- Only the call that goes on changes its phase. -/
theorem phase_of_update {t t' : τ} {phase : Phase} {c : SpecialistCandidate}
    (hbefore : s.phase t' ≠ .returned c) (hafter : Function.update s.phase t phase t' = .returned c) :
    t' = t ∧ phase = .returned c := by
  by_cases heq : t' = t
  · subst heq
    exact ⟨rfl, (Function.update_self ..).symm.trans hafter⟩
  · exact absurd ((Function.update_of_ne heq _ _).symm.trans hafter) hbefore

theorem Inv.current_of_step (h : Inv sv calls s) (hstep : Step sv calls s s') {t : τ}
    {c : SpecialistCandidate} (hbefore : s.phase t ≠ .returned c) (hafter : s'.phase t = .returned c) :
    (s.phase t).underWay = true ∧ Current sv s.models (calls t) c := by
  cases hstep with
  | acquire waiting free =>
    obtain ⟨-, hc⟩ := phase_of_update hbefore hafter
    cases hc
  | read reading answer =>
    obtain ⟨rfl, hc⟩ := phase_of_update hbefore hafter
    rw [reading]
    exact ⟨rfl, (firstRead_spec h.valid).current answer hc⟩
  | load loading loaded =>
    obtain ⟨-, hc⟩ := phase_of_update hbefore hafter
    dsimp only at hc
    cases hc
  | loadFails error loading =>
    obtain ⟨-, hc⟩ := phase_of_update hbefore hafter
    dsimp only at hc
    cases hc
  | recheck checking answer =>
    obtain ⟨rfl, hc⟩ := phase_of_update hbefore hafter
    rw [checking]
    exact ⟨rfl, (h.recheck_spec checking).current answer hc⟩
  | change models => exact absurd hafter hbefore

/-- Nothing is cached and no call has begun; the registry is anything. -/
structure Initial (s : System τ) : Prop where
  cache : s.cache = []
  lock : s.lock = none
  phase : ∀ t, s.phase t = .waiting

/-- **Specialists are current**: for a candidate that a call returns, there was a moment of the call at
    which the model of the version asked for was in an allowed state, belonged to the tenant and had the
    digest of the files that the provider was loaded from, and the candidate is deployed under that
    version; and at most eight are cached. -/
theorem specialists_current {run : ℕ → System τ} {n : ℕ} (h₀ : Initial (run 0))
    (hrun : ∀ i < n, Step sv calls (run i) (run (i + 1))) :
    (run n).cache.length ≤ 8 ∧
      ∀ t c, (run n).phase t = .returned c →
        ∃ i < n, ((run i).phase t).underWay = true ∧ Current sv (run i).models (calls t) c := by
  have hinit : Inv sv calls (run 0) := by
    refine ⟨?_, fun t => ?_⟩
    · rw [h₀.cache]
      exact ⟨fun _ he => absurd he List.not_mem_nil, Nat.zero_le 8⟩
    · rw [h₀.phase t]
      trivial
  have hinv : ∀ i ≤ n, Inv sv calls (run i) :=
    Runs.trace_of_invariant (fun _ _ hs hstep => Inv.step hs hstep) hrun hinit
  refine ⟨(hinv n le_rfl).valid.length_le, fun t c hc => ?_⟩
  have hstart : ¬(run 0).phase t = .returned c := by
    rw [h₀.phase t]
    intro hwaiting
    cases hwaiting
  obtain ⟨i, hi, hstep, hbefore, hafter⟩ :=
    Runs.exists_step_of_trace (P := fun s => s.phase t = .returned c) hrun hstart hc
  exact ⟨i, hi, (hinv i hi.le).current_of_step hstep hbefore hafter⟩

end Runs

/-! Two calls for a specialist that is in shadow: the first loads it, the second finds it in
the cache. -/

namespace Samples

/-- A loader without signatures that accepts the sample files. -/
def loader : LoaderServices where
  reader := Artifacts.Samples.reader
  keyring := { signer := none, verifier := none, manifestHmac := id }
  artifactMac _ := "mac"
  hexdigest _ := "digest"
  foundation := ⟨"foundation", "local", "fake", "1", "local", ⟨"1", 0, 0⟩⟩
  tenants := ["acme"]

/-- The sample model in shadow. -/
def specialist : Artifacts.ModelManifest :=
  { Artifacts.Samples.candidate with
    state := .shadow
    artifactHashes := ⟨[("adapter_weights.bin", "digest")], by decide⟩
    artifactDigest := "digest" }

/-- A registry of this one version. -/
def models : Models where
  row version := if version = "v1" then some specialist else none
  filed h := by
    obtain ⟨hversion, hm⟩ := Option.ite_none_right_eq_some.1 h
    cases hm
    exact hversion.symm

/-- A call for it. -/
def call : LoadCall := ⟨"v1", "acme"⟩

/-- What is loaded for it. -/
def provider : SpecialistProvider :=
  ⟨"fake-1.digest", "digest", false, [("adapter_weights.bin", [7])]⟩

/-- The candidate that is returned. -/
def candidate : SpecialistCandidate := candidateOf loader specialist provider

/-- The phases of the first call and of the second. -/
def phases (first second : Phase) : Bool → Phase := Bool.rec first second

/-- The first call is under the lock, has read, has loaded and returns; then the second does. -/
def run : ℕ → System Bool
  | 0 => { models, phase := phases .waiting .waiting }
  | 1 => { models, lock := some false, phase := phases .reading .waiting }
  | 2 => { models, lock := some false, phase := phases (.loading specialist) .waiting }
  | 3 => { models, lock := some false, phase := phases (.checking specialist provider) .waiting }
  | 4 =>
    { models, cache := [(("v1", "digest"), candidate)]
      phase := phases (.returned candidate) .waiting }
  | 5 =>
    { models, cache := [(("v1", "digest"), candidate)], lock := some true
      phase := phases (.returned candidate) .reading }
  | _ =>
    { models, cache := [(("v1", "digest"), candidate)]
      phase := phases (.returned candidate) (.returned candidate) }

theorem found : Answers loader models call.version (.ok specialist) := .inl rfl

theorem loaded : loadProvider loader specialist (some [("adapter_weights.bin", [7])]) = some provider := by
  rfl

variable {s : System Bool} {first second : Phase}

/-- The first call goes on and the second stays. -/
theorem goOn_first (h : s.phase = phases first second) (result : Cache × Phase) :
    s.goOn false result =
      { s with
        cache := result.1
        lock := if result.2.ended then none else s.lock
        phase := phases result.2 second } := by
  have hupdate : Function.update s.phase false result.2 = phases result.2 second := by
    rw [h]
    funext b
    cases b <;> rfl
  rw [System.goOn, hupdate]

/-- The second call goes on and the first stays. -/
theorem goOn_second (h : s.phase = phases first second) (result : Cache × Phase) :
    s.goOn true result =
      { s with
        cache := result.1
        lock := if result.2.ended then none else s.lock
        phase := phases first result.2 } := by
  have hupdate : Function.update s.phase true result.2 = phases first result.2 := by
    rw [h]
    funext b
    cases b <;> rfl
  rw [System.goOn, hupdate]

theorem steps : ∀ i < 6, Step loader (fun _ => call) (run i) (run (i + 1)) := by
  intro i hi
  match i with
  | 0 =>
    have h : Step loader (fun _ => call) (run 0)
        { (run 0).goOn false ([], .reading) with lock := some false } := .acquire rfl rfl
    rwa [goOn_first (s := run 0) rfl] at h
  | 1 =>
    have h : Step loader (fun _ => call) (run 1) _ := .read (t := false) rfl found
    rwa [goOn_first (s := run 1) rfl] at h
  | 2 =>
    have h : Step loader (fun _ => call) (run 2) _ := .load (t := false) rfl loaded
    rwa [goOn_first (s := run 2) rfl] at h
  | 3 =>
    have h : Step loader (fun _ => call) (run 3) _ := .recheck (t := false) rfl found
    rwa [goOn_first (s := run 3) rfl] at h
  | 4 =>
    have h : Step loader (fun _ => call) (run 4)
        { (run 4).goOn true ((run 4).cache, .reading) with lock := some true } := .acquire rfl rfl
    rwa [goOn_second (s := run 4) rfl] at h
  | 5 =>
    have h : Step loader (fun _ => call) (run 5) _ := .read (t := true) rfl found
    rwa [goOn_second (s := run 5) rfl] at h

theorem run_initial : Initial (run 0) := ⟨rfl, rfl, Bool.rec rfl rfl⟩

end Samples

/-- The candidate of the second call, out of the cache. -/
theorem specialist_returned : (Samples.run 6).cache.length ≤ 8 ∧
    ∀ c, (Samples.run 6).phase true = .returned c → ∃ i < 6,
      ((Samples.run i).phase true).underWay = true ∧
        Current Samples.loader (Samples.run i).models Samples.call c :=
  (specialists_current Samples.run_initial Samples.steps).imp_right fun h => h true

end Specialists

end AdaptiveLlm
