import AdaptiveLlm.Contracts.Messages
import AdaptiveLlm.Lib.Runs
import AdaptiveLlm.Signing.Records
import Mathlib.Logic.Function.Basic

set_option autoImplicit false

/-! # Key rotation

`rotate` and `local_keys` (`signing/__init__.py`): a private key has a file of its own, which is created
once, and the public keys are in one ring, which is published last by replacing its file. `rotate` takes no
lock and `local_keys` holds one from before it looks for the ring until it returns. Callers change places
between any two of their file operations, and each may raise or be killed anywhere, which frees its lock.

Nothing stops `rotate` from being given one path twice. A private key that is written where the ring belongs
is lost when the ring is published, so the keys are kept where the private paths are others.

The steps are file operations: to look for a file, to create one exclusively, to write a temporary
file and to rename it over another. A file that was created exclusively is never written again,
which keeps the private keys. The ring is replaced as a whole and its new text has the keys of the
one that was read, so a key can only be lost to a rotation that read before and published after;
rotations one after the other do not overlap. -/

namespace AdaptiveLlm

namespace Signing

/-- Ed25519 with the encodings of its keys and signatures; neither of these is empty. -/
structure Ed25519 (κ π : Type) where
  publicKey : κ → π
  sign : κ → List UInt8 → String
  verify : π → List UInt8 → String → Bool
  verify_sign : ∀ key payload, verify (publicKey key) payload (sign key payload) = true
  sign_ne_empty : ∀ key payload, sign key payload ≠ ""

/-! ## The ring -/

/-- Whether a key signs, or only verifies. -/
inductive KeyStatus where
  | active
  | verifyOnly
  deriving DecidableEq, Repr

/-- A key of the ring. -/
structure RingEntry (π : Type) where
  status : KeyStatus
  publicKey : π

/-- `PublicKeyRing`: the keys by their identifiers, and which one signs. -/
structure Ring (π : Type) where
  keys : List (String × RingEntry π) := []
  activeKeyId : Option String := none

namespace Ring

variable {π : Type}

/-- The identifiers of the ring. -/
def ids (ring : Ring π) : List String := ring.keys.map (·.1)

/-- The keys of the verifier that `Ed25519Verifier.load` makes of the ring. -/
def publicKeys (ring : Ring π) : List (String × π) :=
  ring.keys.map fun entry => (entry.1, entry.2.publicKey)

/-- The ring that `rotate` publishes, of a ring without the new key id. -/
def publish (ring : Ring π) (keyId : String) (publicKey : π) : Ring π where
  keys := ring.keys.map (fun entry => (entry.1, { entry.2 with status := .verifyOnly })) ++
    [(keyId, ⟨.active, publicKey⟩)]
  activeKeyId := some keyId

/-- Each key id has one entry, and the active ones are the one of `active_key_id`. -/
structure WellFormed (ring : Ring π) : Prop where
  nodup : ring.ids.Nodup
  active : ∃ keyId ∈ ring.activeKeyId, ∀ entry ∈ ring.keys, entry.2.status = .active ↔ entry.1 = keyId
  activeKeyId : ∀ keyId ∈ ring.activeKeyId, keyId ∈ ring.ids

@[simp] theorem ids_publish (ring : Ring π) (keyId : String) (publicKey : π) :
    (ring.publish keyId publicKey).ids = ring.ids ++ [keyId] := by
  simp [ids, publish, Function.comp_def]

@[simp] theorem publicKeys_publish (ring : Ring π) (keyId : String) (publicKey : π) :
    (ring.publish keyId publicKey).publicKeys = ring.publicKeys ++ [(keyId, publicKey)] := by
  simp [publicKeys, publish, Function.comp_def]

theorem wellFormed_publish {ring : Ring π} (hnodup : ring.ids.Nodup) {keyId : String}
    (hnew : keyId ∉ ring.ids) (publicKey : π) : (ring.publish keyId publicKey).WellFormed where
  nodup := by
    rw [ids_publish]
    exact hnodup.append (List.nodup_singleton keyId) (List.disjoint_singleton.2 hnew)
  active := by
    refine ⟨keyId, rfl, fun entry hentry => ?_⟩
    rcases List.mem_append.1 hentry with hold | hentry
    · obtain ⟨old, hmem, rfl⟩ := List.mem_map.1 hold
      have hid : old.1 ∈ ring.ids := List.mem_map_of_mem hmem
      exact ⟨fun h => (by cases h), fun h => absurd (h ▸ hid) hnew⟩
    · obtain rfl := List.mem_singleton.1 hentry
      exact ⟨fun _ => rfl, fun _ => rfl⟩
  activeKeyId := by
    rintro _ ⟨⟩
    simp

end Ring

section Parties

variable {κ π : Type} (e : Ed25519 κ π)

/-- `Ed25519Signer`. -/
def Ed25519.signer (key : κ) (keyId : String) : Signer where
  keyId := keyId
  sign := e.sign key

/-- `Ed25519Verifier`. -/
def Ed25519.verifier (keys : List (String × π)) : Verifier where
  accepts payload signature keyId version :=
    version = VERSION && (keys.lookup keyId).any (e.verify · payload signature)

theorem Ed25519.verifier_accepts {key : κ} {keyId : String} {keys : List (String × π)}
    (h : keys.lookup keyId = some (e.publicKey key)) (payload : List UInt8) :
    (e.verifier keys).accepts payload ((e.signer key keyId).sign payload) keyId VERSION = true := by
  simp [verifier, signer, h, e.verify_sign]

/-- A verifier with more keys accepts what it accepted before. -/
theorem Ed25519.verifier_append {keys : List (String × π)} (more : List (String × π))
    {payload : List UInt8} {signature keyId version : String}
    (h : (e.verifier keys).accepts payload signature keyId version = true) :
    (e.verifier (keys ++ more)).accepts payload signature keyId version = true := by
  simp only [verifier, Bool.and_eq_true, decide_eq_true_eq, Option.any_eq_true] at h ⊢
  obtain ⟨hversion, publicKey, hlookup, hverify⟩ := h
  exact ⟨hversion, publicKey, by rw [List.lookup_append, hlookup, Option.some_or], hverify⟩

theorem verifyRecord_append {r : Python.JsonReader} {record : SignedRecord} {keys : List (String × π)}
    (more : List (String × π)) {purpose : String} {payload : List Char}
    (h : verifyRecord r record (some (e.verifier keys)) purpose payload = true) :
    verifyRecord r record (some (e.verifier (keys ++ more))) purpose payload = true := by
  unfold verifyRecord at h ⊢
  split at h
  · rename_i verifier signature keyId hverifier hsignature hkeyId
    obtain rfl := Option.some.inj hverifier
    simp only [hsignature, hkeyId]
    exact e.verifier_append more h
  · cases h

theorem message_injective {r : Python.JsonReader} {purpose purpose' : String} {payload payload' : List Char}
    {keyId keyId' : String} (h : message r purpose payload keyId = message r purpose' payload' keyId') :
    purpose = purpose' ∧ payload = payload' ∧ keyId = keyId' := by
  have hproper : ∀ (purpose : String) (payload : List Char) (keyId : String), JsonText.Proper
      (.arr [.str VERSION, .str purpose, .str keyId, .str (String.ofList payload)]) := by
    intro purpose payload keyId
    simp [JsonText.Proper, JsonText.ProperItems]
  have htext := congrArg (JsonText.loads r.floats) (Bytes.encodeText_injective h)
  rw [JsonText.loads_dump _ _ (hproper ..), JsonText.loads_dump _ _ (hproper ..)] at htext
  simp only [Option.some.injEq, Json.arr.injEq, List.cons.injEq, Json.str.injEq,
    and_true, true_and] at htext
  exact ⟨htext.1, String.ofList_injective htext.2.2, htext.2.1⟩

/-- A signature verifies for one message at most. -/
def Ed25519.Binding : Prop :=
  ∀ publicKey payload payload' signature, e.verify publicKey payload signature = true →
    e.verify publicKey payload' signature = true → payload = payload'

variable {e}

/-- A record that is accepted for one purpose and payload is accepted for no other. -/
theorem verifyRecord_unique (hbinding : e.Binding) {r : Python.JsonReader} {record : SignedRecord}
    {keys : List (String × π)} {purpose purpose' : String} {payload payload' : List Char}
    (h : verifyRecord r record (some (e.verifier keys)) purpose payload = true)
    (h' : verifyRecord r record (some (e.verifier keys)) purpose' payload' = true) :
    purpose' = purpose ∧ payload' = payload := by
  unfold verifyRecord at h h'
  split at h
  · rename_i verifier signature keyId hverifier hsignature hkeyId
    obtain rfl := Option.some.inj hverifier
    simp only [hsignature, hkeyId] at h'
    simp only [Ed25519.verifier, Bool.and_eq_true, decide_eq_true_eq, Option.any_eq_true] at h h'
    obtain ⟨-, publicKey, hlookup, hverify⟩ := h
    obtain ⟨-, publicKey', hlookup', hverify'⟩ := h'
    obtain rfl := Option.some.inj (hlookup.symm.trans hlookup')
    obtain ⟨hpurpose, hpayload, -⟩ := message_injective (hbinding _ _ _ _ hverify' hverify)
    exact ⟨hpurpose, hpayload⟩
  · cases h

end Parties

/-! ## Callers and their files -/

/-- A file that may hold a private key. -/
inductive PrivateFile (κ : Type) where
  | absent
  /-- created, and not written to its end -/
  | incomplete
  | written (key : κ)

/-- Who calls: `local_keys` on its directory, or the command `sign-rotate`. -/
inductive Caller where
  | localKeys
  | offline (privatePath keyId : String)

namespace Caller

/-- Where the caller writes its private key. -/
def privatePath : Caller → String
  | .localKeys => "private.pem"
  | .offline privatePath _ => privatePath

/-- The identifier that the caller gives its key. -/
def keyId : Caller → String
  | .localKeys => "local-1"
  | .offline _ keyId => keyId

end Caller

/-- How far `rotate` is, with the ring that it has read. -/
inductive Stage (κ π : Type) where
  | starting
  | read (ring : Ring π)
  /-- neither the key id nor the file was there -/
  | checked (ring : Ring π)
  | created (ring : Ring π)
  | written (ring : Ring π) (key : κ)

/-- Where a caller stands. -/
inductive Phase (κ π : Type) where
  | idle
  /-- `local_keys` holds the lock -/
  | locked
  | rotating (stage : Stage κ π)
  /-- `local_keys` reads what there is -/
  | reading
  | loading (activeKeyId : String)
  | checking (activeKeyId : String) (key : κ)

/-- `local_keys` reads the ring that it has published. -/
def Caller.afterRotation {κ π : Type} : Caller → Phase κ π
  | .localKeys => .reading
  | .offline _ _ => .idle

/-- What `local_keys` returns: a signer and the keys of a verifier. -/
structure LocalKeys (κ π : Type) where
  key : κ
  keyId : String
  publicKeys : List (String × π)

/-- The path of the ring; a private path may be the same. -/
def publicPath : String := "public.json"

/-- The files, how far each caller is, and what calls have returned. At `publicPath` there is the ring, or
    what `privates` has there, or nothing. -/
structure System (κ π : Type) where
  privates : String → PrivateFile κ := fun _ => .absent
  ring : Option (Ring π) := none
  phases : ℕ → Phase κ π := fun _ => .idle
  returned : List (LocalKeys κ π) := []

namespace System

variable {κ π : Type}

/-- The caller goes on. -/
def proceed (s : System κ π) (i : ℕ) (phase : Phase κ π) : System κ π :=
  { s with phases := Function.update s.phases i phase }

/-- A file of a private key changes. -/
def setPrivate (s : System κ π) (path : String) (file : PrivateFile κ) : System κ π :=
  { s with privates := Function.update s.privates path file }

/-- The ring replaces what was at its path. -/
def setRing (s : System κ π) (ring : Ring π) : System κ π :=
  { s with
    ring := some ring
    privates := Function.update s.privates publicPath .absent }

/-- There is no file at the path. -/
def Vacant (s : System κ π) (path : String) : Prop :=
  s.privates path = .absent ∧ (path = publicPath → s.ring = none)

/-- A call of `local_keys` returns. -/
def answer (s : System κ π) (keys : LocalKeys κ π) : System κ π :=
  { s with returned := s.returned ++ [keys] }

section Fields

variable (s : System κ π) (i : ℕ) (phase : Phase κ π) (path : String) (file : PrivateFile κ)
  (ring : Ring π) (keys : LocalKeys κ π)

@[simp] theorem privates_proceed : (s.proceed i phase).privates = s.privates := rfl

@[simp] theorem ring_proceed : (s.proceed i phase).ring = s.ring := rfl

@[simp] theorem returned_proceed : (s.proceed i phase).returned = s.returned := rfl

@[simp] theorem phases_proceed_self : (s.proceed i phase).phases i = phase := Function.update_self ..

theorem phases_proceed_of_ne {i j : ℕ} (h : j ≠ i) : (s.proceed i phase).phases j = s.phases j :=
  Function.update_of_ne h ..

@[simp] theorem privates_setPrivate_self : (s.setPrivate path file).privates path = file :=
  Function.update_self ..

theorem privates_setPrivate_of_ne {path other : String} (h : other ≠ path) :
    (s.setPrivate path file).privates other = s.privates other :=
  Function.update_of_ne h ..

@[simp] theorem phases_setPrivate : (s.setPrivate path file).phases = s.phases := rfl

@[simp] theorem ring_setPrivate : (s.setPrivate path file).ring = s.ring := rfl

@[simp] theorem returned_setPrivate : (s.setPrivate path file).returned = s.returned := rfl

theorem privates_setRing_of_ne {path : String} (h : path ≠ publicPath) :
    (s.setRing ring).privates path = s.privates path := Function.update_of_ne h ..

@[simp] theorem privates_setRing_self : (s.setRing ring).privates publicPath = .absent := by
  simp [setRing]

theorem privates_setRing_of_absent (h : s.privates publicPath = .absent) :
    (s.setRing ring).privates = s.privates := by
  rw [setRing, ← h, Function.update_eq_self]

theorem Vacant.of_ne {path : String} (h : s.privates path = .absent) (hne : path ≠ publicPath) :
    s.Vacant path := ⟨h, fun heq => absurd heq hne⟩

@[simp] theorem phases_setRing : (s.setRing ring).phases = s.phases := rfl

@[simp] theorem ring_setRing : (s.setRing ring).ring = some ring := rfl

@[simp] theorem privates_answer : (s.answer keys).privates = s.privates := rfl

@[simp] theorem ring_answer : (s.answer keys).ring = s.ring := rfl

@[simp] theorem phases_answer : (s.answer keys).phases = s.phases := rfl

end Fields

/-- The lock of the directory is free. -/
def Unlocked (callers : ℕ → Caller) (s : System κ π) : Prop :=
  ∀ i, callers i = .localKeys → s.phases i = .idle

end System

/-- What `local_keys` signs and verifies before it returns. -/
def keyCheck : List UInt8 := Bytes.encodeText "signing-key-check".toList

section Step

variable {κ π : Type} (e : Ed25519 κ π) (wide : Char → Bool) (callers : ℕ → Caller)

/-- One caller goes on, dies, or another program makes a file. -/
inductive Step : System κ π → System κ π → Prop
  | rotate {s : System κ π} {i : ℕ} (idle : s.phases i = .idle) (offline : callers i ≠ .localKeys)
      (valid : isIdentifier wide (callers i).keyId = true) : Step s (s.proceed i (.rotating .starting))
  | lock {s : System κ π} {i : ℕ} (caller : callers i = .localKeys) (unlocked : s.Unlocked callers) :
      Step s (s.proceed i .locked)
  | provision {s : System κ π} {i : ℕ} (locked : s.phases i = .locked) (missing : s.Vacant publicPath) :
      Step s (s.proceed i (.rotating .starting))
  | present {s : System κ π} {i : ℕ} (locked : s.phases i = .locked) (present : ¬s.Vacant publicPath) :
      Step s (s.proceed i .reading)
  /-- only a ring can be read there -/
  | read {s : System κ π} {i : ℕ} (starting : s.phases i = .rotating .starting)
      (readable : s.privates publicPath = .absent) :
      Step s (s.proceed i (.rotating (.read (s.ring.getD {}))))
  | check {s : System κ π} {i : ℕ} {ring : Ring π} (read : s.phases i = .rotating (.read ring))
      (newId : (callers i).keyId ∉ ring.ids) (newFile : s.Vacant (callers i).privatePath) :
      Step s (s.proceed i (.rotating (.checked ring)))
  /-- opened exclusively -/
  | create {s : System κ π} {i : ℕ} {ring : Ring π} (checked : s.phases i = .rotating (.checked ring))
      (newFile : s.Vacant (callers i).privatePath) :
      Step s ((s.setPrivate (callers i).privatePath .incomplete).proceed i (.rotating (.created ring)))
  | write {s : System κ π} {i : ℕ} {ring : Ring π} (key : κ)
      (created : s.phases i = .rotating (.created ring))
      (linked : s.privates (callers i).privatePath = .incomplete) :
      Step s ((s.setPrivate (callers i).privatePath (.written key)).proceed i
        (.rotating (.written ring key)))
  /-- a ring has replaced the open file -/
  | writeUnlinked {s : System κ π} {i : ℕ} {ring : Ring π} (key : κ)
      (created : s.phases i = .rotating (.created ring))
      (unlinked : s.privates (callers i).privatePath ≠ .incomplete) :
      Step s (s.proceed i (.rotating (.written ring key)))
  | publish {s : System κ π} {i : ℕ} {ring : Ring π} {key : κ}
      (written : s.phases i = .rotating (.written ring key)) :
      Step s ((s.setRing (ring.publish (callers i).keyId (e.publicKey key))).proceed i
        (callers i).afterRotation)
  | readRing {s : System κ π} {i : ℕ} {ring : Ring π} {activeKeyId : String}
      (reading : s.phases i = .reading) (present : s.ring = some ring)
      (active : ring.activeKeyId = some activeKeyId) : Step s (s.proceed i (.loading activeKeyId))
  | loadSigner {s : System κ π} {i : ℕ} {activeKeyId : String} {key : κ}
      (loading : s.phases i = .loading activeKeyId)
      (written : s.privates (callers i).privatePath = .written key) :
      Step s (s.proceed i (.checking activeKeyId key))
  | returns {s : System κ π} {i : ℕ} {activeKeyId : String} {key : κ} {ring : Ring π}
      (checking : s.phases i = .checking activeKeyId key) (present : s.ring = some ring)
      (verified : (e.verifier ring.publicKeys).accepts keyCheck ((e.signer key activeKeyId).sign keyCheck)
        activeKeyId VERSION = true) :
      Step s ((s.answer ⟨key, activeKeyId, ring.publicKeys⟩).proceed i .idle)
  /-- an exception, or the end of the process -/
  | fail {s : System κ π} (i : ℕ) : Step s (s.proceed i .idle)

/-- Runs of the callers. -/
def Run : System κ π → System κ π → Prop := Relation.ReflTransGen (Step e wide callers)

/-- One rotation at most is under way. -/
def System.Serial (s : System κ π) : Prop :=
  ∀ i j stage stage', s.phases i = .rotating stage → s.phases j = .rotating stage' → i = j

/-- Runs in which no rotation starts before the last one has ended. -/
def SerialRun : System κ π → System κ π → Prop :=
  Relation.ReflTransGen fun s t => Step e wide callers s t ∧ t.Serial

end Step

section Alone

variable {κ π : Type} {e : Ed25519 κ π} {wide : Char → Bool} {callers : ℕ → Caller}

theorem SerialRun.run {s t : System κ π} (h : SerialRun e wide callers s t) : Run e wide callers s t :=
  Relation.ReflTransGen.mono (fun _ _ hstep => hstep.1) s t h

namespace System

/-- Nobody but `i` is under way. -/
def Alone (s : System κ π) (i : ℕ) : Prop := ∀ j ≠ i, s.phases j = .idle

variable {s : System κ π} {i : ℕ}

theorem Alone.proceed (h : s.Alone i) (phase : Phase κ π) : (s.proceed i phase).Alone i := by
  intro j hj
  rw [phases_proceed_of_ne s phase hj]
  exact h j hj

theorem Alone.serial (h : s.Alone i) : s.Serial := by
  have hrotating : ∀ j stage, s.phases j = .rotating stage → j = i := by
    intro j stage hstage
    by_contra hj
    rw [h j hj] at hstage
    cases hstage
  intro j k stage stage' hj hk
  rw [hrotating j stage hj, hrotating k stage' hk]

end System

variable (e wide callers) in
/-- A rotation that nobody disturbs publishes its key. -/
theorem exists_serialRun_of_starting {s : System κ π} {i : ℕ} (halone : s.Alone i)
    (hstarting : s.phases i = .rotating .starting) (hid : (callers i).keyId ∉ (s.ring.getD {}).ids)
    (hring : s.privates publicPath = .absent) (hpath : (callers i).privatePath ≠ publicPath)
    (hfile : s.privates (callers i).privatePath = .absent) (key : κ) :
    ∃ t, SerialRun e wide callers s t ∧ t.Alone i ∧ t.phases i = (callers i).afterRotation ∧
      t.ring = some ((s.ring.getD {}).publish (callers i).keyId (e.publicKey key)) ∧
      t.privates (callers i).privatePath = .written key ∧ t.returned = s.returned ∧
      ∀ other ≠ (callers i).privatePath, t.privates other = s.privates other := by
  let s₁ := s.proceed i (.rotating (.read (s.ring.getD {})))
  let s₂ := s₁.proceed i (.rotating (.checked (s.ring.getD {})))
  let s₃ := (s₂.setPrivate (callers i).privatePath .incomplete).proceed i
    (.rotating (.created (s.ring.getD {})))
  let s₄ := (s₃.setPrivate (callers i).privatePath (.written key)).proceed i
    (.rotating (.written (s.ring.getD {}) key))
  let s₅ := (s₄.setRing ((s.ring.getD {}).publish (callers i).keyId (e.publicKey key))).proceed i
    (callers i).afterRotation
  have halone₁ : s₁.Alone i := halone.proceed _
  have halone₂ : s₂.Alone i := halone₁.proceed _
  have halone₃ : s₃.Alone i := System.Alone.proceed (s := s₂.setPrivate ..) halone₂ _
  have halone₄ : s₄.Alone i := System.Alone.proceed (s := s₃.setPrivate ..) halone₃ _
  have halone₅ : s₅.Alone i := System.Alone.proceed (s := s₄.setRing ..) halone₄ _
  have hvacant : s.Vacant (callers i).privatePath := .of_ne s hfile hpath
  have hread : Step e wide callers s s₁ := .read hstarting hring
  have hcheck : Step e wide callers s₁ s₂ := .check (System.phases_proceed_self ..) hid hvacant
  have hcreate : Step e wide callers s₂ s₃ := .create (System.phases_proceed_self ..) hvacant
  have hwrite : Step e wide callers s₃ s₄ :=
    .write key (System.phases_proceed_self ..) (System.privates_setPrivate_self ..)
  have hpublish : Step e wide callers s₄ s₅ := .publish (System.phases_proceed_self ..)
  have hrun : SerialRun e wide callers s s₅ :=
    ((((Relation.ReflTransGen.single ⟨hread, halone₁.serial⟩).tail ⟨hcheck, halone₂.serial⟩).tail
      ⟨hcreate, halone₃.serial⟩).tail ⟨hwrite, halone₄.serial⟩).tail ⟨hpublish, halone₅.serial⟩
  -- nothing was at the path of the ring, so its publication leaves the private files as they are
  have hcreated : ∀ other ≠ (callers i).privatePath, s₃.privates other = s.privates other :=
    fun _ hother => System.privates_setPrivate_of_ne s₂ _ hother
  have hwritten : ∀ other ≠ (callers i).privatePath, s₄.privates other = s.privates other :=
    fun other hother => (System.privates_setPrivate_of_ne s₃ _ hother).trans (hcreated other hother)
  have hpublished : s₅.privates = s₄.privates :=
    s₄.privates_setRing_of_absent ((s.ring.getD {}).publish (callers i).keyId (e.publicKey key))
      ((hwritten _ hpath.symm).trans hring)
  refine ⟨s₅, hrun, halone₅, System.phases_proceed_self .., rfl, ?_, rfl, ?_⟩
  · rw [hpublished]
    exact System.privates_setPrivate_self ..
  · rw [hpublished]
    exact hwritten

end Alone

/-! ## Keys are kept

A ring that was published lists keys whose private files exist. Since private files are created
exclusively and never removed, and each published ring extends the one its rotation has read, no
step undoes this. -/

section Kept

variable {κ π : Type} {e : Ed25519 κ π} {wide : Char → Bool} {callers : ℕ → Caller}

/-- The public keys of a ring have their private keys in complete files. -/
def Backed (e : Ed25519 κ π) (privates : String → PrivateFile κ) (ring : Ring π) : Prop :=
  ∀ entry ∈ ring.publicKeys, ∃ path key, privates path = .written key ∧ entry.2 = e.publicKey key

/-- Complete files stay as they are. -/
def Keeps (privates privates' : String → PrivateFile κ) : Prop :=
  ∀ path key, privates path = .written key → privates' path = .written key

theorem Backed.mono {privates privates' : String → PrivateFile κ} {ring : Ring π}
    (h : Backed e privates ring) (hkeeps : Keeps privates privates') : Backed e privates' ring := by
  intro entry hentry
  obtain ⟨path, key, hwritten, hpublic⟩ := h entry hentry
  exact ⟨path, key, hkeeps path key hwritten, hpublic⟩

theorem keeps_update {privates : String → PrivateFile κ} {path : String} {file : PrivateFile κ}
    (h : ∀ key, privates path ≠ .written key) : Keeps privates (Function.update privates path file) := by
  intro other key hwritten
  by_cases hpath : other = path
  · exact absurd (hpath ▸ hwritten) (h key)
  · rw [Function.update_of_ne hpath, hwritten]

/-- What a rotation knows of its ring and of its file. -/
def Stage.Sound (e : Ed25519 κ π) (privates : String → PrivateFile κ) (caller : Caller) :
    Stage κ π → Prop
  | .starting => True
  | .read ring => ring.ids.Nodup ∧ Backed e privates ring
  | .checked ring => ring.ids.Nodup ∧ Backed e privates ring ∧ caller.keyId ∉ ring.ids
  | .created ring => ring.ids.Nodup ∧ Backed e privates ring ∧ caller.keyId ∉ ring.ids ∧
      privates caller.privatePath = .incomplete
  | .written ring key => ring.ids.Nodup ∧ Backed e privates ring ∧ caller.keyId ∉ ring.ids ∧
      privates caller.privatePath = .written key

/-- The rings are backed by private files, and each rotation knows of its own. -/
structure Sound (e : Ed25519 κ π) (callers : ℕ → Caller) (s : System κ π) : Prop where
  /-- no private file is where the ring belongs -/
  apart : s.privates publicPath = .absent
  ring : ∀ ring ∈ s.ring, ring.WellFormed ∧ Backed e s.privates ring
  stage : ∀ i stage, s.phases i = .rotating stage → stage.Sound e s.privates (callers i)
  /-- a file is created by one caller -/
  creator : ∀ i j ring ring', s.phases i = .rotating (.created ring) →
    s.phases j = .rotating (.created ring') → (callers i).privatePath = (callers j).privatePath → i = j

namespace Sound

variable {s : System κ π} {i : ℕ}

theorem initial : Sound e callers {} where
  apart := rfl
  ring := by simp
  stage := by simp
  creator := by simp

/-- A caller goes on and creates no file. -/
theorem proceed (h : Sound e callers s) {phase : Phase κ π}
    (hphase : ∀ stage, phase = .rotating stage →
      stage.Sound e s.privates (callers i) ∧ ∀ ring, stage ≠ .created ring) :
    Sound e callers (s.proceed i phase) where
  apart := h.apart
  ring := h.ring
  stage j stage hstage := by
    rcases eq_or_ne j i with rfl | hj
    · rw [System.phases_proceed_self] at hstage
      exact (hphase stage hstage).1
    · rw [System.phases_proceed_of_ne s phase hj] at hstage
      exact h.stage j stage hstage
  creator j k ring ring' hj hk hpath := by
    have hold : ∀ l ring, (s.proceed i phase).phases l = .rotating (.created ring) →
        s.phases l = .rotating (.created ring) := by
      intro l ring hl
      rcases eq_or_ne l i with rfl | hne
      · rw [System.phases_proceed_self] at hl
        exact absurd rfl ((hphase _ hl).2 ring)
      · rwa [System.phases_proceed_of_ne s phase hne] at hl
    exact h.creator j k ring ring' (hold j ring hj) (hold k ring' hk) hpath

theorem of_idle (h : Sound e callers s) (i : ℕ) : Sound e callers (s.proceed i .idle) :=
  h.proceed (by simp)

/-- The ring is replaced by one with its keys in complete files. -/
theorem setRing (h : Sound e callers s) {ring : Ring π} (hring : ring.WellFormed)
    (hbacked : Backed e s.privates ring) : Sound e callers (s.setRing ring) where
  apart := System.privates_setRing_self s ring
  ring := by
    rintro _ ⟨⟩
    rw [System.privates_setRing_of_absent s ring h.apart]
    exact ⟨hring, hbacked⟩
  stage := by
    rw [System.privates_setRing_of_absent s ring h.apart]
    exact h.stage
  creator := h.creator

theorem answer (h : Sound e callers s) (keys : LocalKeys κ π) : Sound e callers (s.answer keys) :=
  ⟨h.apart, h.ring, h.stage, h.creator⟩

/-- A private file changes that is not complete, and that no other caller has created. -/
theorem stage_setPrivate (h : Sound e callers s) {path : String} {file : PrivateFile κ}
    (hfile : ∀ key, s.privates path ≠ .written key) {j : ℕ} {stage : Stage κ π}
    (hstage : s.phases j = .rotating stage)
    (hother : ∀ ring, stage = .created ring → (callers j).privatePath ≠ path) :
    stage.Sound e (s.setPrivate path file).privates (callers j) := by
  have hkeeps : Keeps s.privates (s.setPrivate path file).privates := keeps_update hfile
  have hsound := h.stage j stage hstage
  cases stage with
  | starting => trivial
  | read ring => exact ⟨hsound.1, hsound.2.mono hkeeps⟩
  | checked ring => exact ⟨hsound.1, hsound.2.1.mono hkeeps, hsound.2.2⟩
  | created ring =>
    obtain ⟨hnodup, hbacked, hnew, hincomplete⟩ := hsound
    refine ⟨hnodup, hbacked.mono hkeeps, hnew, ?_⟩
    rw [System.privates_setPrivate_of_ne s file (hother ring rfl), hincomplete]
  | written ring key =>
    obtain ⟨hnodup, hbacked, hnew, hwritten⟩ := hsound
    exact ⟨hnodup, hbacked.mono hkeeps, hnew, hkeeps _ _ hwritten⟩

theorem create (h : Sound e callers s) (hpath : (callers i).privatePath ≠ publicPath)
    {ring : Ring π} (hchecked : s.phases i = .rotating (.checked ring))
    (habsent : s.privates (callers i).privatePath = .absent) :
    Sound e callers
      ((s.setPrivate (callers i).privatePath .incomplete).proceed i (.rotating (.created ring))) := by
  have hfile : ∀ key, s.privates (callers i).privatePath ≠ .written key := by simp [habsent]
  have hkeeps : Keeps s.privates (s.setPrivate (callers i).privatePath .incomplete).privates :=
    keeps_update hfile
  obtain ⟨hnodup, hbacked, hnew⟩ := h.stage i _ hchecked
  -- the file was absent, so nobody had created it
  have hothers : ∀ j ring, s.phases j = .rotating (.created ring) →
      (callers j).privatePath ≠ (callers i).privatePath := by
    intro j ring hj hpath
    have hincomplete := (h.stage j _ hj).2.2.2
    rw [hpath, habsent] at hincomplete
    cases hincomplete
  refine ⟨(System.privates_setPrivate_of_ne s _ hpath.symm).trans h.apart,
    fun ring hring => ⟨(h.ring ring hring).1, (h.ring ring hring).2.mono hkeeps⟩, ?_, ?_⟩
  · intro j stage hstage
    rcases eq_or_ne j i with rfl | hj
    · rw [System.phases_proceed_self] at hstage
      obtain rfl : Stage.created ring = stage := by simpa using hstage
      exact ⟨hnodup, hbacked.mono hkeeps, hnew, System.privates_setPrivate_self ..⟩
    · rw [System.phases_proceed_of_ne _ _ hj] at hstage
      refine h.stage_setPrivate hfile hstage fun ring' hring' => hothers j ring' ?_
      rw [← hring']
      exact hstage
  · intro j k ringⱼ ringₖ hj hk hpath
    by_cases hji : j = i <;> by_cases hki : k = i
    · rw [hji, hki]
    · rw [System.phases_proceed_of_ne _ _ hki] at hk
      exact absurd (hji ▸ hpath.symm) (hothers k ringₖ hk)
    · rw [System.phases_proceed_of_ne _ _ hji] at hj
      exact absurd (hki ▸ hpath) (hothers j ringⱼ hj)
    · rw [System.phases_proceed_of_ne _ _ hji] at hj
      rw [System.phases_proceed_of_ne _ _ hki] at hk
      exact h.creator j k ringⱼ ringₖ hj hk hpath

theorem write (h : Sound e callers s) (hpath : (callers i).privatePath ≠ publicPath)
    {ring : Ring π} (key : κ)
    (hcreated : s.phases i = .rotating (.created ring)) :
    Sound e callers
      ((s.setPrivate (callers i).privatePath (.written key)).proceed i
          (.rotating (.written ring key))) := by
  obtain ⟨hnodup, hbacked, hnew, hincomplete⟩ := h.stage i _ hcreated
  have hfile : ∀ key, s.privates (callers i).privatePath ≠ .written key := by simp [hincomplete]
  have hkeeps : Keeps s.privates (s.setPrivate (callers i).privatePath (.written key)).privates :=
    keeps_update hfile
  have hold : ∀ j stage, ((s.setPrivate (callers i).privatePath (.written key)).proceed i
      (.rotating (.written ring key))).phases j = .rotating stage → j ≠ i → s.phases j =
          .rotating stage := by
    intro j stage hj hne
    rwa [System.phases_proceed_of_ne _ _ hne] at hj
  refine ⟨(System.privates_setPrivate_of_ne s _ hpath.symm).trans h.apart,
    fun ring hring => ⟨(h.ring ring hring).1, (h.ring ring hring).2.mono hkeeps⟩, ?_, ?_⟩
  · intro j stage hstage
    rcases eq_or_ne j i with rfl | hj
    · rw [System.phases_proceed_self] at hstage
      obtain rfl : Stage.written ring key = stage := by simpa using hstage
      exact ⟨hnodup, hbacked.mono hkeeps, hnew, System.privates_setPrivate_self ..⟩
    · have hstage' := hold j stage hstage hj
      refine h.stage_setPrivate hfile hstage' fun ring' hring' hpath => hj ?_
      exact h.creator j i ring' ring (hring' ▸ hstage') hcreated hpath
  · intro j k ringⱼ ringₖ hj hk hpath
    have hne : ∀ l ring', ((s.setPrivate (callers i).privatePath (.written key)).proceed i
        (.rotating (.written ring key))).phases l = .rotating (.created ring') → l ≠ i := by
      rintro l ring' hl rfl
      simp at hl
    exact h.creator j k ringⱼ ringₖ (hold j _ hj (hne j _ hj)) (hold k _ hk (hne k _ hk)) hpath

/-- What one step keeps. -/
theorem step (h : Sound e callers s) (hpaths : ∀ i, (callers i).privatePath ≠ publicPath)
    {t : System κ π} (hstep : Step e wide callers s t) :
    Sound e callers t ∧ Keeps s.privates t.privates ∧ (s.ring.isSome → t.ring.isSome) := by
  have hrefl : Keeps s.privates s.privates := fun _ _ hwritten => hwritten
  cases hstep with
  | rotate => exact ⟨h.proceed (by rintro _ ⟨⟩; exact ⟨trivial, by simp⟩), hrefl, id⟩
  | lock => exact ⟨h.proceed (by simp), hrefl, id⟩
  | provision => exact ⟨h.proceed (by rintro _ ⟨⟩; exact ⟨trivial, by simp⟩), hrefl, id⟩
  | present => exact ⟨h.proceed (by simp), hrefl, id⟩
  | read =>
    refine ⟨h.proceed ?_, hrefl, id⟩
    rintro _ ⟨⟩
    refine ⟨?_, by simp⟩
    cases hring : s.ring with
    | none => exact ⟨List.nodup_nil, by simp [Backed, Ring.publicKeys]⟩
    | some ring => exact ⟨(h.ring ring hring).1.nodup, (h.ring ring hring).2⟩
  | check hread newId =>
    refine ⟨h.proceed ?_, hrefl, id⟩
    rintro _ ⟨⟩
    obtain ⟨hnodup, hbacked⟩ := h.stage _ _ hread
    exact ⟨⟨hnodup, hbacked, newId⟩, by simp⟩
  | create checked newFile =>
    exact ⟨h.create (hpaths _) checked newFile.1, keeps_update (by simp [newFile.1]), id⟩
  | writeUnlinked key created unlinked => exact absurd (h.stage _ _ created).2.2.2 unlinked
  | write key created =>
    exact ⟨h.write (hpaths _) key created, keeps_update (by simp [(h.stage _ _ created).2.2.2]), id⟩
  | @publish i ring key written =>
    obtain ⟨hnodup, hbacked, hnew, hwritten⟩ := h.stage _ _ written
    refine ⟨(h.setRing (Ring.wellFormed_publish hnodup hnew _) ?_).proceed ?_, ?_, fun _ => rfl⟩
    · intro entry hentry
      rw [Ring.publicKeys_publish] at hentry
      rcases List.mem_append.1 hentry with hold | hentry
      · exact hbacked entry hold
      · obtain rfl := List.mem_singleton.1 hentry
        exact ⟨_, key, hwritten, rfl⟩
    · cases callers i <;> simp [Caller.afterRotation]
    · rw [System.privates_proceed, System.privates_setRing_of_absent s _ h.apart]
      exact hrefl
  | readRing => exact ⟨h.proceed (by simp), hrefl, id⟩
  | loadSigner => exact ⟨h.proceed (by simp), hrefl, id⟩
  | returns =>
    exact ⟨(h.answer _).of_idle _, hrefl, id⟩
  | fail i => exact ⟨h.of_idle i, hrefl, id⟩

end Sound

/-- **Keys are kept.** From an empty directory, in every interleaving of rotations and `local_keys` on
    private paths other than the ring's, some of them killed or failing anywhere: a private key that
    was written stays in its file, a ring that was published is never gone, each ring has one active
    key, the one of `active_key_id`, and the private key of each of its public keys is in a complete
    file. -/
theorem keys_kept (hpaths : ∀ i, (callers i).privatePath ≠ publicPath) {s t : System κ π}
    (hs : Run e wide callers {} s) (hst : Run e wide callers s t) :
    (∀ path key, s.privates path = .written key → t.privates path = .written key) ∧
    (s.ring.isSome → t.ring.isSome) ∧
    ∀ ring ∈ t.ring, ring.WellFormed ∧ ∀ entry ∈ ring.publicKeys,
      ∃ path key, t.privates path = .written key ∧ entry.2 = e.publicKey key := by
  have hsound : Sound e callers s :=
    Runs.reflTransGen_of_invariant (fun _ _ h hstep => (h.step hpaths hstep).1) Sound.initial hs
  have hkept : Sound e callers t ∧ Keeps s.privates t.privates ∧ (s.ring.isSome → t.ring.isSome) := by
    induction hst with
    | refl => exact ⟨hsound, fun _ _ h => h, id⟩
    | tail _ hstep ih =>
      obtain ⟨hu, hkeeps, hring⟩ := ih
      obtain ⟨hv, hkeeps', hring'⟩ := hu.step hpaths hstep
      exact ⟨hv, fun path key h => hkeeps' path key (hkeeps path key h), hring' ∘ hring⟩
  exact ⟨hkept.2.1, hkept.2.2, hkept.1.ring⟩

end Kept

namespace Samples

/-- One key, whose signature of a payload spells the payload. -/
def spelling : Ed25519 Unit Unit where
  publicKey _ := ()
  sign _ payload := String.ofList ('s' :: Bytes.hex payload)
  verify _ payload signature := signature = String.ofList ('s' :: Bytes.hex payload)
  verify_sign := by simp
  sign_ne_empty := by simp [String.ext_iff]

/-- Two rotations, of two keys. -/
def callers : ℕ → Caller
  | 0 => .offline "a.pem" "a"
  | _ => .offline "b.pem" "b"

theorem callers_apart (i : ℕ) : (callers i).privatePath ≠ publicPath := by
  match i with
  | 0 => decide
  | _ + 1 => simp [callers, Caller.privatePath, publicPath]

/-- The first rotation ends. -/
theorem exists_rotated : ∃ s, SerialRun spelling (fun _ => false) callers {} s ∧ s.Alone 0 ∧
    s.phases 0 = .idle ∧ s.ring = some (Ring.publish {} "a" ()) ∧ s.privates "a.pem" = .written () ∧
    s.privates publicPath = .absent ∧ s.privates "b.pem" = .absent := by
  have hstart : SerialRun spelling (fun _ => false) callers {} (System.proceed
      {} 0 (.rotating .starting)) :=
    .single ⟨.rotate rfl (by simp [callers]) (by decide), System.Alone.serial (i := 0)
      (System.Alone.proceed (fun _ _ => rfl) _)⟩
  obtain ⟨s, hrun, halone, hidle, hring, hwritten, -, hothers⟩ := exists_serialRun_of_starting spelling
    (fun _ => false) callers
    (System.Alone.proceed (s := {}) (fun _ _ => rfl) _) (System.phases_proceed_self ..) (by simp [Ring.ids])
    rfl (callers_apart 0) rfl ()
  exact ⟨s, hstart.trans hrun, halone, hidle, hring, hwritten, hothers publicPath (by decide),
    hothers "b.pem" (by decide)⟩

end Samples

open Samples in
/-- The first key stays where it was written, whatever follows. -/
theorem rotated_kept : ∃ s, s.privates "a.pem" = .written () ∧
    ∀ t, Run spelling (fun _ => false) callers s t → t.privates "a.pem" = .written () := by
  obtain ⟨s, hrun, -, -, -, hwritten, -⟩ := exists_rotated
  exact ⟨s, hwritten, fun t hst => (keys_kept callers_apart hrun.run hst).1 "a.pem" () hwritten⟩

/-! ## Rotations one after the other

With no other rotation between its reading and its publication, a rotation publishes a ring that has
all earlier public keys. So what an earlier ring verified, a later one does. -/

section Serial

variable {κ π : Type} {e : Ed25519 κ π} {wide : Char → Bool} {callers : ℕ → Caller}

/-- The ring that the caller has read. -/
def Stage.ring {κ π : Type} : Stage κ π → Option (Ring π)
  | .starting => none
  | .read ring | .checked ring | .created ring | .written ring _ => some ring

/-- A rotation has read the ring as it still is. -/
structure Current (s : System κ π) : Prop where
  serial : s.Serial
  stage : ∀ i stage, s.phases i = .rotating stage → ∀ ring ∈ stage.ring, ring = s.ring.getD {}

namespace Current

theorem initial : Current ({} : System κ π) := ⟨by simp [System.Serial], by simp⟩

variable {s : System κ π} {i : ℕ}

theorem proceed (h : Current s) {phase : Phase κ π} (hserial : (s.proceed i phase).Serial)
    (hphase : ∀ stage, phase = .rotating stage → ∀ ring ∈ stage.ring, ring = s.ring.getD {}) :
    Current (s.proceed i phase) where
  serial := hserial
  stage j stage hstage := by
    rcases eq_or_ne j i with rfl | hj
    · rw [System.phases_proceed_self] at hstage
      exact hphase stage hstage
    · rw [System.phases_proceed_of_ne s phase hj] at hstage
      exact h.stage j stage hstage

theorem setPrivate (h : Current s) (path : String) (file : PrivateFile κ) :
    Current (s.setPrivate path file) := ⟨h.serial, h.stage⟩

theorem answer (h : Current s) (keys : LocalKeys κ π) : Current (s.answer keys) := ⟨h.serial, h.stage⟩

/-- The ring is replaced by the only rotation. -/
theorem publish (h : Current s) {stage : Stage κ π} (hstage : s.phases i = .rotating stage)
    (ring : Ring π) {phase : Phase κ π} (hphase : ∀ stage, phase ≠ .rotating stage) :
    Current ((s.setRing ring).proceed i phase) := by
  have hnone : ∀ j stage', ((s.setRing ring).proceed i phase).phases j ≠ .rotating stage' := by
    intro j stage' hj
    rcases eq_or_ne j i with rfl | hne
    · rw [System.phases_proceed_self] at hj
      exact hphase stage' hj
    · rw [System.phases_proceed_of_ne _ _ hne] at hj
      exact hne (h.serial j i stage' stage hj hstage)
  exact ⟨fun j _ stage _ hj _ => absurd hj (hnone j stage), fun j stage hj => absurd hj (hnone j stage)⟩

/-- A step adds to the keys of the ring. -/
theorem step (h : Current s) {t : System κ π} (hstep : Step e wide callers s t) (hserial : t.Serial) :
    Current t ∧ (s.ring.isSome → t.ring.isSome) ∧
      (s.ring.getD {}).publicKeys <+: (t.ring.getD {}).publicKeys := by
  have hrefl : (s.ring.getD {}).publicKeys <+: (s.ring.getD {}).publicKeys := List.prefix_refl _
  cases hstep with
  | rotate => exact ⟨h.proceed hserial (by rintro _ ⟨⟩; simp [Stage.ring]), id, hrefl⟩
  | lock => exact ⟨h.proceed hserial (by simp), id, hrefl⟩
  | provision => exact ⟨h.proceed hserial (by rintro _ ⟨⟩; simp [Stage.ring]), id, hrefl⟩
  | present => exact ⟨h.proceed hserial (by simp), id, hrefl⟩
  | read => exact ⟨h.proceed hserial (by rintro _ ⟨⟩; simp [Stage.ring]), id, hrefl⟩
  | check hread =>
    refine ⟨h.proceed hserial ?_, id, hrefl⟩
    rintro _ ⟨⟩
    exact h.stage _ (.read _) hread
  | writeUnlinked key hcreated =>
    refine ⟨h.proceed hserial ?_, id, hrefl⟩
    rintro _ ⟨⟩
    exact h.stage _ (.created _) hcreated
  | create hchecked =>
    refine ⟨(h.setPrivate _ _).proceed hserial ?_, id, hrefl⟩
    rintro _ ⟨⟩
    exact h.stage _ (.checked _) hchecked
  | write key hcreated =>
    refine ⟨(h.setPrivate _ _).proceed hserial ?_, id, hrefl⟩
    rintro _ ⟨⟩
    exact h.stage _ (.created _) hcreated
  | @publish i ring key hwritten =>
    obtain rfl : ring = s.ring.getD {} := h.stage _ _ hwritten ring rfl
    refine ⟨h.publish hwritten _ ?_, fun _ => rfl, ?_⟩
    · cases callers i <;> simp [Caller.afterRotation]
    · simp
  | readRing => exact ⟨h.proceed hserial (by simp), id, hrefl⟩
  | loadSigner => exact ⟨h.proceed hserial (by simp), id, hrefl⟩
  | returns => exact ⟨(h.answer _).proceed hserial (by simp), id, hrefl⟩
  | fail => exact ⟨h.proceed hserial (by simp), id, hrefl⟩

theorem serialRun (h : Current s) {t : System κ π} (hrun : SerialRun e wide callers s t) :
    Current t ∧ (s.ring.isSome → t.ring.isSome) ∧
      (s.ring.getD {}).publicKeys <+: (t.ring.getD {}).publicKeys := by
  induction hrun with
  | refl => exact ⟨h, id, List.prefix_refl _⟩
  | tail _ hstep ih =>
    obtain ⟨hu, hring, hgrows⟩ := ih
    obtain ⟨hv, hring', hgrown⟩ := hu.step hstep.1 hstep.2
    exact ⟨hv, hring' ∘ hring, hgrows.trans hgrown⟩

end Current

/-- **Verification survives rotation.** Where rotations run one after the other, some of them killed
    anywhere, a record that a ring once verified for a purpose and payload is verified by each later ring,
    for that purpose and payload and for no other. -/
theorem verification_survives (hbinding : e.Binding) {s t : System κ π}
    (hs : SerialRun e wide callers {} s) (hst : SerialRun e wide callers s t) {ring : Ring π}
    (hring : s.ring = some ring) {r : Python.JsonReader} {record : SignedRecord} {purpose : String}
    {payload : List Char}
    (hverify : verifyRecord r record (some (e.verifier ring.publicKeys)) purpose payload = true) :
    ∃ later ∈ t.ring, ∀ purpose' payload',
      verifyRecord r record (some (e.verifier later.publicKeys)) purpose' payload' = true ↔
        purpose' = purpose ∧ payload' = payload := by
  obtain ⟨-, hsome, more, hmore⟩ := (Current.initial.serialRun hs).1.serialRun hst
  obtain ⟨later, hlater⟩ := Option.isSome_iff_exists.1 (hsome (by simp [hring]))
  simp only [hring, hlater, Option.getD_some] at hmore
  have hverify' : verifyRecord r record (some (e.verifier later.publicKeys)) purpose payload = true := by
    rw [← hmore]
    exact verifyRecord_append e more hverify
  refine ⟨later, hlater, fun purpose' payload' => ⟨verifyRecord_unique hbinding hverify', ?_⟩⟩
  rintro ⟨rfl, rfl⟩
  exact hverify'

end Serial

namespace Samples

theorem binding_spelling : spelling.Binding := by
  intro _ payload payload' signature h h'
  simp only [spelling, decide_eq_true_eq] at h h'
  have htext := String.ofList_injective (h.symm.trans h')
  exact Bytes.hex_injective (List.cons.inj htext).2

/-- The second rotation ends. -/
theorem exists_rotated_twice {s : System Unit Unit} (halone : s.Alone 0) (hidle : s.phases 0 = .idle)
    (hring : s.ring = some (Ring.publish {} "a" ())) (hapart : s.privates publicPath = .absent)
    (habsent : s.privates "b.pem" = .absent) :
    ∃ t, SerialRun spelling (fun _ => false) callers s t ∧
      t.ring = some ((Ring.publish {} "a" ()).publish "b" ()) := by
  have hidle' : ∀ j, s.phases j = .idle := by
    intro j
    rcases eq_or_ne j 0 with rfl | hj
    · exact hidle
    · exact halone j hj
  have halone' : (s.proceed 1 (.rotating .starting)).Alone 1 := System.Alone.proceed (fun j _ => hidle' j) _
  have hstart : SerialRun spelling (fun _ => false) callers s (s.proceed 1 (.rotating .starting)) :=
    .single ⟨.rotate (hidle' 1) (by simp [callers]) (by decide), halone'.serial⟩
  obtain ⟨t, hrun, -, -, hpublished, -⟩ := exists_serialRun_of_starting spelling
    (fun _ => false) callers halone' (System.phases_proceed_self ..)
    (by simp [hring, callers, Caller.keyId, Ring.ids, Ring.publish]) hapart (callers_apart 1) habsent ()
  rw [System.ring_proceed, hring] at hpublished
  exact ⟨t, hstart.trans hrun, hpublished⟩

end Samples

open Samples in
/-- A record of the first key verifies after the second rotation, for its purpose alone. -/
theorem rotated_verifies : ∃ t later, SerialRun spelling (fun _ => false) callers {} t ∧
    t.ring = some later ∧ later.activeKeyId = some "b" ∧ ∀ (r : Python.JsonReader) (purpose : String),
      verifyRecord r (signRecord r (spelling.signer () "a") "purpose" [])
        (some (spelling.verifier later.publicKeys)) purpose [] = true ↔ purpose = "purpose" := by
  obtain ⟨s, hs, halone, hidle, hring, -, hapart, habsent⟩ := exists_rotated
  obtain ⟨t, hst, hrotated⟩ := exists_rotated_twice halone hidle hring hapart habsent
  refine ⟨t, _, hs.trans hst, hrotated, rfl, fun r purpose => ?_⟩
  let keyring : Keyring :=
    { signer := some (spelling.signer () "a")
      verifier := some (spelling.verifier (Ring.publish {} "a" ()).publicKeys)
      manifestHmac := id }
  have hconsistent : keyring.Consistent := by
    rintro _ ⟨⟩
    exact ⟨by decide, spelling.sign_ne_empty (), _, rfl, spelling.verifier_accepts rfl⟩
  have hsigned := Keyring.verifyRecord_signRecord hconsistent rfl r "purpose" []
  obtain ⟨later, hlater, hverifies⟩ := verification_survives binding_spelling hs hst hring hsigned
  obtain rfl := Option.some.inj (hrotated.symm.trans hlater)
  rw [hverifies, and_iff_left rfl]

end Signing

end AdaptiveLlm
