import AdaptiveLlm.Signing.KeyRing

set_option autoImplicit false

/-! # The keys of one directory

Any number of processes call `local_keys` (`signing/__init__.py`) on one directory, and nobody rotates its
keys. The lock leaves one of them under way, so the directory gets one key and all of them return it. The
private key is written before the ring: a process that ends between the two leaves a directory without a
ring, where no later process may write the private key again.

The lock is released by the end of a process too, so the interesting runs are those in which a
process ends at the worst moment. The invariant tells from the two files how far the directory has
come: nothing, a private key alone, or both. From the second there is no way on but by the process
that made the key, and the theorem says that this is the only obstacle. -/

namespace AdaptiveLlm

namespace Signing

section LocalKeys

variable {κ π : Type} {e : Ed25519 κ π} {wide : Char → Bool} {callers : ℕ → Caller}
    {s t : System κ π} {i : ℕ}

/-! ## One key -/

/-- The private key of the directory. -/
def System.pem (s : System κ π) : PrivateFile κ := s.privates "private.pem"

/-- What `local_keys` returns where this is the key of the directory. -/
def Ed25519.localKeys (e : Ed25519 κ π) (key : κ) : LocalKeys κ π where
  key := key
  keyId := "local-1"
  publicKeys := (Ring.publish {} "local-1" (e.publicKey key)).publicKeys

/-- What a caller of `local_keys` knows while it holds the lock. -/
def System.Knows (s : System κ π) : Phase κ π → Prop
  | .idle | .locked => True
  | .rotating (.created ring) => s.ring = none ∧ ring = {} ∧ s.pem = .incomplete
  | .rotating (.written ring key) => s.ring = none ∧ ring = {} ∧ s.pem = .written key
  | .rotating stage => s.ring = none ∧ ∀ ring ∈ stage.ring, ring = {}
  | .reading => s.ring.isSome
  | .loading keyId => s.ring.isSome ∧ keyId = "local-1"
  | .checking keyId key => s.ring.isSome ∧ keyId = "local-1" ∧ s.pem = .written key

/-- One caller at most is under way, it knows how far the directory is, and the ring is of the one key. -/
structure Provisioned (e : Ed25519 κ π) (s : System κ π) : Prop where
  apart : s.privates publicPath = .absent
  alone : ∀ i, s.phases i ≠ .idle → s.Alone i
  knows : ∀ i, s.Knows (s.phases i)
  ring : ∀ ring ∈ s.ring, ∃ key, s.pem = .written key ∧
    ring = Ring.publish {} "local-1" (e.publicKey key) ∧ ∀ keys ∈ s.returned, keys = e.localKeys key
  returned : s.ring = none → s.returned = []

namespace Provisioned

theorem initial : Provisioned e {} where
  apart := rfl
  alone := by simp
  knows := by simp [System.Knows]
  ring := by simp
  returned _ := rfl

/-- The caller under way goes on. -/
theorem of_alone (hapart : s.privates publicPath = .absent) (halone : s.Alone i)
    (hring : ∀ ring ∈ s.ring, ∃ key, s.pem = .written key ∧
      ring = Ring.publish {} "local-1" (e.publicKey key) ∧ ∀ keys ∈ s.returned, keys = e.localKeys key)
    (hreturned : s.ring = none → s.returned = []) {phase : Phase κ π} (hknows : s.Knows phase) :
    Provisioned e (s.proceed i phase) where
  apart := hapart
  alone j hj := by
    rcases eq_or_ne j i with rfl | hne
    · exact halone.proceed phase
    · exact absurd (halone.proceed phase j hne) hj
  knows j := by
    rcases eq_or_ne j i with rfl | hne
    · rw [System.phases_proceed_self]
      exact hknows
    · rw [halone.proceed phase j hne]
      trivial
  ring := hring
  returned := hreturned

theorem proceed (h : Provisioned e s) (hi : s.phases i ≠ .idle) {phase : Phase κ π}
    (hknows : s.Knows phase) : Provisioned e (s.proceed i phase) :=
  of_alone h.apart (h.alone i hi) h.ring h.returned hknows

theorem of_idle (h : Provisioned e s) (i : ℕ) : Provisioned e (s.proceed i .idle) := by
  by_cases hi : s.phases i = .idle
  · have hsame : s.proceed i .idle = s := by
      unfold System.proceed
      rw [← hi, Function.update_eq_self]
    rwa [hsame]
  · exact h.proceed hi trivial

/-- What there is to know where the caller under way is at this phase. -/
theorem knows_of (h : Provisioned e s) {phase : Phase κ π} (hi : s.phases i = phase) : s.Knows phase :=
  hi ▸ h.knows i

/-- A private file changes, which is not where the ring belongs. -/
theorem apart_setPrivate (h : Provisioned e s) (hlocal : ∀ i, callers i = .localKeys)
    (file : PrivateFile κ) :
    (s.setPrivate (callers i).privatePath file).privates publicPath = .absent := by
  rw [hlocal i]
  exact (System.privates_setPrivate_of_ne s file (by decide)).trans h.apart

theorem pem_setRing (s : System κ π) (ring : Ring π) : (s.setRing ring).pem = s.pem :=
  System.privates_setRing_of_ne s ring (by decide)

theorem step (h : Provisioned e s) (hlocal : ∀ i, callers i = .localKeys)
    (hstep : Step e wide callers s t) : Provisioned e t ∧ s.returned <+: t.returned := by
  have hpath : ∀ i, (callers i).privatePath = "private.pem" := fun i => by rw [hlocal i]; rfl
  cases hstep with
  | rotate idle offline => exact absurd (hlocal _) offline
  | lock caller unlocked =>
    exact ⟨of_alone h.apart (fun j _ => unlocked j (hlocal j)) h.ring h.returned trivial,
      List.prefix_refl _⟩
  | provision locked missing =>
    exact ⟨h.proceed (by simp [locked]) ⟨missing.2 rfl, by simp [Stage.ring]⟩, List.prefix_refl _⟩
  | present locked present =>
    have hsome : s.ring.isSome := by
      rw [Option.isSome_iff_ne_none]
      exact fun hnone => present ⟨h.apart, fun _ => hnone⟩
    exact ⟨h.proceed (by simp [locked]) hsome, List.prefix_refl _⟩
  | read starting =>
    obtain ⟨hnone, -⟩ := h.knows_of starting
    exact ⟨h.proceed (by simp [starting]) ⟨hnone, by simp [Stage.ring, hnone]⟩, List.prefix_refl _⟩
  | check read =>
    obtain ⟨hnone, hempty⟩ := h.knows_of read
    exact ⟨h.proceed (by simp [read]) ⟨hnone, hempty⟩, List.prefix_refl _⟩
  | @create i ring checked newFile =>
    obtain ⟨hnone, hempty⟩ := h.knows_of checked
    refine ⟨of_alone (s := s.setPrivate ..) (h.apart_setPrivate hlocal _)
      (h.alone i (by simp [checked])) (by simp [hnone]) h.returned ?_,
      List.prefix_refl _⟩
    exact ⟨hnone, hempty ring rfl, by rw [System.pem, ← hpath i, System.privates_setPrivate_self]⟩
  | @write i ring key created =>
    obtain ⟨hnone, hempty, -⟩ := h.knows_of created
    refine ⟨of_alone (s := s.setPrivate ..) (h.apart_setPrivate hlocal _)
      (h.alone i (by simp [created])) (by simp [hnone]) h.returned ?_,
      List.prefix_refl _⟩
    exact ⟨hnone, hempty, by rw [System.pem, ← hpath i, System.privates_setPrivate_self]⟩
  | writeUnlinked key created unlinked =>
    rw [hpath] at unlinked
    exact absurd (h.knows_of created).2.2 unlinked
  | @publish i ring key written =>
    obtain ⟨hnone, rfl, hwritten⟩ := h.knows_of written
    refine ⟨of_alone (s := s.setRing _) (System.privates_setRing_self ..) (h.alone i (by simp [written])) ?_
      (by simp) ?_, List.prefix_refl _⟩
    · rintro _ ⟨⟩
      refine ⟨key, (pem_setRing s _).trans hwritten, by rw [hlocal i]; rfl, fun keys hkeys => ?_⟩
      rw [System.setRing, h.returned hnone] at hkeys
      cases hkeys
    · rw [hlocal i]
      rfl
  | @readRing i ring activeKeyId reading present active =>
    obtain ⟨key, -, rfl, -⟩ := h.ring ring present
    refine ⟨h.proceed (by simp [reading]) ⟨by simp [present], ?_⟩, List.prefix_refl _⟩
    exact (Option.some.inj active).symm
  | @loadSigner i activeKeyId key loading written =>
    obtain ⟨hsome, hkeyId⟩ := h.knows_of loading
    rw [hpath i] at written
    exact ⟨h.proceed (by simp [loading]) ⟨hsome, hkeyId, written⟩, List.prefix_refl _⟩
  | @returns i activeKeyId key ring checking present verified =>
    obtain ⟨-, rfl, hwritten⟩ := h.knows_of checking
    obtain ⟨key', hwritten', rfl, hreturned⟩ := h.ring ring present
    obtain rfl : key = key' := PrivateFile.written.inj (hwritten.symm.trans hwritten')
    refine ⟨of_alone (s := s.answer _) h.apart (h.alone i (by simp [checking]))
      ?_ (by simp [present]) trivial, List.prefix_append ..⟩
    rintro ring hring
    obtain rfl := Option.some.inj (present.symm.trans hring)
    refine ⟨key, hwritten, rfl, fun keys hkeys => ?_⟩
    rcases List.mem_append.1 hkeys with hold | hnew
    · exact hreturned keys hold
    · exact List.mem_singleton.1 hnew
  | fail i => exact ⟨h.of_idle i, List.prefix_refl _⟩

theorem run (h : Provisioned e s) (hlocal : ∀ i, callers i = .localKeys) (hrun : Run e wide callers s t) :
    Provisioned e t ∧ s.returned <+: t.returned := by
  induction hrun with
  | refl => exact ⟨h, List.prefix_refl _⟩
  | tail _ hstep ih =>
    obtain ⟨hv, hgrows⟩ := ih.1.step hlocal hstep
    exact ⟨hv, ih.2.trans hgrows⟩

theorem eq_of_mem_returned (h : Provisioned e s) {a b : LocalKeys κ π} (ha : a ∈ s.returned)
    (hb : b ∈ s.returned) : ∃ key, a = e.localKeys key ∧ b = e.localKeys key := by
  cases hring : s.ring with
  | none =>
    rw [h.returned hring] at ha
    cases ha
  | some ring =>
    obtain ⟨key, -, -, hreturned⟩ := h.ring ring hring
    exact ⟨key, hreturned a ha, hreturned b hb⟩

end Provisioned

/-! ## Calls that return -/

section Returns

variable (hlocal : ∀ i, callers i = .localKeys)

include hlocal

theorem exists_run_of_reading (h : Provisioned e s) (hreading : s.phases i = .reading) :
    ∃ t keys, Run e wide callers s t ∧ t.returned = s.returned ++ [keys] := by
  obtain ⟨ring, hring⟩ := Option.isSome_iff_exists.1 (h.knows_of hreading)
  obtain ⟨key, hwritten, rfl, -⟩ := h.ring ring hring
  let s₁ := s.proceed i (.loading "local-1")
  let s₂ := s₁.proceed i (.checking "local-1" key)
  let s₃ := (s₂.answer (e.localKeys key)).proceed i .idle
  have hread : Step e wide callers s s₁ := .readRing hreading hring rfl
  have hload : Step e wide callers s₁ s₂ :=
    .loadSigner (System.phases_proceed_self ..) (by rw [hlocal i]; exact hwritten)
  have hreturn : Step e wide callers s₂ s₃ :=
    .returns (System.phases_proceed_self ..) hring (e.verifier_accepts rfl _)
  exact ⟨s₃, _, ((Relation.ReflTransGen.single hread).tail hload).tail hreturn, rfl⟩

/-- The private key is written, the ring is not. -/
theorem exists_run_of_written (h : Provisioned e s) {ring : Ring π} {key : κ}
    (hwritten : s.phases i = .rotating (.written ring key)) :
    ∃ t keys, Run e wide callers s t ∧ t.returned = s.returned ++ [keys] := by
  have hpublish : Step e wide callers s _ := .publish hwritten
  have hreading : ((s.setRing (ring.publish (callers i).keyId (e.publicKey key))).proceed i
      (callers i).afterRotation).phases i = .reading := by
    rw [System.phases_proceed_self, hlocal i]
    rfl
  obtain ⟨t, keys, hrun, hreturned⟩ := exists_run_of_reading hlocal (h.step hlocal hpublish).1 hreading
  exact ⟨t, keys, hrun.head hpublish, hreturned⟩

theorem exists_run_of_created (h : Provisioned e s) {ring : Ring π}
    (hcreated : s.phases i = .rotating (.created ring)) (key : κ) :
    ∃ t keys, Run e wide callers s t ∧ t.returned = s.returned ++ [keys] := by
  have hincomplete : s.privates (callers i).privatePath = .incomplete := by
    rw [hlocal i]
    exact (h.knows_of hcreated).2.2
  have hwrite : Step e wide callers s _ := .write key hcreated hincomplete
  obtain ⟨t, keys, hrun, hreturned⟩ := exists_run_of_written hlocal (h.step hlocal hwrite).1
    (System.phases_proceed_self ..)
  exact ⟨t, keys, hrun.head hwrite, hreturned⟩

variable (wide) in
/-- Nobody is under way, and there is a ring or no private file. -/
theorem exists_run_of_idle (h : Provisioned e s) (hidle : ∀ i, s.phases i = .idle)
    (hfresh : s.ring = none → s.pem = .absent) (key : κ) :
    ∃ t keys, Run e wide callers s t ∧ t.returned = s.returned ++ [keys] := by
  have hlock : Step e wide callers s (s.proceed 0 .locked) := .lock (hlocal 0) fun i _ => hidle i
  have h₁ := (h.step hlocal hlock).1
  have hlocked : (s.proceed 0 .locked).phases 0 = .locked := System.phases_proceed_self ..
  cases hring : s.ring with
  | some ring =>
    have hpresent : Step e wide callers (s.proceed 0 .locked) _ :=
      .present hlocked (by simp [System.Vacant, hring])
    obtain ⟨t, keys, hrun, hreturned⟩ := exists_run_of_reading hlocal (h₁.step hlocal hpresent).1
      (System.phases_proceed_self ..)
    exact ⟨t, keys, (hrun.head hpresent).head hlock, hreturned⟩
  | none =>
    have hprovision : Step e wide callers (s.proceed 0 .locked) _ :=
      .provision hlocked ⟨h.apart, fun _ => hring⟩
    have halone : ((s.proceed 0 .locked).proceed 0 (.rotating .starting)).Alone 0 :=
      System.Alone.proceed (System.Alone.proceed (fun j _ => hidle j) _) _
    obtain ⟨t, hrun, -, hreading, -, -, hkeep, -⟩ := exists_serialRun_of_starting e wide callers
      halone (System.phases_proceed_self ..) (by simp [hring, Ring.ids]) h.apart
      (by rw [hlocal 0]; decide) (by rw [hlocal 0]; exact hfresh hring) key
    rw [hlocal 0] at hreading
    have hrun' := (hrun.run.head hprovision).head hlock
    obtain ⟨u, keys, hrun'', hreturned⟩ := exists_run_of_reading hlocal (h.run hlocal hrun').1 hreading
    exact ⟨u, keys, hrun'.trans hrun'', by rw [hreturned, hkeep]; rfl⟩

end Returns

/-! ## What they return -/

/-- **One key for all.** In every interleaving of `local_keys` calls of any number of processes, some
    of them killed anywhere, all that return, now or later, return the same signer and verifier, and
    the verifier of each accepts every record that the signer of another has signed. -/
theorem local_keys_agree (hlocal : ∀ i, callers i = .localKeys) (hs : Run e wide callers {} s)
    (hst : Run e wide callers s t) {a b : LocalKeys κ π} (ha : a ∈ s.returned) (hb : b ∈ t.returned) :
    a = b ∧ ∀ r purpose payload,
      verifyRecord r (signRecord r (e.signer a.key a.keyId) purpose payload)
        (some (e.verifier b.publicKeys)) purpose payload = true := by
  have hprovisioned : Provisioned e s := (Provisioned.initial.run hlocal hs).1
  obtain ⟨hlater, hgrows⟩ := hprovisioned.run hlocal hst
  obtain ⟨key, rfl, rfl⟩ := hlater.eq_of_mem_returned (hgrows.subset ha) hb
  refine ⟨rfl, fun r purpose payload => ?_⟩
  let keyring : Keyring :=
    { signer := some (e.signer key "local-1")
      verifier := some (e.verifier (e.localKeys key).publicKeys)
      manifestHmac := id }
  have hconsistent : keyring.Consistent := by
    rintro _ ⟨⟩
    exact ⟨by simp [Ed25519.signer], e.sign_ne_empty key, _, rfl, e.verifier_accepts rfl⟩
  exact Keyring.verifyRecord_signRecord hconsistent rfl r purpose payload

end LocalKeys

namespace Samples

/-- A first process has returned. -/
theorem exists_returned : ∃ s keys, Run spelling (fun _ => false) (fun _ => .localKeys) {} s ∧
    s.returned = [keys] :=
  exists_run_of_idle _ (fun _ => rfl) Provisioned.initial (fun _ => rfl) (fun _ => rfl) ()

end Samples

open Samples in
/-- What another process returns later is the same. -/
theorem returned_agree : ∃ s a, Run spelling (fun _ => false) (fun _ => .localKeys) {} s ∧
    s.returned = [a] ∧ ∀ t, Run spelling (fun _ => false) (fun _ => .localKeys) s t →
      ∀ b ∈ t.returned, a = b := by
  obtain ⟨s, a, hs, hreturned⟩ := exists_returned
  exact ⟨s, a, hs, hreturned, fun t hst b hb =>
    (local_keys_agree (fun _ => rfl) hs hst (by simp [hreturned]) hb).1⟩

/-! ## A directory without a ring

A process that ends behind the creation of the private file leaves it there. The next one can not
create the file again, so it raises, and this repeats for ever. -/

section Stuck

variable {κ π : Type} {e : Ed25519 κ π} {wide : Char → Bool} {callers : ℕ → Caller}
    {s t : System κ π} {i : ℕ}

/-- A process ended after it had created the private file and before it published the ring. -/
structure System.Stuck (s : System κ π) : Prop where
  ring : s.ring = none
  pem : s.pem ≠ .absent
  nobody : ∀ i ring, s.phases i ≠ .rotating (.created ring) ∧ ∀ key,
    s.phases i ≠ .rotating (.written ring key)

namespace System.Stuck

theorem proceed (h : s.Stuck) {phase : Phase κ π}
    (hphase : ∀ ring, phase ≠ .rotating (.created ring) ∧ ∀ key, phase ≠ .rotating (.written ring key)) :
    (s.proceed i phase).Stuck where
  ring := h.ring
  pem := h.pem
  nobody j ring := by
    rcases eq_or_ne j i with rfl | hj
    · rw [System.phases_proceed_self]
      exact hphase ring
    · rw [System.phases_proceed_of_ne s phase hj]
      exact h.nobody j ring

theorem step (h : s.Stuck) (hlocal : ∀ i, callers i = .localKeys) (hstep : Step e wide callers s t) :
    t.Stuck ∧ t.returned = s.returned := by
  have hpath : ∀ i, ¬s.Vacant (callers i).privatePath := by
    intro i hvacant
    rw [hlocal i] at hvacant
    exact h.pem hvacant.1
  cases hstep with
  | rotate | lock | provision | present | read | loadSigner | fail => exact ⟨h.proceed (by simp), rfl⟩
  | check _ _ newFile => exact absurd newFile (hpath _)
  | create _ newFile => exact absurd newFile (hpath _)
  | write _ created | writeUnlinked _ created => exact absurd created (h.nobody _ _).1
  | publish written => exact absurd written ((h.nobody _ _).2 _)
  | readRing _ present => exact absurd (h.ring.symm.trans present) (by simp)
  | returns _ present => exact absurd (h.ring.symm.trans present) (by simp)

theorem run (h : s.Stuck) (hlocal : ∀ i, callers i = .localKeys) (hrun : Run e wide callers s t) :
    t.Stuck ∧ t.returned = s.returned := by
  induction hrun with
  | refl => exact ⟨h, rfl⟩
  | tail _ hstep ih =>
    obtain ⟨hv, hreturned⟩ := ih.1.step hlocal hstep
    exact ⟨hv, hreturned.trans ih.2⟩

end System.Stuck

variable (wide callers) in
/-- The process under way, if there is one, is killed. -/
theorem exists_run_idle (h : Provisioned e s) :
    ∃ t, Run e wide callers s t ∧ (∀ i, t.phases i = .idle) ∧ t.ring = s.ring ∧ t.pem = s.pem ∧
      t.returned = s.returned := by
  by_cases hidle : ∀ i, s.phases i = .idle
  · exact ⟨s, .refl, hidle, rfl, rfl, rfl⟩
  · obtain ⟨i, hi⟩ := not_forall.1 hidle
    refine ⟨s.proceed i .idle, .single (.fail i), fun j => ?_, rfl, rfl, rfl⟩
    rcases eq_or_ne j i with rfl | hj
    · exact System.phases_proceed_self ..
    · exact (h.alone i hi).proceed _ j hj

/-- **When a directory still gives keys.** A run of `local_keys` calls can go on to one more return exactly
    where no process has ended between the creation of the private file and the publication of the ring;
    after such an end no call returns any more. -/
theorem local_keys_return_iff [Nonempty κ] (hlocal : ∀ i, callers i = .localKeys)
    (hs : Run e wide callers {} s) :
    (∃ t, Run e wide callers s t ∧ s.returned.length < t.returned.length) ↔ ¬ s.Stuck := by
  have h : Provisioned e s := (Provisioned.initial.run hlocal hs).1
  constructor
  · rintro ⟨t, hst, hlt⟩ hstuck
    rw [(hstuck.run hlocal hst).2] at hlt
    exact lt_irrefl _ hlt
  · intro hstuck
    obtain ⟨key⟩ := ‹Nonempty κ›
    have hreturns : ∃ t keys, Run e wide callers s t ∧ t.returned = s.returned ++ [keys] := by
      by_cases hfresh : s.ring = none → s.pem = .absent
      · obtain ⟨u, hsu, hidle, hring, hpem, hreturned⟩ := exists_run_idle wide callers h
        obtain ⟨t, keys, hut, hkeys⟩ := exists_run_of_idle wide hlocal (h.run hlocal hsu).1 hidle
          (by rwa [hring, hpem]) key
        exact ⟨t, keys, hsu.trans hut, by rw [hkeys, hreturned]⟩
      · obtain ⟨hnone, hpem⟩ := Classical.not_imp.1 hfresh
        have hsomebody : ∃ i ring, s.phases i = .rotating (.created ring) ∨
            ∃ key, s.phases i = .rotating (.written ring key) := by
          by_contra hnobody
          refine hstuck ⟨hnone, hpem, fun i ring => ⟨fun hcreated => ?_, fun key hwritten => ?_⟩⟩
          · exact hnobody ⟨i, ring, .inl hcreated⟩
          · exact hnobody ⟨i, ring, .inr ⟨key, hwritten⟩⟩
        obtain ⟨i, ring, hcreated | ⟨key, hwritten⟩⟩ := hsomebody
        · exact exists_run_of_created hlocal h hcreated key
        · exact exists_run_of_written hlocal h hwritten
    obtain ⟨t, keys, hst, hkeys⟩ := hreturns
    exact ⟨t, hst, by simp [hkeys]⟩

end Stuck

open Samples in
/-- A process was killed when it had created the private file. -/
theorem interrupted_never_returns : ∃ s, Run spelling (fun _ => false) (fun _ => .localKeys) {} s ∧
    (∀ i, s.phases i = .idle) ∧
      ¬ ∃ t, Run spelling (fun _ => false) (fun _ => .localKeys) s t ∧
        s.returned.length < t.returned.length := by
  let s₁ : System Unit Unit := System.proceed {} 0 .locked
  let s₂ := s₁.proceed 0 (.rotating .starting)
  let s₃ := s₂.proceed 0 (.rotating (.read {}))
  let s₄ := s₃.proceed 0 (.rotating (.checked {}))
  let s₅ := (s₄.setPrivate "private.pem" .incomplete).proceed 0 (.rotating (.created {}))
  let s₆ := s₅.proceed 0 .idle
  have hrun : Run spelling (fun _ => false) (fun _ => .localKeys) {} s₆ :=
    (((((Relation.ReflTransGen.single (.lock rfl fun _ _ => rfl)).tail
      (.provision rfl ⟨rfl, fun _ => rfl⟩)).tail
      (.read rfl rfl)).tail (.check rfl (by simp [Ring.ids]) (.of_ne _ rfl (by decide)))).tail
      (.create rfl (.of_ne _ rfl (by decide)))).tail (.fail 0)
  have hidle : ∀ i, s₆.phases i = .idle := by
    intro i
    rcases eq_or_ne i 0 with rfl | hi
    · rfl
    · simp [s₆, s₅, s₄, s₃, s₂, s₁, System.phases_proceed_of_ne _ _ hi]
  refine ⟨s₆, hrun, hidle, fun hreturn => ?_⟩
  refine (local_keys_return_iff (fun _ => rfl) hrun).1 hreturn ⟨rfl, ?_, fun i ring => by simp [hidle i]⟩
  have hpem : s₆.pem = .incomplete := rfl
  simp [hpem]

end Signing

end AdaptiveLlm
