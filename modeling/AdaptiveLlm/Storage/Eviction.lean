import AdaptiveLlm.Lib.Greatest
import AdaptiveLlm.Storage.Tombstones
import Mathlib.Data.Prod.Lex

set_option autoImplicit false

/-! # Eviction of replays

`_save` puts a replay in place of an earlier one of its key: `delete_replay`, then `put_replay`, which
keeps the `capacity` latest entries of the tenant and deletes the others with their payloads. The new
entry is one of the candidates, and need not be kept.

The order of eviction is by the time of the reservation, then by application and request, and the
query takes all entries of the tenant behind the first `capacity`. What is left is therefore
described without the query, by the order alone, with `Lib/Greatest.lean`. The payload of an entry
is deleted with it by the foreign key, and no other payload, which needs each payload to belong to
one entry. -/

namespace AdaptiveLlm

namespace Stored

/-! ## Keys and order -/

/-- The primary key. -/
def ReplayRecord.key (e : ReplayRecord) : String × String × String :=
  (e.tenantId, e.applicationId, e.requestId)

/-- The foreign key to the payloads. -/
def ReplayRecord.refersTo (e : ReplayRecord) (p : EncryptedPayload) : Bool :=
  e.tenantId = p.tenantId && e.responseRef = p.reference

/-- What the order of eviction compares. -/
def ReplayRecord.order (e : ReplayRecord) : ℤ ×ₗ String ×ₗ String :=
  toLex (e.reservedAt, toLex (e.applicationId, e.requestId))

namespace Store

theorem later_iff (a b : ReplayRecord) : later a b ↔ b.order ≤ a.order := by
  unfold later ReplayRecord.order
  rw [Prod.Lex.toLex_le_toLex, Prod.Lex.toLex_le_toLex]

instance : Std.Total later := ⟨fun a b => by
  rw [later_iff, later_iff]
  exact le_total b.order a.order⟩

instance : IsTrans ReplayRecord later := ⟨fun a b c hab hbc => by
  rw [later_iff] at *
  exact hbc.trans hab⟩

/-- What the keys of the schema say about the replays. -/
structure ReplayKeys (s : Store) : Prop where
  unique : (s.replayEntries.map ReplayRecord.key).Nodup
  stored : ∀ e ∈ s.replayEntries, ∃ p ∈ s.payloads, e.refersTo p = true

/-- The entries of a tenant compete by a total order. -/
theorem eq_of_later {l : List ReplayRecord} (hkeys : (l.map ReplayRecord.key).Nodup) {a b : ReplayRecord}
    (ha : a ∈ l) (hb : b ∈ l) (htenant : a.tenantId = b.tenantId) (hab : later a b) (hba : later b a) :
    a = b := by
  rw [later_iff] at hab hba
  have horder : a.order = b.order := le_antisymm hba hab
  simp only [ReplayRecord.order, EmbeddingLike.apply_eq_iff_eq, Prod.mk.injEq] at horder
  refine List.inj_on_of_nodup_map hkeys ha hb ?_
  rw [ReplayRecord.key, ReplayRecord.key, htenant, horder.2.1, horder.2.2]

/-! ## The law

`Replaced` describes the table after a replacement by the order of the entries alone, and what is
done to the payloads by the entries that went. -/

/-- `delete_replay` for the key of a new entry, then `put_replay`. -/
def replaceReplay (s : Store) (replay : ReplayRecord) (capacity : ℕ) : StoreResult Store := do
  let s ← s.deleteReplay replay.tenantId replay.applicationId replay.requestId
  s.putReplay replay capacity

/-- The tenant's entries of other keys, and the new one. -/
def candidates (s : Store) (replay : ReplayRecord) : List ReplayRecord :=
  s.replayEntries.filter (fun e => e.tenantId = replay.tenantId && e.key ≠ replay.key) ++ [replay]

/-- The entry is gone, the new one counted in. -/
def gone (s : Store) (replay : ReplayRecord) (s' : Store) (e : ReplayRecord) : Prop :=
  e ∈ s.replayEntries ++ [replay] ∧ e ∉ s'.replayEntries

/-- What a replacement leaves. -/
structure Replaced (s : Store) (replay : ReplayRecord) (capacity : ℕ) (s' : Store) : Prop where
  /-- the tenant's entries are the candidates with fewer than `capacity` later ones -/
  kept : s'.replayEntries.filter (·.tenantId = replay.tenantId) =
    (s.candidates replay).filter fun e => Greatest.rank later (s.candidates replay) e < capacity
  length : (s'.replayEntries.filter (·.tenantId = replay.tenantId)).length =
    min capacity (s.candidates replay).length
  /-- the payloads that go are those of the entries that go -/
  payloads : ∀ p, p ∈ s'.payloads ↔ p ∈ s.payloads ∧ ¬∃ e, s.gone replay s' e ∧ e.refersTo p = true
  keys : s'.ReplayKeys
  others : s'.replayEntries.filter (·.tenantId ≠ replay.tenantId) =
    s.replayEntries.filter (·.tenantId ≠ replay.tenantId)
  otherPayloads : s'.payloads.filter (·.tenantId ≠ replay.tenantId) =
    s.payloads.filter (·.tenantId ≠ replay.tenantId)
  rest : s' = { s with replayEntries := s'.replayEntries, payloads := s'.payloads }

/-- The entry can be put: its interaction is stored and active, and the payloads of the tenant's
    entries, its own among them, are stored and distinct. -/
structure Accepts (s : Store) (replay : ReplayRecord) : Prop where
  writable : s.writable replay.tenantId replay.interactionId = .ok ()
  interaction : (s.interactionRow replay.tenantId replay.interactionId).isSome = true
  stored : ∃ p ∈ s.payloads, replay.refersTo p = true
  distinct : ((s.replayEntries.filter (·.tenantId = replay.tenantId)).map (·.responseRef) ++
    [replay.responseRef]).Nodup

/-! ## The two steps -/

section Steps

variable {s s' : Store} {tenant applicationId requestId : String}

/-- A delete of payloads that succeeds leaves every entry its payload. -/
theorem deletePayloads_stored {which : EncryptedPayload → Bool} (h : s.deletePayloads which = .ok s')
    (hstored : ∀ e ∈ s.replayEntries, ∃ p ∈ s.payloads, e.refersTo p = true) :
    ∀ e ∈ s'.replayEntries, ∃ p ∈ s'.payloads, e.refersTo p = true := by
  have hs' := deletePayloads_eq_ok h
  obtain ⟨_, hcheck, _⟩ := Except.bind_eq_ok.1 h
  rw [check_eq_ok] at hcheck
  simp only [Bool.not_eq_true', List.any_eq_false, Bool.and_eq_true, List.any_eq_true,
    decide_eq_true_eq, not_and, not_exists] at hcheck
  subst hs'
  intro e he
  obtain ⟨p, hp, hrefers⟩ := hstored e he
  refine ⟨p, List.mem_filter.2 ⟨hp, ?_⟩, hrefers⟩
  by_contra hwhich
  rw [Bool.not_eq_true, Bool.not_eq_false'] at hwhich
  unfold ReplayRecord.refersTo at hrefers
  simp only [Bool.and_eq_true, decide_eq_true_eq] at hrefers
  exact hcheck p hp hwhich e he hrefers.1 hrefers.2

/-- It succeeds where no entry refers to one of them. -/
theorem deletePayloads_ok {which : EncryptedPayload → Bool}
    (h : ∀ p ∈ s.payloads, which p = true → ∀ e ∈ s.replayEntries, e.refersTo p = false) :
    s.deletePayloads which = .ok { s with payloads := s.payloads.filter fun p => !which p } := by
  have hcheck : check (!s.payloads.any fun p => which p && s.replayEntries.any fun e =>
      e.tenantId = p.tenantId && e.responseRef = p.reference) .constraint = .ok () := by
    rw [check_eq_ok, Bool.not_eq_true', List.any_eq_false]
    intro p hp hwhich
    rw [Bool.and_eq_true, List.any_eq_true] at hwhich
    obtain ⟨hwhich, e, he, hrefers⟩ := hwhich
    have := h p hp hwhich e he
    unfold ReplayRecord.refersTo at this
    rw [this] at hrefers
    cases hrefers
  unfold deletePayloads
  rw [hcheck]
  rfl

/-- `delete_replay`: the entry of the key goes, and its payload. -/
theorem deleteReplay_eq_ok (hkeys : (s.replayEntries.map ReplayRecord.key).Nodup)
    (h : s.deleteReplay tenant applicationId requestId = .ok s') :
    s' = { s with
      replayEntries := s.replayEntries.filter (·.key ≠ (tenant, applicationId, requestId))
      payloads := s.payloads.filter fun p => !s.replayEntries.any fun e =>
        e.key = (tenant, applicationId, requestId) && e.refersTo p } := by
  have hwhich : ∀ e : ReplayRecord,
      (e.tenantId = tenant && e.applicationId = applicationId && e.requestId = requestId) =
        decide (e.key = (tenant, applicationId, requestId)) := by
    intro e
    simp [ReplayRecord.key, Bool.and_assoc]
  unfold deleteReplay at h
  simp only [hwhich] at h
  cases hfind : s.replayEntries.find? fun e => e.key = (tenant, applicationId, requestId) with
  | none =>
    rw [hfind] at h
    cases h
    have hnone : ∀ p, (s.replayEntries.any fun e =>
        e.key = (tenant, applicationId, requestId) && e.refersTo p) = false := by
      intro p
      rw [List.any_eq_false]
      intro e he
      have := List.find?_eq_none.1 hfind e he
      simp_all
    simp [removeReplays, hnone]
  | some row =>
    rw [hfind] at h
    have hkey : row.key = (tenant, applicationId, requestId) := by
      simpa using List.find?_some hfind
    have hrow := List.mem_of_find?_eq_some hfind
    rw [deletePayloads_eq_ok h]
    unfold removeReplays
    congr 1
    · exact List.filter_congr fun p _ => by
        congr 1
        rw [Bool.eq_iff_iff, List.any_eq_true]
        simp only [ReplayRecord.refersTo, Bool.and_eq_true, decide_eq_true_eq]
        constructor
        · rintro ⟨rfl, href⟩
          exact ⟨row, hrow, hkey, congrArg (·.1) hkey, href.symm⟩
        · -- the key is of one entry alone
          rintro ⟨e, he, hekey, htenant, href⟩
          obtain rfl := List.inj_on_of_nodup_map hkeys he hrow (hekey.trans hkey.symm)
          exact ⟨htenant.symm.trans (congrArg (·.1) hkey), href.symm⟩
    · exact List.filter_congr fun e _ => by simp

theorem deleteReplay_stored (hkeys : s.ReplayKeys)
    (h : s.deleteReplay tenant applicationId requestId = .ok s') : s'.ReplayKeys := by
  have hs' := deleteReplay_eq_ok hkeys.unique h
  refine ⟨?_, ?_⟩
  · rw [hs']
    exact hkeys.unique.sublist (List.filter_sublist.map _)
  · have hremoved : ∀ which, ∀ e ∈ (s.removeReplays which).replayEntries,
        ∃ p ∈ (s.removeReplays which).payloads, e.refersTo p = true :=
      fun which e he => hkeys.stored e (List.mem_of_mem_filter he)
    unfold deleteReplay at h
    dsimp only at h
    split at h
    · cases h
      exact hremoved _
    · exact deletePayloads_stored h (hremoved _)

/-- The loop over the evicted entries deletes their payloads. -/
theorem deleteEvicted_eq_ok {evicted : List ReplayRecord} (htenant : ∀ e ∈ evicted, e.tenantId = tenant)
    (h : evicted.foldlM (fun (s : Store) old => s.deleteReplayPayload tenant old.responseRef) s =
      .ok s') :
    s' = { s with payloads := s.payloads.filter fun p => !evicted.any (·.refersTo p) } := by
  induction evicted generalizing s with
  | nil =>
    cases h
    simp
  | cons old evicted ih =>
    obtain ⟨s₁, hdelete, h⟩ := Except.bind_eq_ok.1 h
    have hs₁ := deletePayloads_eq_ok hdelete
    rw [ih (fun e he => htenant e (List.mem_cons_of_mem _ he)) h, hs₁]
    have hold : old.tenantId = tenant := htenant old List.mem_cons_self
    simp only [List.filter_filter]
    congr 1
    refine List.filter_congr fun p _ => ?_
    simp only [List.any_cons, Bool.not_or, ReplayRecord.refersTo, hold]
    rw [Bool.and_comm]
    congr 3 <;> simp [eq_comm]

theorem deleteEvicted_stored {evicted : List ReplayRecord}
    (h : evicted.foldlM (fun (s : Store) old => s.deleteReplayPayload tenant old.responseRef) s =
      .ok s')
    (hstored : ∀ e ∈ s.replayEntries, ∃ p ∈ s.payloads, e.refersTo p = true) :
    ∀ e ∈ s'.replayEntries, ∃ p ∈ s'.payloads, e.refersTo p = true := by
  induction evicted generalizing s with
  | nil =>
    cases h
    exact hstored
  | cons old evicted ih =>
    obtain ⟨s₁, hdelete, h⟩ := Except.bind_eq_ok.1 h
    exact ih h (deletePayloads_stored hdelete hstored)

theorem deleteEvicted_ok {evicted : List ReplayRecord}
    (h : ∀ old ∈ evicted, ∀ e ∈ s.replayEntries,
      e.tenantId = tenant → e.responseRef ≠ old.responseRef) :
    ∃ s', evicted.foldlM (fun (s : Store) old => s.deleteReplayPayload tenant old.responseRef) s =
      .ok s' := by
  induction evicted generalizing s with
  | nil => exact ⟨s, rfl⟩
  | cons old evicted ih =>
    have hdelete : s.deleteReplayPayload tenant old.responseRef = .ok { s with
        payloads := s.payloads.filter fun p =>
          !(p.tenantId = tenant && p.reference = old.responseRef) } := by
      refine deletePayloads_ok fun p _ hwhich e he => ?_
      simp only [Bool.and_eq_true, decide_eq_true_eq] at hwhich
      unfold ReplayRecord.refersTo
      by_contra hrefers
      simp only [Bool.not_eq_false, Bool.and_eq_true, decide_eq_true_eq] at hrefers
      exact h old List.mem_cons_self e he (hrefers.1.trans hwhich.1) (hrefers.2.trans hwhich.2)
    rw [List.foldlM_cons, hdelete]
    exact ih fun old' hold' => h old' (List.mem_cons_of_mem _ hold')

end Steps

section Put

variable {s s' : Store} {replay : ReplayRecord} {capacity : ℕ}

/-- The entries a new one competes with, and itself. -/
def competing (s : Store) (replay : ReplayRecord) : List ReplayRecord :=
  (s.replayEntries ++ [replay]).filter (·.tenantId = replay.tenantId)

theorem mem_competing {e : ReplayRecord} :
    e ∈ s.competing replay ↔ e ∈ s.replayEntries ++ [replay] ∧ e.tenantId = replay.tenantId := by
  rw [competing, List.mem_filter, decide_eq_true_eq]

/-- The table after the INSERT. -/
theorem insertReplay_eq_ok (h : s.insertReplay replay = .ok s') :
    replay.key ∉ s.replayEntries.map ReplayRecord.key ∧
      (∃ p ∈ s.payloads, replay.refersTo p = true) ∧
      s' = { s with replayEntries := s.replayEntries ++ [replay] } := by
  obtain ⟨_, hkey, h⟩ := Except.bind_eq_ok.1 h
  obtain ⟨_, _, h⟩ := Except.bind_eq_ok.1 h
  obtain ⟨_, hpayload, h⟩ := Except.bind_eq_ok.1 h
  cases h
  rw [check_eq_ok] at hkey hpayload
  refine ⟨?_, ?_, rfl⟩
  · rw [List.mem_map]
    rintro ⟨e, he, hsame⟩
    simp only [Bool.not_eq_true', List.any_eq_false] at hkey
    refine hkey e he ?_
    simp only [ReplayRecord.key, Prod.mk.injEq] at hsame
    simp [hsame]
  · rw [List.any_eq_true] at hpayload
    obtain ⟨p, hp, hrefers⟩ := hpayload
    refine ⟨p, hp, ?_⟩
    simp only [Bool.and_eq_true, decide_eq_true_eq] at hrefers
    simp [ReplayRecord.refersTo, hrefers]

theorem insertReplay_ok (hkey : replay.key ∉ s.replayEntries.map ReplayRecord.key)
    (hinteraction : (s.interactionRow replay.tenantId replay.interactionId).isSome = true)
    (hpayload : ∃ p ∈ s.payloads, replay.refersTo p = true) :
    s.insertReplay replay = .ok { s with replayEntries := s.replayEntries ++ [replay] } := by
  have hfirst : check (!s.replayEntries.any fun e => e.tenantId = replay.tenantId &&
      e.applicationId = replay.applicationId && e.requestId = replay.requestId) .constraint =
      .ok () := by
    rw [check_eq_ok, Bool.not_eq_true', List.any_eq_false]
    intro e he hsame
    refine hkey (List.mem_map.2 ⟨e, he, ?_⟩)
    simp only [Bool.and_eq_true, decide_eq_true_eq] at hsame
    rw [ReplayRecord.key, ReplayRecord.key, hsame.1.1, hsame.1.2, hsame.2]
  have hlast : check (s.payloads.any fun p => p.tenantId = replay.tenantId &&
      p.reference = replay.responseRef) .constraint = .ok () := by
    rw [check_eq_ok, List.any_eq_true]
    obtain ⟨p, hp, hrefers⟩ := hpayload
    refine ⟨p, hp, ?_⟩
    simp only [ReplayRecord.refersTo, Bool.and_eq_true, decide_eq_true_eq] at hrefers
    simp [hrefers]
  unfold insertReplay
  rw [hfirst, Except.ok_bind, show check _ _ = .ok () from check_eq_ok.2 hinteraction, Except.ok_bind,
    hlast]
  rfl

theorem ReplayKeys.insert (h : s.ReplayKeys) (hkey : replay.key ∉ s.replayEntries.map ReplayRecord.key)
    (hpayload : ∃ p ∈ s.payloads, replay.refersTo p = true) :
    ({ s with replayEntries := s.replayEntries ++ [replay] } : Store).ReplayKeys := by
  refine ⟨?_, fun e he => ?_⟩
  · rw [List.map_append, List.nodup_append]
    refine ⟨h.unique, List.nodup_singleton _, fun key hkey' _ hnew heq => hkey ?_⟩
    rw [List.map_singleton, List.mem_singleton] at hnew
    rwa [← hnew, ← heq]
  · rcases List.mem_append.1 he with he | he
    · exact h.stored e he
    · rw [List.mem_singleton.1 he]
      exact hpayload

/-- The entries that are evicted. -/
theorem mem_evictable {tenant : String} (hkeys : s.ReplayKeys) {e : ReplayRecord} :
    e ∈ s.evictable tenant capacity ↔ (e ∈ s.replayEntries ∧ e.tenantId = tenant) ∧
      capacity ≤ Greatest.rank later (s.replayEntries.filter (·.tenantId = tenant)) e := by
  have hnodup : (s.replayEntries.filter (·.tenantId = tenant)).Nodup :=
    hkeys.unique.of_map.filter _
  have hanti : ∀ a ∈ s.replayEntries.filter (·.tenantId = tenant),
      ∀ b ∈ s.replayEntries.filter (·.tenantId = tenant), later a b → later b a → a = b := by
    intro a ha b hb
    simp only [List.mem_filter, decide_eq_true_eq] at ha hb
    exact eq_of_later hkeys.unique ha.1 hb.1 (ha.2.trans hb.2.symm)
  unfold evictable
  rw [Greatest.mem_drop_insertionSort hnodup hanti]
  simp

/-- `put_replay`: of the competing entries those with `capacity` later ones go, with their payloads. -/
theorem putReplay_eq_ok (hkeys : s.ReplayKeys) (h : s.putReplay replay capacity = .ok s') :
    (∃ p ∈ s.payloads, replay.refersTo p = true) ∧
      s' = { s with
        replayEntries := (s.replayEntries ++ [replay]).filter fun e =>
          e.tenantId ≠ replay.tenantId || Greatest.rank later (s.competing replay) e < capacity
        payloads := s.payloads.filter fun p => !(s.competing replay).any fun e =>
          capacity ≤ Greatest.rank later (s.competing replay) e && e.refersTo p } ∧
      s'.ReplayKeys := by
  obtain ⟨_, -, h⟩ := Except.bind_eq_ok.1 h
  obtain ⟨_, -, h⟩ := Except.bind_eq_ok.1 h
  obtain ⟨s₁, hinsert, h⟩ := Except.bind_eq_ok.1 h
  obtain ⟨hkey, hpayload, rfl⟩ := insertReplay_eq_ok hinsert
  have hinserted := hkeys.insert hkey hpayload
  have hevicted : ∀ e, e ∈ evictable { s with replayEntries := s.replayEntries ++ [replay] }
      replay.tenantId capacity ↔ (e ∈ s.replayEntries ++ [replay] ∧ e.tenantId = replay.tenantId) ∧
        capacity ≤ Greatest.rank later (s.competing replay) e := fun e => mem_evictable hinserted
  generalize evictable { s with replayEntries := s.replayEntries ++ [replay] } replay.tenantId capacity =
    evicted at h hevicted
  have hs' := deleteEvicted_eq_ok (fun e he => ((hevicted e).1 he).1.2) h
  -- an entry goes when it is evicted itself: its key is its own
  have hentries : ∀ e ∈ s.replayEntries ++ [replay],
      (!(e.tenantId = replay.tenantId && evicted.any fun old =>
        old.applicationId = e.applicationId && old.requestId = e.requestId)) =
      (e.tenantId ≠ replay.tenantId || Greatest.rank later (s.competing replay) e < capacity : Bool) := by
    intro e he
    by_cases htenant : e.tenantId = replay.tenantId
    · have hany : (evicted.any fun old =>
          old.applicationId = e.applicationId && old.requestId = e.requestId) = true ↔ e ∈ evicted := by
        rw [List.any_eq_true]
        constructor
        · rintro ⟨old, hold, hsame⟩
          simp only [Bool.and_eq_true, decide_eq_true_eq] at hsame
          have hmem := ((hevicted old).1 hold).1
          have hsame : old = e := List.inj_on_of_nodup_map hinserted.unique hmem.1 he (by
            rw [ReplayRecord.key, ReplayRecord.key, hmem.2, htenant, hsame.1, hsame.2])
          rwa [← hsame]
        · exact fun h => ⟨e, h, by simp⟩
      rw [Bool.eq_iff_iff]
      simp only [htenant, decide_true, Bool.true_and, Bool.not_eq_true', ne_eq, not_true_eq_false,
        decide_false, Bool.false_or, decide_eq_true_eq, ← Bool.not_eq_true, hany, hevicted]
      simp only [he, true_and, not_le]
    · simp [htenant]
  have hpayloads : ∀ p, evicted.any (·.refersTo p) = (s.competing replay).any fun e =>
      capacity ≤ Greatest.rank later (s.competing replay) e && e.refersTo p := by
    intro p
    rw [Bool.eq_iff_iff, List.any_eq_true, List.any_eq_true]
    simp only [hevicted, mem_competing, Bool.and_eq_true, decide_eq_true_eq, and_assoc]
  have hstored : ∀ e ∈ s'.replayEntries, ∃ p ∈ s'.payloads, e.refersTo p = true :=
    deleteEvicted_stored h fun e he => hinserted.stored e (List.mem_of_mem_filter he)
  have hshape : s' = { s with
      replayEntries := (s.replayEntries ++ [replay]).filter fun e =>
        e.tenantId ≠ replay.tenantId || Greatest.rank later (s.competing replay) e < capacity
      payloads := s.payloads.filter fun p => !(s.competing replay).any fun e =>
        capacity ≤ Greatest.rank later (s.competing replay) e && e.refersTo p } := by
    rw [hs']
    unfold removeReplays
    simp only [hpayloads]
    congr 1
    exact List.filter_congr hentries
  refine ⟨hpayload, hshape, ?_, hstored⟩
  rw [hshape]
  exact hinserted.unique.sublist (List.filter_sublist.map _)

/-- What goes in a replacement: the entry of the same key, and what is evicted. -/
theorem gone_iff {s₁ : Store} (hs₁ : s₁ = { s with
      replayEntries := s.replayEntries.filter (·.key ≠ replay.key)
      payloads := s.payloads.filter fun p => !s.replayEntries.any fun e =>
        e.key = replay.key && e.refersTo p })
    (hpayload : ∃ p ∈ s₁.payloads, replay.refersTo p = true)
    (hentries : s'.replayEntries = (s₁.replayEntries ++ [replay]).filter fun e =>
      e.tenantId ≠ replay.tenantId || Greatest.rank later (s.candidates replay) e < capacity)
    (e : ReplayRecord) :
    s.gone replay s' e ↔ (e ∈ s.replayEntries ∧ e.key = replay.key) ∨
      (e ∈ s.candidates replay ∧ capacity ≤ Greatest.rank later (s.candidates replay) e) := by
  have hleft : ∀ e, e ∈ s'.replayEntries ↔ (e ∈ s.replayEntries ∧ e.key ≠ replay.key ∨ e = replay) ∧
      (e.tenantId = replay.tenantId → Greatest.rank later (s.candidates replay) e < capacity) := by
    intro e
    rw [hentries, hs₁]
    simp only [List.mem_filter, List.mem_append, List.mem_singleton, Bool.or_eq_true,
      decide_eq_true_eq]
    tauto
  have hcandidates : ∀ e, e ∈ s.candidates replay ↔
      (e ∈ s.replayEntries ∧ e.tenantId = replay.tenantId ∧ e.key ≠ replay.key) ∨ e = replay := by
    intro e
    simp [candidates]
  rw [gone, hleft, hcandidates, List.mem_append, List.mem_singleton]
  constructor
  · rintro ⟨he, hgone⟩
    by_cases hkey : e ∈ s.replayEntries ∧ e.key = replay.key
    · exact .inl hkey
    · right
      have hcase : e ∈ s.replayEntries ∧ e.key ≠ replay.key ∨ e = replay :=
        he.imp_left fun hmem => ⟨hmem, fun hsame => hkey ⟨hmem, hsame⟩⟩
      rw [not_and] at hgone
      have hrank := hgone hcase
      push Not at hrank
      exact ⟨hcase.imp_left fun h => ⟨h.1, hrank.1, h.2⟩, hrank.2⟩
  · rintro (⟨he, hkey⟩ | ⟨he, hrank⟩)
    · refine ⟨.inl he, ?_⟩
      rintro ⟨⟨-, hne⟩ | rfl, -⟩
      · exact hne hkey
      · -- were it the new entry itself, its payload would be gone before it is put
        obtain ⟨p, hp, hrefers⟩ := hpayload
        rw [hs₁, List.mem_filter] at hp
        have hnone := hp.2
        simp only [Bool.not_eq_true', List.any_eq_false] at hnone
        exact hnone e he (by simp [hrefers])
    · have htenant : e.tenantId = replay.tenantId := by
        rcases he with he | rfl
        · exact he.2.1
        · rfl
      exact ⟨he.imp_left (·.1), fun h => Nat.not_lt.2 hrank (h.2 htenant)⟩

/-- The first half: what a replacement that succeeds leaves. -/
theorem replaced_of_ok (hkeys : s.ReplayKeys) (h : s.replaceReplay replay capacity = .ok s') :
    s.Replaced replay capacity s' := by
  obtain ⟨s₁, hdelete, hput⟩ := Except.bind_eq_ok.1 h
  have hkeys₁ := deleteReplay_stored hkeys hdelete
  have hs₁ : s₁ = { s with
      replayEntries := s.replayEntries.filter (·.key ≠ replay.key)
      payloads := s.payloads.filter fun p => !s.replayEntries.any fun e =>
        e.key = replay.key && e.refersTo p } := deleteReplay_eq_ok hkeys.unique hdelete
  obtain ⟨hpayload, hs', hkeys'⟩ := putReplay_eq_ok hkeys₁ hput
  have hcompeting : s₁.competing replay = s.candidates replay := by
    rw [competing, candidates, hs₁, List.filter_append, List.filter_filter]
    simp
  rw [hcompeting] at hs'
  have hgone : ∀ e, s.gone replay s' e ↔ (e ∈ s.replayEntries ∧ e.key = replay.key) ∨
      (e ∈ s.candidates replay ∧ capacity ≤ Greatest.rank later (s.candidates replay) e) :=
    gone_iff hs₁ hpayload (by rw [hs'])
  have hkept : s'.replayEntries.filter (·.tenantId = replay.tenantId) =
      (s.candidates replay).filter fun e =>
        Greatest.rank later (s.candidates replay) e < capacity := by
    rw [hs', List.filter_filter, ← hcompeting, competing, List.filter_filter]
    refine List.filter_congr fun e _ => ?_
    by_cases htenant : e.tenantId = replay.tenantId <;> simp [htenant]
  have hcandidates : ((s.candidates replay).map ReplayRecord.key).Nodup := by
    rw [candidates, List.map_append, List.nodup_append]
    refine ⟨hkeys.unique.sublist (List.filter_sublist.map _), List.nodup_singleton _, ?_⟩
    intro key hkey _ hnew heq
    obtain ⟨e, he, rfl⟩ := List.mem_map.1 hkey
    rw [List.map_singleton, List.mem_singleton] at hnew
    simp only [List.mem_filter, Bool.and_eq_true, decide_eq_true_eq] at he
    exact he.2.2 (heq.trans hnew)
  have htenants : ∀ e ∈ s.candidates replay, e.tenantId = replay.tenantId := by
    intro e he
    rw [← hcompeting] at he
    exact (mem_competing.1 he).2
  refine ⟨hkept, ?_, fun p => ?_, hkeys', ?_, ?_, ?_⟩
  · rw [hkept]
    exact Greatest.length_filter_rank hcandidates.of_map fun a ha b hb =>
      eq_of_later hcandidates ha hb ((htenants a ha).trans (htenants b hb).symm)
  · have hpayloads : p ∈ s'.payloads ↔ (p ∈ s.payloads ∧ ∀ e ∈ s.replayEntries,
        ¬(e.key = replay.key ∧ e.refersTo p = true)) ∧ ∀ e ∈ s.candidates replay,
          ¬(capacity ≤ Greatest.rank later (s.candidates replay) e ∧ e.refersTo p = true) := by
      rw [hs', hs₁]
      simp only [List.mem_filter, Bool.not_eq_true', List.any_eq_false, Bool.and_eq_true,
        decide_eq_true_eq]
    rw [hpayloads]
    simp only [hgone]
    constructor
    · rintro ⟨⟨hp, hkey⟩, hevicted⟩
      refine ⟨hp, ?_⟩
      rintro ⟨e, ⟨he, hsame⟩ | ⟨he, hrank⟩, hrefers⟩
      · exact hkey e he ⟨hsame, hrefers⟩
      · exact hevicted e he ⟨hrank, hrefers⟩
    · rintro ⟨hp, hnone⟩
      exact ⟨⟨hp, fun e he h => hnone ⟨e, .inl ⟨he, h.1⟩, h.2⟩⟩,
        fun e he h => hnone ⟨e, .inr ⟨he, h.1⟩, h.2⟩⟩
  · rw [hs', hs₁, List.filter_filter, List.filter_append, List.filter_filter]
    have hnew : [replay].filter (fun e => decide (e.tenantId ≠ replay.tenantId) &&
        (decide (e.tenantId ≠ replay.tenantId) ||
          decide (Greatest.rank later (s.candidates replay) e < capacity))) = [] := by simp
    rw [hnew, List.append_nil]
    refine List.filter_congr fun e _ => ?_
    by_cases htenant : e.tenantId = replay.tenantId
    · simp [htenant]
    · have hkey : e.key ≠ replay.key := fun h => htenant (congrArg (·.1) h)
      simp [htenant, hkey]
  · rw [hs', hs₁, List.filter_filter, List.filter_filter]
    refine List.filter_congr fun p _ => ?_
    by_cases htenant : p.tenantId = replay.tenantId
    · simp [htenant]
    · have hforeign : ∀ e : ReplayRecord, e.tenantId = replay.tenantId → e.refersTo p = false := by
        intro e he
        have hne : e.tenantId ≠ p.tenantId := fun h => htenant (h.symm.trans he)
        simp [ReplayRecord.refersTo, hne]
      have hfirst : (s.replayEntries.any fun e => e.key = replay.key && e.refersTo p) = false := by
        rw [List.any_eq_false]
        intro e _ h
        simp only [Bool.and_eq_true, decide_eq_true_eq] at h
        rw [hforeign e (congrArg (·.1) h.1)] at h
        cases h.2
      have hsecond : ((s.candidates replay).any fun e =>
          capacity ≤ Greatest.rank later (s.candidates replay) e && e.refersTo p) = false := by
        rw [List.any_eq_false]
        intro e he h
        simp only [Bool.and_eq_true] at h
        rw [hforeign e (htenants e he)] at h
        cases h.2
      rw [hfirst, hsecond]
      simp
  · rw [hs', hs₁]

/-- Entries of the tenant that share a payload are the same. -/
theorem Accepts.eq_of_ref (h : s.Accepts replay) {e e' : ReplayRecord}
    (he : e ∈ s.replayEntries) (he' : e' ∈ s.replayEntries) (htenant : e.tenantId = replay.tenantId)
    (htenant' : e'.tenantId = replay.tenantId) (href : e.responseRef = e'.responseRef) : e = e' := by
  have hdistinct := (List.nodup_append.1 h.distinct).1
  refine List.inj_on_of_nodup_map hdistinct ?_ ?_ href <;> simp [*]

theorem Accepts.ref_fresh (h : s.Accepts replay) {e : ReplayRecord} (he : e ∈ s.replayEntries)
    (htenant : e.tenantId = replay.tenantId) : e.responseRef ≠ replay.responseRef := by
  refine (List.nodup_append.1 h.distinct).2.2 _ (List.mem_map.2 ⟨e, ?_, rfl⟩) _ (by simp)
  simp [he, htenant]

theorem Accepts.deleteReplay_ok (h : s.Accepts replay) :
    ∃ s₁, s.deleteReplay replay.tenantId replay.applicationId replay.requestId = .ok s₁ := by
  unfold deleteReplay
  dsimp only
  split
  · exact ⟨_, rfl⟩
  · next row hfind =>
    have hrow := List.mem_of_find?_eq_some hfind
    have hkey := List.find?_some hfind
    simp only [Bool.and_eq_true, decide_eq_true_eq] at hkey
    refine ⟨_, deletePayloads_ok fun p _ hwhich e he => ?_⟩
    simp only [removeReplays, List.mem_filter, Bool.not_eq_true', Bool.and_eq_true,
      decide_eq_true_eq] at he hwhich
    by_contra hrefers
    simp only [ReplayRecord.refersTo, Bool.not_eq_false, Bool.and_eq_true, decide_eq_true_eq] at hrefers
    -- the entry that goes is the one that refers to its payload
    obtain rfl := h.eq_of_ref he.1 hrow (hrefers.1.trans hwhich.1) hkey.1.1 (hrefers.2.trans hwhich.2)
    simp [hkey] at he

theorem Accepts.putReplay_ok (h : s.Accepts replay) (hcapacity : 1 ≤ capacity) {s₁ : Store}
    (hs₁ : s₁ = { s with
      replayEntries := s.replayEntries.filter (·.key ≠ replay.key)
      payloads := s.payloads.filter fun p => !s.replayEntries.any fun e =>
        e.key = replay.key && e.refersTo p })
    (hkeys₁ : s₁.ReplayKeys) : ∃ s', s₁.putReplay replay capacity = .ok s' := by
  have hpayload : ∃ p ∈ s₁.payloads, replay.refersTo p = true := by
    obtain ⟨p, hp, hrefers⟩ := h.stored
    refine ⟨p, ?_, hrefers⟩
    rw [hs₁, List.mem_filter]
    refine ⟨hp, ?_⟩
    rw [Bool.not_eq_true', List.any_eq_false]
    intro e he hsame
    simp only [Bool.and_eq_true, decide_eq_true_eq, ReplayRecord.refersTo] at hsame hrefers
    exact h.ref_fresh he (congrArg (·.1) hsame.1) (hsame.2.2.trans hrefers.2.symm)
  have hfresh : replay.key ∉ s₁.replayEntries.map ReplayRecord.key := by
    rw [List.mem_map]
    rintro ⟨e, he, hsame⟩
    rw [hs₁, List.mem_filter] at he
    exact of_decide_eq_true he.2 hsame
  have hinsert : s₁.insertReplay replay =
      .ok { s₁ with replayEntries := s₁.replayEntries ++ [replay] } :=
    insertReplay_ok hfresh (by rw [hs₁]; exact h.interaction) hpayload
  have hwritable : s₁.writable replay.tenantId replay.interactionId = .ok () := by
    rw [hs₁]
    exact h.writable
  have hdistinct : ∀ e ∈ s₁.replayEntries ++ [replay], ∀ e' ∈ s₁.replayEntries ++ [replay],
      e.tenantId = replay.tenantId → e'.tenantId = replay.tenantId →
        e.responseRef = e'.responseRef → e = e' := by
    have hold : ∀ e ∈ s₁.replayEntries, e ∈ s.replayEntries := fun e he => by
      rw [hs₁] at he
      exact List.mem_of_mem_filter he
    intro e he e' he' htenant htenant' href
    rcases List.mem_append.1 he with he | he <;> rcases List.mem_append.1 he' with he' | he'
    · exact h.eq_of_ref (hold e he) (hold e' he') htenant htenant' href
    · rw [List.mem_singleton.1 he'] at href
      exact absurd href (h.ref_fresh (hold e he) htenant)
    · rw [List.mem_singleton.1 he] at href
      exact absurd href.symm (h.ref_fresh (hold e' he') htenant')
    · rw [List.mem_singleton.1 he, List.mem_singleton.1 he']
  have hevicted := @mem_evictable _ capacity replay.tenantId (hkeys₁.insert hfresh hpayload)
  obtain ⟨s', hs'⟩ := @deleteEvicted_ok
    (({ s₁ with replayEntries := s₁.replayEntries ++ [replay] } : Store).removeReplays fun e =>
      e.tenantId = replay.tenantId && (evictable
        { s₁ with replayEntries := s₁.replayEntries ++ [replay] } replay.tenantId capacity).any
          fun old => old.applicationId = e.applicationId && old.requestId = e.requestId)
    replay.tenantId
    (evictable { s₁ with replayEntries := s₁.replayEntries ++ [replay] } replay.tenantId capacity) (by
      intro old hold e he htenant href
      obtain ⟨⟨hold', htenant'⟩, -⟩ := hevicted.1 hold
      rw [removeReplays, List.mem_filter] at he
      -- it would be the evicted entry itself
      obtain rfl : e = old := hdistinct e he.1 old hold' htenant htenant' href
      have hany : ((evictable { s₁ with replayEntries := s₁.replayEntries ++ [replay] } replay.tenantId
          capacity).any fun old => old.applicationId = e.applicationId && old.requestId = e.requestId) =
            true := List.any_eq_true.2 ⟨e, hold, by simp⟩
      simp [htenant, hany] at he)
  refine ⟨s', ?_⟩
  unfold putReplay
  rw [show check (1 ≤ capacity) .invalidReplayCapacity = .ok () from check_eq_ok.2 (by simpa)]
  simp only [Except.ok_bind, hwritable, hinsert]
  exact hs'

/-- **Capacity.** Where the keys of the schema hold, a replacement that succeeds leaves the tenant the
    `capacity` latest of its entries with other keys and the new one, deletes the payloads of the
    entries that go and no others, leaves each entry its payload, and leaves the other tenants alone.
    It succeeds for an entry that can be put. -/
theorem replaceReplay_capacity (hkeys : s.ReplayKeys) (hcapacity : 1 ≤ capacity) :
    (∀ s', s.replaceReplay replay capacity = .ok s' → s.Replaced replay capacity s') ∧
      (s.Accepts replay → ∃ s', s.replaceReplay replay capacity = .ok s') := by
  refine ⟨fun s' h => replaced_of_ok hkeys h, fun haccepts => ?_⟩
  obtain ⟨s₁, hdelete⟩ := haccepts.deleteReplay_ok
  have hs₁ := deleteReplay_eq_ok hkeys.unique hdelete
  obtain ⟨s', hput⟩ := haccepts.putReplay_ok hcapacity hs₁ (deleteReplay_stored hkeys hdelete)
  refine ⟨s', ?_⟩
  unfold replaceReplay
  rw [hdelete]
  exact hput

end Put

/-! A table whose one entry is later than the new one. -/

namespace LateReplay

/-- The sealed answer of a replay. -/
def payload (reference : String) : EncryptedPayload :=
  { reference, tenantId := "acme", interactionId := "i1", field := "replay", nonce := reference
    ciphertext := "c", keyVersion := "k1", expiresAt := 9 }

/-- A replay that was reserved at the moment. -/
def entry (requestId reference : String) (reservedAt : ℤ) : ReplayRecord :=
  { tenantId := "acme", applicationId := "desk", requestId, interactionId := "i1", fingerprint := "f"
    responseRef := reference, reservedAt, expiresAt := 9 }

/-- A store of one interaction with one replay and two sealed answers. -/
def table : Store :=
  { records := [{
      kind := .interactions, tenantId := "acme", recordId := "i1", interactionId := "i1"
      data := .obj [], expiresAt := 9 }]
    payloads := [payload "p1", payload "p2"]
    replayEntries := [entry "r1" "p1" 5] }

theorem table_keys : table.ReplayKeys :=
  ⟨by decide, fun e he => ⟨payload "p1", by simp [table], by
    rw [List.mem_singleton.1 he]
    decide⟩⟩

end LateReplay

open LateReplay in
/-- The new entry is put and evicted at once. -/
theorem late_replay_evicted :
    ∃ s', table.replaceReplay (entry "r2" "p2" 4) 1 = .ok s' ∧
      table.Replaced (entry "r2" "p2" 4) 1 s' := by
  obtain ⟨hok, hput⟩ := @replaceReplay_capacity table (entry "r2" "p2" 4) 1 table_keys le_rfl
  obtain ⟨s', hs'⟩ := hput ⟨rfl, rfl, ⟨payload "p2", by simp [table], by decide⟩, by decide⟩
  exact ⟨s', hs', hok s' hs'⟩

end Store

end Stored

end AdaptiveLlm
