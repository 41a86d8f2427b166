import AdaptiveLlm.Lib.Runs
import AdaptiveLlm.Storage.Persistence

set_option autoImplicit false

/-! # Tombstones

What a deletion leaves behind is said by `PrivacyInv`. A `Write` is a change of the store that
respects the tombstones: nothing is written for an interaction or a subject that has one, and nothing
of another tenant changes. Every transaction is a sequence of them, so here is all that has to be
proved about the invariant.

The evidence that a `Write` carries is always of the same kind: there is no tombstone for what is
written. So the invariant is proved by cases over a few writes and never again by cases over
transactions. `PrivacyInv` itself says what is gone: the payloads, the replays and the references in
the records, for interactions and for all interactions of a subject. -/

namespace AdaptiveLlm

namespace Stored

open Store

/-- The primary key of a record. -/
def RecordRow.key (row : RecordRow) : RecordKind × String × String :=
  (row.kind, row.tenantId, row.recordId)

/-- The columns of an interaction's row agree with its data. -/
structure RecordRow.Keyed (row : RecordRow) : Prop where
  interactionId : row.interactionId = row.recordId
  dataId : interactionIdOf row.data = some row.recordId
  dataSubject : subjectOf row.data = some row.subjectId
  dataTenant : tenantIdOf row.data = some row.tenantId

/-- `clear_refs` on one row. -/
def RecordRow.clear (row : RecordRow) (state : RowState) : RecordRow :=
  { row with data := row.data.erase isRef, state }

theorem interactionIdOf_erase (j : Json) : interactionIdOf (j.erase isRef) = interactionIdOf j := by
  have hname : isRef "interaction_id" = false := by decide
  simp only [interactionIdOf, Json.field_erase isRef hname, Option.bind_map, Function.comp_def,
    Json.str?_erase]

theorem subjectOf_erase (j : Json) : subjectOf (j.erase isRef) = subjectOf j := by
  have hname : isRef "subject_id_pseudonymous" = false := by decide
  simp only [subjectOf, Json.field_erase isRef hname, Option.bind_map, Function.comp_def,
    Json.nullable_str?_erase]

theorem tenantIdOf_erase (j : Json) : tenantIdOf (j.erase isRef) = tenantIdOf j := by
  have hname : isRef "tenant_id" = false := by decide
  simp only [tenantIdOf, Json.field_erase isRef hname, Option.bind_map, Function.comp_def,
    Json.str?_erase]

theorem RecordRow.Keyed.clear {row : RecordRow} (h : row.Keyed) (state : RowState) :
    (row.clear state).Keyed where
  interactionId := h.interactionId
  dataId := (interactionIdOf_erase row.data).trans h.dataId
  dataSubject := (subjectOf_erase row.data).trans h.dataSubject
  dataTenant := (tenantIdOf_erase row.data).trans h.dataTenant

namespace Store

variable {s s' : Store} {tenant id : String}

/-! ## The invariant -/

/-- The interaction has a deletion tombstone. -/
def Tombstoned (s : Store) (tenant id : String) : Prop :=
  (s.getTombstone tenant id).isSome = true

/-- The subject has a tombstone. -/
def SubjectTombstoned (s : Store) (tenant subject : String) : Prop :=
  (s.getSubjectTombstone tenant subject).isSome = true

/-- Nothing of an interaction is left but its records, deleted and without references. -/
structure Gone (s : Store) (tenant id : String) : Prop where
  records : ∀ row ∈ s.records, row.tenantId = tenant → row.interactionId = id →
    row.state = .deleted ∧ row.data.Erased isRef
  payloads : ∀ p ∈ s.payloads, p.tenantId = tenant → p.interactionId ≠ id
  replays : ∀ e ∈ s.replayEntries, e.tenantId = tenant → e.interactionId ≠ id

/-- What holds of records, payloads and tombstones after every operation. -/
structure PrivacyInv (s : Store) : Prop where
  keys : (s.records.map (·.key)).Nodup
  keyed : ∀ row ∈ s.records, row.kind = .interactions → row.Keyed
  gone : ∀ tenant id, s.Tombstoned tenant id → s.Gone tenant id
  /-- A deleted interaction has a tombstone, -/
  deleted : ∀ row ∈ s.records, row.kind = .interactions → row.state = .deleted →
    s.Tombstoned row.tenantId row.recordId
  /-- and one of a deleted subject is deleted. -/
  subjects : ∀ row ∈ s.records, row.kind = .interactions → ∀ subject, row.subjectId = some subject →
    s.SubjectTombstoned row.tenantId subject → row.state = .deleted
  targets : ∀ t ∈ s.subjectTombstones, t.data.targetId = t.targetId

theorem tombstoned_iff :
    s.Tombstoned tenant id ↔ ∃ t ∈ s.deletionTombstones, t.tenantId = tenant ∧ t.targetId = id := by
  simp [Tombstoned, getTombstone]

theorem subjectTombstoned_iff {subject : String} : s.SubjectTombstoned tenant subject ↔
    ∃ t ∈ s.subjectTombstones, t.tenantId = tenant ∧ t.targetId = subject := by
  simp [SubjectTombstoned, getSubjectTombstone]

theorem mem_addTombstone {ts : List Tombstone} {t u : Tombstone} (h : u ∈ addTombstone ts t) :
    u ∈ ts ∨ u = t := by
  unfold addTombstone at h
  split at h
  · exact .inl h
  · simpa using h

theorem subset_addTombstone (ts : List Tombstone) (t : Tombstone) : ts ⊆ addTombstone ts t := by
  unfold addTombstone
  split <;> simp

theorem exists_addTombstone (ts : List Tombstone) (t : Tombstone) :
    ∃ u ∈ addTombstone ts t, u.tenantId = t.tenantId ∧ u.targetId = t.targetId := by
  unfold addTombstone
  split
  · rename_i h
    simpa using h
  · exact ⟨t, by simp, rfl, rfl⟩

theorem PrivacyInv.init : PrivacyInv {} where
  keys := by simp
  keyed := by simp
  gone := fun _ _ h => by simp [Tombstoned, getTombstone] at h
  deleted := by simp
  subjects := by simp
  targets := by simp

/-- Rows of one key are one row. -/
theorem PrivacyInv.row_unique (hinv : PrivacyInv s) {row row' : RecordRow} (hrow : row ∈ s.records)
    (hrow' : row' ∈ s.records) (h : row.key = row'.key) : row = row' :=
  List.inj_on_of_nodup_map hinv.keys hrow hrow' h

/-- An interaction that is not deleted has no tombstone. -/
theorem PrivacyInv.not_tombstoned (hinv : PrivacyInv s) {row : RecordRow} (hrow : row ∈ s.records)
    (hkind : row.kind = .interactions) (hstate : row.state ≠ .deleted) :
    ¬s.Tombstoned row.tenantId row.recordId := fun htomb =>
  hstate ((hinv.gone _ _ htomb).records row hrow rfl (hinv.keyed row hrow hkind).interactionId).1

/-! ## Writes

A write is one change of one table with its evidence. The list is short enough that every invariant
about deletions is proved by cases over it. -/

/-- The changes that respect the tombstones, for one tenant. -/
inductive Write (tenant : String) : Store → Store → Prop
  | insert {s : Store} (row : RecordRow) (tenantId : row.tenantId = tenant)
      (fresh : ∀ r ∈ s.records, r.key ≠ row.key) (active : row.state = .active)
      (writable : ¬s.Tombstoned row.tenantId row.interactionId)
      (interaction : row.kind = .interactions → row.Keyed ∧
        ∀ subject, row.subjectId = some subject → ¬s.SubjectTombstoned row.tenantId subject) :
      Write tenant s { s with records := s.records ++ [row] }
  /-- rows are changed in place, those of an interaction with a tombstone are not -/
  | modify {s : Store} (f : RecordRow → RecordRow) (tenantId : ∀ row, row.tenantId ≠ tenant → f row = row)
      (key : ∀ row, (f row).key = row.key ∧ (f row).interactionId = row.interactionId ∧
        (f row).subjectId = row.subjectId)
      (keyed : ∀ row ∈ s.records, row.kind = .interactions → (f row).Keyed)
      (writable : ∀ row ∈ s.records, s.Tombstoned row.tenantId row.interactionId → f row = row)
      (state : ∀ row ∈ s.records, (f row).state = .deleted → row.state = .deleted) :
      Write tenant s { s with records := s.records.map f }
  | payload {s : Store} (p : EncryptedPayload) (tenantId : p.tenantId = tenant)
      (writable : ¬s.Tombstoned p.tenantId p.interactionId) :
      Write tenant s { s with payloads := s.payloads ++ [p] }
  | replay {s : Store} (e : ReplayRecord) (tenantId : e.tenantId = tenant)
      (writable : ¬s.Tombstoned e.tenantId e.interactionId) :
      Write tenant s { s with replayEntries := s.replayEntries ++ [e] }
  | removePayloads {s : Store} (which : EncryptedPayload → Bool)
      (tenantId : ∀ p, which p = true → p.tenantId = tenant) :
      Write tenant s { s with payloads := s.payloads.filter fun p => !which p }
  | removeReplays {s : Store} (which : ReplayRecord → Bool)
      (tenantId : ∀ e, which e = true → e.tenantId = tenant) :
      Write tenant s (s.removeReplays which)
  /-- a deletion is the only way to a tombstone -/
  | erase {s s' : Store} (id : String) (deletion : DeletionRequest)
      (done : s.erase tenant id deletion = .ok s') : Write tenant s s'
  | tombstoneSubject {s s' : Store} (deletion : DeletionRequest)
      (rows : ∀ row ∈ s.records, row.kind = .interactions → row.tenantId = tenant →
        row.subjectId = some deletion.targetId → row.state = .deleted)
      (done : s.tombstoneSubject tenant deletion = .ok s') : Write tenant s s'
  | events {s : Store} (pendingLimit : ℕ) (events : List (Event String EventData))
      (tenantId : ∀ e ∈ events, e.tenantId = tenant) :
      Write tenant s (s.enqueueEvents pendingLimit events)

/-- Writes of any tenants, one after the other. -/
def Writes : Store → Store → Prop := Relation.ReflTransGen fun s t => ∃ tenant, Write tenant s t

/-! ### The invariant is kept -/

section Keep

variable (hinv : PrivacyInv s)

include hinv

theorem PrivacyInv.insert {row : RecordRow} (hfresh : ∀ r ∈ s.records, r.key ≠ row.key)
    (hactive : row.state = .active) (hwritable : ¬s.Tombstoned row.tenantId row.interactionId)
    (hinteraction : row.kind = .interactions → row.Keyed ∧
      ∀ subject, row.subjectId = some subject → ¬s.SubjectTombstoned row.tenantId subject) :
    PrivacyInv { s with records := s.records ++ [row] } where
  keys := by
    rw [List.map_append, List.map_singleton]
    refine hinv.keys.append (List.nodup_singleton _) (List.disjoint_singleton.2 ?_)
    intro hmem
    obtain ⟨r, hr, hkey⟩ := List.mem_map.1 hmem
    exact hfresh r hr hkey
  keyed := by
    intro r hr hkind
    rcases List.mem_append.1 hr with hr | hr
    · exact hinv.keyed r hr hkind
    · obtain rfl := List.mem_singleton.1 hr
      exact (hinteraction hkind).1
  gone := by
    intro tenant id htomb
    have hgone := hinv.gone tenant id htomb
    refine ⟨?_, hgone.payloads, hgone.replays⟩
    intro r hr htenant hid
    rcases List.mem_append.1 hr with hr | hr
    · exact hgone.records r hr htenant hid
    · obtain rfl := List.mem_singleton.1 hr
      subst htenant hid
      exact absurd htomb hwritable
  deleted := by
    intro r hr hkind hstate
    rcases List.mem_append.1 hr with hr | hr
    · exact hinv.deleted r hr hkind hstate
    · obtain rfl := List.mem_singleton.1 hr
      rw [hactive] at hstate
      cases hstate
  subjects := by
    intro r hr hkind subject hsubject htomb
    rcases List.mem_append.1 hr with hr | hr
    · exact hinv.subjects r hr hkind subject hsubject htomb
    · obtain rfl := List.mem_singleton.1 hr
      exact absurd htomb ((hinteraction hkind).2 subject hsubject)
  targets := hinv.targets

theorem PrivacyInv.modify {f : RecordRow → RecordRow}
    (hkey : ∀ row, (f row).key = row.key ∧ (f row).interactionId = row.interactionId ∧
      (f row).subjectId = row.subjectId)
    (hkeyed : ∀ row ∈ s.records, row.kind = .interactions → (f row).Keyed)
    (hwritable : ∀ row ∈ s.records, s.Tombstoned row.tenantId row.interactionId → f row = row)
    (hstate : ∀ row ∈ s.records, (f row).state = .deleted → row.state = .deleted) :
    PrivacyInv { s with records := s.records.map f } := by
  have hcols (row : RecordRow) : (f row).kind = row.kind ∧ (f row).tenantId = row.tenantId ∧
      (f row).recordId = row.recordId := by
    simpa [RecordRow.key] using (hkey row).1
  constructor
  case keys =>
    have hsame : RecordRow.key ∘ f = RecordRow.key := funext fun row => (hkey row).1
    rw [List.map_map, hsame]
    exact hinv.keys
  case keyed =>
    rintro r hr hkind
    obtain ⟨row, hrow, rfl⟩ := List.mem_map.1 hr
    exact hkeyed row hrow ((hcols row).1 ▸ hkind)
  case gone =>
    intro tenant id htomb
    have hgone := hinv.gone tenant id htomb
    refine ⟨?_, hgone.payloads, hgone.replays⟩
    rintro r hr htenant hid
    obtain ⟨row, hrow, rfl⟩ := List.mem_map.1 hr
    rw [(hcols row).2.1] at htenant
    rw [(hkey row).2.1] at hid
    subst htenant hid
    rw [hwritable row hrow htomb]
    exact hgone.records row hrow rfl rfl
  case deleted =>
    rintro r hr hkind hdeleted
    obtain ⟨row, hrow, rfl⟩ := List.mem_map.1 hr
    rw [(hcols row).2.1, (hcols row).2.2]
    exact hinv.deleted row hrow ((hcols row).1 ▸ hkind) (hstate row hrow hdeleted)
  case subjects =>
    rintro r hr hkind subject hsubject htomb
    obtain ⟨row, hrow, rfl⟩ := List.mem_map.1 hr
    rw [(hcols row).1] at hkind
    rw [(hkey row).2.2] at hsubject
    rw [(hcols row).2.1] at htomb
    have hdeleted := hinv.subjects row hrow hkind subject hsubject htomb
    -- a deleted interaction has a tombstone, so its row stays
    have hid := (hinv.keyed row hrow hkind).interactionId
    rw [hwritable row hrow (hid ▸ hinv.deleted row hrow hkind hdeleted)]
    exact hdeleted
  case targets => exact hinv.targets

theorem PrivacyInv.payloads {payloads : List EncryptedPayload}
    (h : ∀ p ∈ payloads, p ∈ s.payloads ∨ ¬s.Tombstoned p.tenantId p.interactionId) :
    PrivacyInv { s with payloads } where
  keys := hinv.keys
  keyed := hinv.keyed
  gone := by
    intro tenant id htomb
    have hgone := hinv.gone tenant id htomb
    refine ⟨hgone.records, ?_, hgone.replays⟩
    rintro p hp rfl rfl
    rcases h p hp with hp | hp
    · exact hgone.payloads p hp rfl rfl
    · exact hp htomb
  deleted := hinv.deleted
  subjects := hinv.subjects
  targets := hinv.targets

theorem PrivacyInv.replayEntries {replayEntries : List ReplayRecord}
    (h : ∀ e ∈ replayEntries, e ∈ s.replayEntries ∨ ¬s.Tombstoned e.tenantId e.interactionId) :
    PrivacyInv { s with replayEntries } where
  keys := hinv.keys
  keyed := hinv.keyed
  gone := by
    intro tenant id htomb
    have hgone := hinv.gone tenant id htomb
    refine ⟨hgone.records, hgone.payloads, ?_⟩
    rintro e he rfl rfl
    rcases h e he with he | he
    · exact hgone.replays e he rfl rfl
    · exact he htomb
  deleted := hinv.deleted
  subjects := hinv.subjects
  targets := hinv.targets

theorem PrivacyInv.outbox {outbox : List (OutboxRow String EventData)} :
    PrivacyInv { s with outbox } :=
  ⟨hinv.keys, hinv.keyed, fun tenant id htomb =>
    let hgone := hinv.gone tenant id htomb
    ⟨hgone.records, hgone.payloads, hgone.replays⟩, hinv.deleted, hinv.subjects, hinv.targets⟩

end Keep

/-! ### Deletions -/

theorem deletePayloads_eq_ok {which : EncryptedPayload → Bool} (h : s.deletePayloads which = .ok s') :
    s' = { s with payloads := s.payloads.filter fun p => !which p } := by
  obtain ⟨_, -, h⟩ := Except.bind_eq_ok.1 h
  cases h
  rfl

theorem erase_eq_ok {deletion : DeletionRequest} (h : s.erase tenant id deletion = .ok s') :
    s' = { s with
      records := s.records.map fun row =>
        if row.tenantId = tenant ∧ row.interactionId = id then row.clear .deleted else row
      payloads := s.payloads.filter fun p => !(p.tenantId = tenant && p.interactionId = id)
      replayEntries := s.replayEntries.filter fun e => !(e.tenantId = tenant && e.interactionId = id)
      deletionTombstones := addTombstone s.deletionTombstones ⟨tenant, id, deletion⟩ } := by
  rw [deletePayloads_eq_ok h]
  simp [clearRefs, tombstone, RecordRow.clear]

theorem erase_tombstoned {deletion : DeletionRequest} (h : s.erase tenant id deletion = .ok s')
    {tenant' id' : String} :
    s'.Tombstoned tenant' id' ↔ s.Tombstoned tenant' id' ∨ tenant' = tenant ∧ id' = id := by
  rw [erase_eq_ok h, tombstoned_iff, tombstoned_iff]
  constructor
  · rintro ⟨t, ht, rfl, rfl⟩
    rcases mem_addTombstone ht with ht | rfl
    · exact .inl ⟨t, ht, rfl, rfl⟩
    · exact .inr ⟨rfl, rfl⟩
  · rintro (⟨t, ht, rfl, rfl⟩ | ⟨rfl, rfl⟩)
    · exact ⟨t, subset_addTombstone _ _ ht, rfl, rfl⟩
    · exact exists_addTombstone s.deletionTombstones ⟨tenant', id', deletion⟩

/-- A record after a deletion is one from before, which is cleared if it is of the interaction. -/
theorem erase_records {deletion : DeletionRequest} (h : s.erase tenant id deletion = .ok s')
    {r : RecordRow} (hr : r ∈ s'.records) : ∃ row ∈ s.records,
      row.tenantId = tenant ∧ row.interactionId = id ∧ r = row.clear .deleted ∨
      ¬(row.tenantId = tenant ∧ row.interactionId = id) ∧ r = row := by
  rw [erase_eq_ok h] at hr
  obtain ⟨row, hrow, rfl⟩ := List.mem_map.1 hr
  refine ⟨row, hrow, ?_⟩
  split
  · rename_i hmatch
    exact .inl ⟨hmatch.1, hmatch.2, rfl⟩
  · rename_i hmatch
    exact .inr ⟨hmatch, rfl⟩

theorem PrivacyInv.erase (hinv : PrivacyInv s) {deletion : DeletionRequest}
    (h : s.erase tenant id deletion = .ok s') : PrivacyInv s' := by
  have hsubjects : s'.subjectTombstones = s.subjectTombstones := by rw [erase_eq_ok h]
  constructor
  case keys =>
    have hkeys : s'.records.map (·.key) = s.records.map (·.key) := by
      rw [erase_eq_ok h, List.map_map]
      refine List.map_congr_left fun row _ => ?_
      simp only [Function.comp_apply]
      split <;> rfl
    rw [hkeys]
    exact hinv.keys
  case keyed =>
    intro r hr hkind
    obtain ⟨row, hrow, ⟨-, -, rfl⟩ | ⟨-, rfl⟩⟩ := erase_records h hr
    · exact (hinv.keyed row hrow hkind).clear .deleted
    · exact hinv.keyed r hrow hkind
  case gone =>
    intro tenant' id' htomb
    rw [erase_tombstoned h] at htomb
    constructor
    case records =>
      intro r hr htenant hid
      obtain ⟨row, hrow, ⟨-, -, rfl⟩ | ⟨hother, rfl⟩⟩ := erase_records h hr
      · exact ⟨rfl, Json.erased_erase isRef row.data⟩
      · subst htenant hid
        exact (hinv.gone _ _ (htomb.resolve_right hother)).records r hrow rfl rfl
    case payloads =>
      rintro p hp rfl rfl
      rw [erase_eq_ok h, List.mem_filter] at hp
      rcases htomb with htomb | ⟨rfl, rfl⟩
      · exact (hinv.gone _ _ htomb).payloads p hp.1 rfl rfl
      · simp at hp
    case replays =>
      rintro e he rfl rfl
      rw [erase_eq_ok h, List.mem_filter] at he
      rcases htomb with htomb | ⟨rfl, rfl⟩
      · exact (hinv.gone _ _ htomb).replays e he.1 rfl rfl
      · simp at he
  case deleted =>
    intro r hr hkind hstate
    rw [erase_tombstoned h]
    obtain ⟨row, hrow, ⟨htenant, hid, rfl⟩ | ⟨-, rfl⟩⟩ := erase_records h hr
    · exact .inr ⟨htenant, (hinv.keyed row hrow hkind).interactionId ▸ hid⟩
    · exact .inl (hinv.deleted r hrow hkind hstate)
  case subjects =>
    intro r hr hkind subject hsubject htomb
    rw [subjectTombstoned_iff, hsubjects, ← subjectTombstoned_iff] at htomb
    obtain ⟨row, hrow, ⟨-, -, rfl⟩ | ⟨-, rfl⟩⟩ := erase_records h hr
    · rfl
    · exact hinv.subjects r hrow hkind subject hsubject htomb
  case targets =>
    rw [hsubjects]
    exact hinv.targets

theorem tombstoneSubject_eq_ok {deletion : DeletionRequest}
    (h : s.tombstoneSubject tenant deletion = .ok s') :
    s' = { s with
      subjectTombstones := addTombstone s.subjectTombstones ⟨tenant, deletion.targetId, deletion⟩ } := by
  obtain ⟨_, -, h⟩ := Except.bind_eq_ok.1 h
  cases h
  rfl

theorem PrivacyInv.tombstoneSubject (hinv : PrivacyInv s) {deletion : DeletionRequest}
    (hrows : ∀ row ∈ s.records, row.kind = .interactions → row.tenantId = tenant →
      row.subjectId = some deletion.targetId → row.state = .deleted)
    (h : s.tombstoneSubject tenant deletion = .ok s') : PrivacyInv s' := by
  rw [tombstoneSubject_eq_ok h]
  refine ⟨hinv.keys, hinv.keyed, fun tenant' id' htomb => ?_, hinv.deleted, ?_, ?_⟩
  · have hgone := hinv.gone tenant' id' htomb
    exact ⟨hgone.records, hgone.payloads, hgone.replays⟩
  · intro row hrow hkind subject hsubject htomb
    obtain ⟨t, ht, htenant, htarget⟩ := subjectTombstoned_iff.1 htomb
    rcases mem_addTombstone ht with ht | rfl
    · exact hinv.subjects row hrow hkind subject hsubject
        (subjectTombstoned_iff.2 ⟨t, ht, htenant, htarget⟩)
    · subst htarget
      exact hrows row hrow hkind htenant.symm hsubject
  · intro t ht
    rcases mem_addTombstone ht with ht | rfl
    · exact hinv.targets t ht
    · rfl

/-- **Every write keeps the invariant.** -/
theorem Write.keeps (h : Write tenant s s') (hinv : PrivacyInv s) : PrivacyInv s' := by
  cases h with
  | insert row _ hfresh hactive hwritable hinteraction =>
    exact hinv.insert hfresh hactive hwritable hinteraction
  | modify f _ hkey hkeyed hwritable hstate => exact hinv.modify hkey hkeyed hwritable hstate
  | payload p _ hwritable =>
    refine hinv.payloads fun q hq => ?_
    rcases List.mem_append.1 hq with hq | hq
    · exact .inl hq
    · obtain rfl := List.mem_singleton.1 hq
      exact .inr hwritable
  | replay e _ hwritable =>
    refine hinv.replayEntries fun e' he' => ?_
    rcases List.mem_append.1 he' with he' | he'
    · exact .inl he'
    · obtain rfl := List.mem_singleton.1 he'
      exact .inr hwritable
  | removePayloads which _ => exact hinv.payloads fun p hp => .inl (List.mem_of_mem_filter hp)
  | removeReplays which _ => exact hinv.replayEntries fun e he => .inl (List.mem_of_mem_filter he)
  | erase id deletion done => exact hinv.erase done
  | tombstoneSubject deletion hrows done => exact hinv.tombstoneSubject hrows done
  | events pendingLimit events _ => exact hinv.outbox

theorem Writes.keeps (h : Writes s s') (hinv : PrivacyInv s) : PrivacyInv s' :=
  Runs.reflTransGen_of_invariant (fun _ _ hinv ⟨_, hwrite⟩ => hwrite.keeps hinv) hinv h

/-! ### Other tenants -/

/-- The rows of one tenant. -/
def rowsOf (s : Store) (tenant : String) : Store where
  records := s.records.filter (·.tenantId = tenant)
  payloads := s.payloads.filter (·.tenantId = tenant)
  replayEntries := s.replayEntries.filter (·.tenantId = tenant)
  deletionTombstones := s.deletionTombstones.filter (·.tenantId = tenant)
  subjectTombstones := s.subjectTombstones.filter (·.tenantId = tenant)
  outbox := s.outbox.filter (·.event.tenantId = tenant)

section Frame

variable {α : Type} {p : α → Bool}

theorem filter_append_of_not (as : List α) {bs : List α} (h : ∀ b ∈ bs, p b = false) :
    (as ++ bs).filter p = as.filter p := by
  have hnone : bs.filter p = [] := List.filter_eq_nil_iff.2 (by simpa using h)
  rw [List.filter_append, hnone, List.append_nil]

theorem filter_filter_of_imp {q : α → Bool} (as : List α) (h : ∀ a, p a = true → q a = true) :
    (as.filter q).filter p = as.filter p := by
  rw [List.filter_filter]
  refine List.filter_congr fun a _ => ?_
  rw [Bool.and_eq_left_iff_imp]
  exact h a

theorem filter_map_of_fixed {f : α → α} (as : List α) (hp : ∀ a, p (f a) = p a)
    (h : ∀ a, p a = true → f a = a) : (as.map f).filter p = as.filter p := by
  have hsame : p ∘ f = p := funext hp
  rw [List.filter_map, hsame]
  refine (List.map_congr_left fun a ha => ?_).trans (List.map_id _)
  exact h a (List.mem_filter.1 ha).2

theorem addTombstone_filter (ts : List Tombstone) {t : Tombstone} {other : String}
    (h : t.tenantId ≠ other) :
    (addTombstone ts t).filter (·.tenantId = other) = ts.filter (·.tenantId = other) := by
  unfold addTombstone
  split
  · rfl
  · exact filter_append_of_not ts (by simpa using h)

end Frame

/-- **A write changes no row of another tenant.** -/
theorem Write.rowsOf (h : Write tenant s s') {other : String} (hother : other ≠ tenant) :
    s'.rowsOf other = s.rowsOf other := by
  cases h with
  | insert row htenant =>
    have hrow : row.tenantId ≠ other := htenant ▸ hother.symm
    simp only [Store.rowsOf, filter_append_of_not s.records
      (by simpa using hrow : ∀ r ∈ [row], decide (r.tenantId = other) = false)]
  | modify f htenant hkey =>
    have hcol (row : RecordRow) : (f row).tenantId = row.tenantId :=
      congrArg (fun key => key.2.1) (hkey row).1
    simp only [Store.rowsOf]
    rw [filter_map_of_fixed]
    · simp [hcol]
    · intro row hrow
      refine htenant row ?_
      rw [of_decide_eq_true hrow]
      exact hother
  | payload p htenant =>
    have hrow : p.tenantId ≠ other := htenant ▸ hother.symm
    simp only [Store.rowsOf, filter_append_of_not s.payloads
      (by simpa using hrow : ∀ r ∈ [p], decide (r.tenantId = other) = false)]
  | replay e htenant =>
    have hrow : e.tenantId ≠ other := htenant ▸ hother.symm
    simp only [Store.rowsOf, filter_append_of_not s.replayEntries
      (by simpa using hrow : ∀ r ∈ [e], decide (r.tenantId = other) = false)]
  | removePayloads which htenant =>
    simp only [Store.rowsOf]
    rw [filter_filter_of_imp]
    intro p hp
    by_contra hwhich
    exact hother ((of_decide_eq_true hp).symm.trans (htenant p (by simpa using hwhich)))
  | removeReplays which htenant =>
    simp only [Store.rowsOf, Store.removeReplays]
    rw [filter_filter_of_imp]
    intro e he
    by_contra hwhich
    exact hother ((of_decide_eq_true he).symm.trans (htenant e (by simpa using hwhich)))
  | erase id deletion done =>
    rw [erase_eq_ok done]
    simp only [Store.rowsOf, addTombstone_filter s.deletionTombstones
      (t := ⟨tenant, id, deletion⟩) hother.symm]
    rw [filter_map_of_fixed, filter_filter_of_imp, filter_filter_of_imp]
    · grind
    · grind
    · grind [RecordRow.clear]
    · grind
  | tombstoneSubject deletion _ done =>
    rw [tombstoneSubject_eq_ok done]
    simp only [Store.rowsOf, addTombstone_filter s.subjectTombstones
      (t := ⟨tenant, deletion.targetId, deletion⟩) hother.symm]
  | events pendingLimit events htenant =>
    obtain ⟨kept, hkept, houtbox⟩ := enqueue_append pendingLimit s.outbox events
    simp only [Store.rowsOf, enqueueEvents, houtbox]
    rw [filter_append_of_not]
    intro row hrow
    obtain ⟨e, he, rfl⟩ := List.mem_map.1 hrow
    simpa [htenant e (hkept he)] using hother.symm

end Store

end Stored

end AdaptiveLlm
