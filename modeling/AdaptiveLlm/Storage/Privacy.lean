import AdaptiveLlm.Gateway.Feedback
import AdaptiveLlm.Storage.Tombstones

set_option autoImplicit false

/-! # Transactions respect the tombstones

Every method of the store that succeeds is a `Write`, or several, because it asks `writable` in its own
transaction; so is every transaction of the persistence, the feedback service and the retention sweep.
A run is any list of calls, in which a failed call leaves the store as it was.

The transactions are taken apart into writes once, here. A method that writes for an interaction has
asked whether it has a tombstone, and this answer is the evidence its write carries. Deletions of a
subject go over its interactions one by one in the source, with the tombstone of the subject first;
so that each of them is a write as well, the order of the two is exchanged, which makes no
difference to the store at the end. -/

namespace AdaptiveLlm

namespace Stored

namespace Store

variable {s s' : Store} {tenant id : String}

/-- Writes of one tenant, one after the other. -/
abbrev TenantWrites (tenant : String) : Store → Store → Prop :=
  Relation.ReflTransGen (Write tenant)

theorem TenantWrites.writes (h : TenantWrites tenant s s') : Writes s s' :=
  Relation.ReflTransGen.mono (fun _ _ hwrite => ⟨tenant, hwrite⟩) _ _ h

theorem TenantWrites.keeps (h : TenantWrites tenant s s') (hinv : PrivacyInv s) : PrivacyInv s' :=
  h.writes.keeps hinv

theorem TenantWrites.rowsOf (h : TenantWrites tenant s s') {other : String}
    (hother : other ≠ tenant) : s'.rowsOf other = s.rowsOf other := by
  induction h with
  | refl => rfl
  | tail _ hwrite ih => exact (hwrite.rowsOf hother).trans ih

theorem Writes.trans {t : Store} (h : Writes s t) (h' : Writes t s') : Writes s s' :=
  Relation.ReflTransGen.trans h h'

theorem Write.writes (h : Write tenant s s') : Writes s s' :=
  TenantWrites.writes (.single h)

/-! ## Reading -/

theorem writable_eq_ok {u : Unit} (h : s.writable tenant id = .ok u) : ¬s.Tombstoned tenant id := by
  obtain ⟨_, hcheck, -⟩ := Except.bind_eq_ok.1 h
  have hnone := check_eq_ok.1 hcheck
  simpa [Tombstoned] using hnone

theorem interactionRow_eq_some {row : RecordRow} (h : s.interactionRow tenant id = some row) :
    row ∈ s.records ∧ row.kind = .interactions ∧ row.tenantId = tenant ∧ row.recordId = id := by
  have hmatch := List.find?_some h
  simp only [Bool.and_eq_true, decide_eq_true_eq] at hmatch
  exact ⟨List.mem_of_find?_eq_some h, hmatch.1.1, hmatch.1.2, hmatch.2⟩

/-- The row of an interaction is stored, with the tenant and the subject it says. -/
def Holds (s : Store) (tenant : String) (interaction : Interaction) : Prop :=
  ∃ row ∈ s.records, row.kind = .interactions ∧ row.tenantId = tenant ∧
    row.recordId = interaction.interactionId ∧ row.subjectId = interaction.subjectIdPseudonymous ∧
    row.tenantId = interaction.tenantId

theorem Holds.mono {interaction : Interaction} (h : s.Holds tenant interaction)
    (hsub : s.records ⊆ s'.records) : s'.Holds tenant interaction := by
  obtain ⟨row, hrow, hfacts⟩ := h
  exact ⟨row, hsub hrow, hfacts⟩

/-- A stored interaction stays, with its tenant and subject. -/
theorem Write.holds {other : String} (h : Write other s s') {interaction : Interaction}
    (hholds : s.Holds tenant interaction) : s'.Holds tenant interaction := by
  obtain ⟨row, hrow, hkind, htenant, hid, hsubject, hnames⟩ := hholds
  have hsame : s'.records = s.records → s'.Holds tenant interaction := fun hrecords =>
    ⟨row, hrecords ▸ hrow, hkind, htenant, hid, hsubject, hnames⟩
  cases h with
  | insert row' =>
    exact ⟨row, List.mem_append_left _ hrow, hkind, htenant, hid, hsubject, hnames⟩
  | modify f _ hkey =>
    obtain ⟨hkeyRow, -, hsubjectRow⟩ := hkey row
    simp only [RecordRow.key, Prod.mk.injEq] at hkeyRow
    obtain ⟨hkind', htenant', hid'⟩ := hkeyRow
    exact ⟨f row, List.mem_map_of_mem hrow, hkind'.trans hkind, htenant'.trans htenant,
      hid'.trans hid, hsubjectRow.trans hsubject, htenant'.trans hnames⟩
  | erase id deletion done =>
    rw [erase_eq_ok done]
    refine ⟨_, List.mem_map_of_mem hrow, ?_⟩
    split <;> exact ⟨hkind, htenant, hid, hsubject, hnames⟩
  | tombstoneSubject deletion _ done => exact hsame (by rw [tombstoneSubject_eq_ok done])
  | payload | replay | removePayloads | removeReplays | events => exact hsame rfl

theorem Writes.holds (h : Writes s s') {interaction : Interaction}
    (hholds : s.Holds tenant interaction) : s'.Holds tenant interaction := by
  have hkeep : ∀ s s' : Store, s.Holds tenant interaction → (∃ other, Write other s s') →
      s'.Holds tenant interaction := fun _ _ hholds ⟨_, hwrite⟩ => hwrite.holds hholds
  exact Runs.reflTransGen_of_invariant hkeep hholds h

/-- What a row's data says, its columns say. -/
theorem PrivacyInv.ofJson_row (hinv : PrivacyInv s) {row : RecordRow} (hrow : row ∈ s.records)
    (hkind : row.kind = .interactions) {interaction : Interaction}
    (h : Interaction.ofJson row.data = some interaction) :
    row.recordId = interaction.interactionId ∧ row.subjectId = interaction.subjectIdPseudonymous ∧
      row.tenantId = interaction.tenantId := by
  obtain ⟨hid, hsubject, htenant⟩ := Interaction.ofJson_eq_some h
  have hkeyed := hinv.keyed row hrow hkind
  exact ⟨Option.some_injective _ (hkeyed.dataId.symm.trans hid),
    Option.some_injective _ (hkeyed.dataSubject.symm.trans hsubject),
    Option.some_injective _ (hkeyed.dataTenant.symm.trans htenant)⟩

theorem getInteraction_holds (hinv : PrivacyInv s) {interaction : Interaction}
    (h : s.getInteraction tenant id = .ok (some interaction)) :
    interaction.interactionId = id ∧ s.Holds tenant interaction := by
  unfold getInteraction at h
  split at h
  · cases h
  rename_i row hfound
  split at h
  · cases h
  rename_i i hparse
  cases h
  obtain ⟨hrow, hkind, htenant, hid⟩ := interactionRow_eq_some hfound
  obtain ⟨hid', hfacts⟩ := hinv.ofJson_row hrow hkind hparse
  exact ⟨hid'.symm.trans hid, row, hrow, hkind, htenant, hid', hfacts⟩

theorem parseAll_eq_ok {rows : List RecordRow} {interactions : List Interaction}
    (h : parseAll rows = .ok interactions) :
    (∀ row ∈ rows, ∃ i ∈ interactions, Interaction.ofJson row.data = some i) ∧
      ∀ i ∈ interactions, ∃ row ∈ rows, Interaction.ofJson row.data = some i := by
  unfold parseAll at h
  split at h
  · cases h
  rename_i is hmap
  cases h
  clear * - hmap
  induction rows generalizing interactions with
  | nil =>
    obtain rfl : interactions = [] := by simpa using hmap.symm
    simp
  | cons row rows ih =>
    rw [List.mapM_cons] at hmap
    simp only [Option.bind_eq_bind, Option.bind_eq_some_iff] at hmap
    obtain ⟨i, hi, is, his, hcons⟩ := hmap
    obtain rfl : i :: is = interactions := by simpa using hcons
    obtain ⟨hforward, hback⟩ := ih his
    constructor
    · intro r hr
      rcases List.mem_cons.1 hr with rfl | hr
      · exact ⟨i, List.mem_cons_self, hi⟩
      · obtain ⟨j, hj, hparse⟩ := hforward r hr
        exact ⟨j, List.mem_cons_of_mem _ hj, hparse⟩
    · intro j hj
      rcases List.mem_cons.1 hj with rfl | hj
      · exact ⟨row, List.mem_cons_self, hi⟩
      · obtain ⟨r, hr, hparse⟩ := hback j hj
        exact ⟨r, List.mem_cons_of_mem _ hr, hparse⟩

/-! ## Methods of the store -/

theorem put_eq_ok {record : StoredRecord} {expires : ℤ} (h : s.put tenant record expires = .ok s') :
    Write tenant s s' ∧ s' = { s with records := s.records ++ [rowOf tenant expires record] } := by
  obtain ⟨_, hwritable, h⟩ := Except.bind_eq_ok.1 h
  obtain ⟨_, hcheck, h⟩ := Except.bind_eq_ok.1 h
  obtain ⟨_, hfresh, h⟩ := Except.bind_eq_ok.1 h
  obtain ⟨_, -, h⟩ := Except.bind_eq_ok.1 h
  cases h
  refine ⟨.insert (rowOf tenant expires record) rfl ?_ rfl (writable_eq_ok hwritable) ?_, rfl⟩
  · intro r hr hkey
    have hnone := check_eq_ok.1 hfresh
    simp only [Bool.not_eq_true', List.any_eq_false] at hnone
    exact hnone r hr (by simpa [RecordRow.key, and_assoc] using hkey)
  · intro hkind
    cases record with
    | interaction i =>
      obtain ⟨_, htenant, hsubject⟩ := Except.bind_eq_ok.1 hcheck
      have hnone := check_eq_ok.1 hsubject
      have htenant : i.tenantId = tenant := by simpa using check_eq_ok.1 htenant
      refine ⟨⟨rfl, interactionIdOf_toJson i, subjectOf_toJson i, htenant ▸ tenantIdOf_toJson i⟩, ?_⟩
      intro subject hi
      have hi : i.subjectIdPseudonymous = some subject := hi
      simpa [hi, SubjectTombstoned, rowOf] using hnone
    | _ => cases hkind

theorem putPayload_eq_ok {p : EncryptedPayload} (h : s.putPayload p = .ok s') :
    Write p.tenantId s s' ∧ s'.records = s.records := by
  obtain ⟨_, hwritable, h⟩ := Except.bind_eq_ok.1 h
  obtain ⟨_, -, h⟩ := Except.bind_eq_ok.1 h
  obtain ⟨_, -, h⟩ := Except.bind_eq_ok.1 h
  cases h
  exact ⟨.payload p rfl (writable_eq_ok hwritable), rfl⟩

theorem deletePayloads_write {which : EncryptedPayload → Bool}
    (htenant : ∀ p, which p = true → p.tenantId = tenant) (h : s.deletePayloads which = .ok s') :
    Write tenant s s' := by
  rw [deletePayloads_eq_ok h]
  exact .removePayloads which htenant

theorem updateInteraction_write (hinv : PrivacyInv s) (interaction : Interaction)
    (hholds : s.Holds tenant interaction) (hwritable : ¬s.Tombstoned tenant interaction.interactionId) :
    Write tenant s (s.updateInteraction tenant interaction.interactionId interaction) := by
  obtain ⟨found, hfound, hkind, htenant, hid, hsubject, htenantId⟩ := hholds
  -- the row that is changed is the row that was read
  have hrow {row : RecordRow} (hmem : row ∈ s.records) (hkey : row.kind = .interactions ∧
      row.tenantId = tenant ∧ row.recordId = interaction.interactionId) : row = found := by
    refine hinv.row_unique hmem hfound ?_
    simp [RecordRow.key, hkey, hkind, htenant, hid]
  refine .modify _ ?_ ?_ ?_ ?_ ?_
  · intro row hne
    simp [hne]
  · intro row
    split <;> exact ⟨rfl, rfl, rfl⟩
  · intro row hmem hinteraction
    have hkeyed := hinv.keyed row hmem hinteraction
    split
    · rename_i hmatch
      simp only [Bool.and_eq_true, decide_eq_true_eq, and_assoc] at hmatch
      obtain rfl := hrow hmem hmatch
      refine ⟨hkeyed.interactionId, ?_, ?_, ?_⟩
      · exact (interactionIdOf_toJson interaction).trans (congrArg some hid.symm)
      · exact (subjectOf_toJson interaction).trans (congrArg some hsubject.symm)
      · exact (tenantIdOf_toJson interaction).trans (congrArg some htenantId.symm)
    · exact hkeyed
  · intro row hmem htomb
    rw [if_neg]
    intro hmatch
    simp only [Bool.and_eq_true, decide_eq_true_eq, and_assoc] at hmatch
    rw [(hinv.keyed row hmem hmatch.1).interactionId, hmatch.2.1, hmatch.2.2] at htomb
    exact hwritable htomb
  · intro row _
    split <;> exact fun h => h

theorem addShadowCost_writes (hinv : PrivacyInv s) {costMicros : ℕ}
    (h : s.addShadowCost tenant id costMicros = .ok s') : TenantWrites tenant s s' := by
  obtain ⟨_, hwritable, h⟩ := Except.bind_eq_ok.1 h
  obtain ⟨found, hfound, h⟩ := Except.bind_eq_ok.1 h
  split at h
  · cases h
    exact .refl
  · rename_i record
    cases h
    obtain ⟨rfl, hholds⟩ := getInteraction_holds hinv hfound
    exact .single (updateInteraction_write hinv
      { record with shadowCostMicros := record.shadowCostMicros + costMicros } hholds
      (writable_eq_ok hwritable))

theorem appendFeedback_write (hinv : PrivacyInv s) {interaction : Interaction} {feedbackId : String}
    (hholds : s.Holds tenant interaction) (h : s.appendFeedback tenant interaction feedbackId = .ok s') :
    Write tenant s s' := by
  obtain ⟨_, hwritable, h⟩ := Except.bind_eq_ok.1 h
  cases h
  exact updateInteraction_write hinv
    { interaction with feedbackIds := interaction.feedbackIds ++ [feedbackId] } hholds
    (writable_eq_ok hwritable)

/-! ### Replays -/

theorem deleteReplayPayload_write {reference : String}
    (h : s.deleteReplayPayload tenant reference = .ok s') : Write tenant s s' :=
  deletePayloads_write (by simp +contextual) h

theorem deleteReplay_writes {applicationId requestId : String}
    (h : s.deleteReplay tenant applicationId requestId = .ok s') : TenantWrites tenant s s' := by
  unfold deleteReplay at h
  dsimp only at h
  split at h
  · cases h
    exact .single (.removeReplays _ (by simp +contextual))
  · exact .tail (.single (.removeReplays _ (by simp +contextual))) (deleteReplayPayload_write h)

theorem expireReplays_writes {now : ℤ} (h : s.expireReplays tenant now = .ok s') :
    TenantWrites tenant s s' := by
  unfold expireReplays at h
  refine Except.foldlM_reflTransGen _ ?_ h
  intro e _ t t' hstep
  exact deleteReplay_writes hstep

theorem insertReplay_write {e : ReplayRecord} (hwritable : ¬s.Tombstoned e.tenantId e.interactionId)
    (h : s.insertReplay e = .ok s') : Write e.tenantId s s' := by
  obtain ⟨_, -, h⟩ := Except.bind_eq_ok.1 h
  obtain ⟨_, -, h⟩ := Except.bind_eq_ok.1 h
  obtain ⟨_, -, h⟩ := Except.bind_eq_ok.1 h
  cases h
  exact .replay e rfl hwritable

theorem putReplay_writes {replay : ReplayRecord} {capacity : ℕ}
    (h : s.putReplay replay capacity = .ok s') : TenantWrites replay.tenantId s s' := by
  obtain ⟨_, -, h⟩ := Except.bind_eq_ok.1 h
  obtain ⟨_, hwritable, h⟩ := Except.bind_eq_ok.1 h
  obtain ⟨s₁, hinsert, h⟩ := Except.bind_eq_ok.1 h
  have hinserted : TenantWrites replay.tenantId s s₁ :=
    .single (insertReplay_write (writable_eq_ok hwritable) hinsert)
  refine (hinserted.tail (.removeReplays _ (by simp +contextual))).trans
    (Except.foldlM_reflTransGen _ ?_ h)
  intro e _ t t' hstep
  exact .single (deleteReplayPayload_write hstep)

/-! ## Transactions

Every transaction is followed through its calls of the store, and each call is a write or several. A
transaction that fails is no write at all, as it is rolled back. -/

theorem enqueueEvent_write (pendingLimit : ℕ) (e : Event String EventData) :
    Write e.tenantId s (s.enqueueEvents pendingLimit [e]) :=
  .events pendingLimit [e] (by simp)

theorem putAll_writes {records : List StoredRecord} {expires : ℤ}
    (h : records.foldlM (fun (s : Store) record => s.put tenant record expires) s = .ok s') :
    TenantWrites tenant s s' := by
  refine Except.foldlM_reflTransGen _ ?_ h
  intro record _ t t' hput
  exact .single (put_eq_ok hput).1

theorem putPayloads_writes {blobs : List EncryptedPayload}
    (h : blobs.foldlM (fun (s : Store) blob => s.putPayload blob) s = .ok s') : Writes s s' := by
  refine Except.foldlM_reflTransGen _ ?_ h
  intro blob _ t t' hput
  exact (putPayload_eq_ok hput).1.writes

theorem putPayloads_records {blobs : List EncryptedPayload}
    (h : blobs.foldlM (fun (s : Store) blob => s.putPayload blob) s = .ok s') :
    s'.records = s.records := by
  refine Except.foldlM_of_invariant (fun _ t => t.records = s.records) ?_ blobs rfl h
  intro blob _ t t' ht hput
  exact (putPayload_eq_ok hput).2.trans ht

section Persistence

variable {sv : Services}

theorem saveReplay_writes {interaction : Interaction} {replay : Option ReplayRecord}
    (h : s.saveReplay sv interaction replay = .ok s') : Writes s s' := by
  cases replay with
  | none =>
    cases h
    exact .refl
  | some replay =>
    obtain ⟨s₁, hdelete, hput⟩ := Except.bind_eq_ok.1 h
    exact (deleteReplay_writes hdelete).writes.trans (putReplay_writes hput).writes

theorem saveGraph_writes (tenant : String) {g : SealedGraph} {expires : ℤ}
    {events : List (Event String EventData)}
    (hevents : ∀ e ∈ events, e.tenantId = tenant) (h : s.saveGraph sv g expires events = .ok s') :
    Writes s s' := by
  obtain ⟨s₁, hrecords, h⟩ := Except.bind_eq_ok.1 h
  obtain ⟨s₂, hblobs, h⟩ := Except.bind_eq_ok.1 h
  obtain ⟨s₃, hreplay, h⟩ := Except.bind_eq_ok.1 h
  cases h
  have h₁ : Writes s s₁ := (putAll_writes hrecords).writes
  have h₂ : Writes s₁ s₂ := putPayloads_writes hblobs
  have h₃ : Writes s₂ s₃ := saveReplay_writes hreplay
  exact ((h₁.trans h₂).trans h₃).trans (Write.events sv.pendingLimit events hevents).writes

theorem trySave_writes {graph : InteractionGraph} {response : Option InferenceResponse}
    {content : PersistenceContent} {fingerprint : String} {reservedAt : ℤ} {g : SealedGraph}
    (h : s.trySave sv graph response content fingerprint reservedAt = .ok (g, s')) : Writes s s' := by
  obtain ⟨_, -, h⟩ := Except.bind_eq_ok.1 h
  obtain ⟨s₁, hgraph, h⟩ := Except.bind_eq_ok.1 h
  cases h
  refine saveGraph_writes graph.interaction.tenantId ?_ hgraph
  intro e he
  obtain ⟨k, hk, rfl⟩ := List.mem_mapIdx.1 he
  rfl

/-- `save` may fail at any point, and then has written nothing. -/
theorem save_writes (graph : InteractionGraph) (response : Option InferenceResponse)
    (content : PersistenceContent) (fingerprint : String) (reservedAt : ℤ) :
    Writes s (s.save sv graph response content fingerprint reservedAt).2 := by
  unfold save
  dsimp only
  split
  · exact .refl
  · rename_i htry
    exact trySave_writes htry

theorem saveShadowAttempt_writes (hinv : PrivacyInv s) {interaction : Interaction}
    {attempt : GenerationAttempt} {policy : PolicyDecision} {content : PersistenceContent} {expires : ℤ}
    {saved : Bool} (h : s.saveShadowAttempt sv interaction attempt policy content expires =
      .ok (saved, s')) : Writes s s' := by
  unfold saveShadowAttempt at h
  dsimp only at h
  split at h
  · cases h
    exact .refl
  obtain ⟨blob, -, h⟩ := Except.bind_eq_ok.1 h
  obtain ⟨s₁, hblob, h⟩ := Except.bind_eq_ok.1 h
  obtain ⟨s₂, hput, h⟩ := Except.bind_eq_ok.1 h
  obtain ⟨s₃, hcost, h⟩ := Except.bind_eq_ok.1 h
  cases h
  have h₂ : Writes s s₂ := (putPayloads_writes hblob).trans (put_eq_ok hput).1.writes
  have h₃ : Writes s₂ s₃ := (addShadowCost_writes (h₂.keeps hinv) hcost).writes
  exact (h₂.trans h₃).trans (enqueueEvent_write _ _).writes

theorem saveShadow_writes (hinv : PrivacyInv s) {interaction : Interaction}
    {attempt : GenerationAttempt} {output : Option String} {policy : PolicyDecision}
    {inputRedactionFailed saved : Bool}
    (h : s.saveShadow sv interaction attempt output policy inputRedactionFailed = .ok (saved, s')) :
    Writes s s' := by
  unfold saveShadow at h
  dsimp only at h
  split at h
  · cases h
    exact .refl
  · exact saveShadowAttempt_writes hinv h

theorem storeFeedback_writes (hinv : PrivacyInv s) {interaction : Interaction}
    (hholds : s.Holds tenant interaction) {feedback : Feedback} {blob : Option EncryptedPayload}
    {expires : ℤ} (h : s.storeFeedback sv tenant interaction feedback blob expires = .ok s') :
    Writes s s' := by
  obtain ⟨s₁, hblob, h⟩ := Except.bind_eq_ok.1 h
  obtain ⟨s₂, hput, h⟩ := Except.bind_eq_ok.1 h
  obtain ⟨s₃, happend, h⟩ := Except.bind_eq_ok.1 h
  cases h
  obtain ⟨hwrite, hs₂⟩ := put_eq_ok hput
  have h₂ : Writes s s₂ := (putPayloads_writes hblob).trans hwrite.writes
  -- the interaction was read before the payload and the feedback were put
  have hholds₂ : s₂.Holds tenant interaction := by
    refine hholds.mono ?_
    rw [hs₂, ← putPayloads_records hblob]
    exact List.subset_append_left _ _
  have h₃ : Writes s₂ s₃ := (appendFeedback_write (h₂.keeps hinv) hholds₂ happend).writes
  exact (h₂.trans h₃).trans (enqueueEvent_write _ _).writes

theorem recordFeedback_writes (hinv : PrivacyInv s) {caller : Caller} {body : FeedbackBody}
    {feedback : Feedback} (h : s.recordFeedback sv caller id body = .ok (feedback, s')) :
    Writes s s' := by
  obtain ⟨found, hfound, h⟩ := Except.bind_eq_ok.1 h
  split at h
  · cases h
  obtain ⟨_, -, h⟩ := Except.bind_eq_ok.1 h
  obtain ⟨_, -, h⟩ := Except.bind_eq_ok.1 h
  obtain ⟨_, -, h⟩ := Except.bind_eq_ok.1 h
  obtain ⟨_, -, h⟩ := Except.bind_eq_ok.1 h
  obtain ⟨_, -, h⟩ := Except.bind_eq_ok.1 h
  obtain ⟨_, -, h⟩ := Except.bind_eq_ok.1 h
  obtain ⟨s₁, hstore, h⟩ := Except.bind_eq_ok.1 h
  cases h
  exact storeFeedback_writes hinv (getInteraction_holds hinv hfound).2 hstore

/-! ### Deletions and the sweep -/

theorem delete_writes {actor : Option String}
    {deleted : Option (Interaction × DeletionRequest)}
    (h : s.delete sv tenant id actor = .ok (deleted, s')) : TenantWrites tenant s s' := by
  obtain ⟨found, -, h⟩ := Except.bind_eq_ok.1 h
  split at h
  · cases h
    exact .refl
  obtain ⟨s₁, herase, h⟩ := Except.bind_eq_ok.1 h
  cases h
  exact .tail (.single (.erase _ _ herase)) (.events _ _ (by simp [deletionEvent]))

theorem expire_writes (hinv : PrivacyInv s) (hwritable : ¬s.Tombstoned tenant id)
    (h : (s.clearRefs tenant id .expired).deleteInteraction tenant id = .ok s') :
    TenantWrites tenant s s' ∧ s'.deletionTombstones = s.deletionTombstones := by
  have hclear : Write tenant s { s with
      records := s.records.map fun row =>
        if row.tenantId = tenant && row.interactionId = id then row.clear .expired else row } := by
    refine .modify _ ?_ ?_ ?_ ?_ ?_
    · intro row hne
      simp [hne]
    · intro row
      split <;> exact ⟨rfl, rfl, rfl⟩
    · intro row hrow hkind
      have hkeyed := hinv.keyed row hrow hkind
      split
      · exact hkeyed.clear .expired
      · exact hkeyed
    · intro row _ htomb
      rw [if_neg]
      intro hmatch
      simp only [Bool.and_eq_true, decide_eq_true_eq] at hmatch
      rw [hmatch.1, hmatch.2] at htomb
      exact hwritable htomb
    · intro row _ hstate
      split at hstate
      · cases hstate
      · exact hstate
  refine ⟨.tail (.tail (.single hclear) (.removeReplays _ ?_)) (deletePayloads_write ?_ h), ?_⟩
  · simp +contextual
  · simp +contextual
  · rw [deletePayloads_eq_ok h]
    rfl

theorem sweep_writes (hinv : PrivacyInv s) {expired : ℕ} (h : s.sweep sv tenant = .ok (expired, s')) :
    TenantWrites tenant s s' := by
  obtain ⟨interactions, hexpired, h⟩ := Except.bind_eq_ok.1 h
  obtain ⟨s₁, hloop, h⟩ := Except.bind_eq_ok.1 h
  obtain ⟨s₂, hreplays, h⟩ := Except.bind_eq_ok.1 h
  cases h
  -- an active interaction has no tombstone, and the sweep leaves none
  have hactive : ∀ i ∈ interactions, ¬s.Tombstoned tenant i.interactionId := by
    intro i hi
    obtain ⟨row, hrow, hparse⟩ := (parseAll_eq_ok hexpired).2 i hi
    simp only [List.mem_filter, Bool.and_eq_true, decide_eq_true_eq] at hrow
    obtain ⟨hmem, ⟨⟨hkind, rfl⟩, -⟩, hstate⟩ := hrow
    rw [← (hinv.ofJson_row hmem hkind hparse).1]
    exact hinv.not_tombstoned hmem hkind (by simp [hstate])
  have hrun : TenantWrites tenant s s₁ := by
    refine (Except.foldlM_of_invariant (fun rest t => TenantWrites tenant s t ∧
      ∀ i ∈ rest, ¬t.Tombstoned tenant i.interactionId) ?_ interactions ⟨.refl, hactive⟩ hloop).1
    rintro i rest t t' ⟨hrun, hrest⟩ hstep
    obtain ⟨hwrites, htombs⟩ := expire_writes (hrun.keeps hinv) (hrest i List.mem_cons_self) hstep
    refine ⟨hrun.trans hwrites, fun j hj => ?_⟩
    rw [tombstoned_iff, htombs, ← tombstoned_iff]
    exact hrest j (List.mem_cons_of_mem _ hj)
  exact hrun.trans (expireReplays_writes hreplays)

/-! A subject's tombstone is written before its interactions are deleted. The deletions do not read
it, so that it may as well come after them, when the subject has no other interactions. -/

theorem erase_withSubjects {tombstones : List Tombstone} {deletion : DeletionRequest}
    (h : { s with subjectTombstones := tombstones }.erase tenant id deletion = .ok s') :
    ∃ t, s.erase tenant id deletion = .ok t ∧ s' = { t with subjectTombstones := tombstones } := by
  obtain ⟨_, hcheck, h⟩ := Except.bind_eq_ok.1 h
  cases h
  exact ⟨_, Except.bind_eq_ok.2 ⟨_, hcheck, rfl⟩, rfl⟩

/-- The loop of `delete_subject`. -/
def eraseAll (s : Store) (tenant : String) (deleted : List (Interaction × DeletionRequest)) :
    StoreResult Store :=
  deleted.foldlM (fun s d => s.erase tenant d.1.interactionId d.2) s

theorem eraseAll_withSubjects {tombstones : List Tombstone}
    {deleted : List (Interaction × DeletionRequest)}
    (h : { s with subjectTombstones := tombstones }.eraseAll tenant deleted = .ok s') :
    ∃ t, s.eraseAll tenant deleted = .ok t ∧ s' = { t with subjectTombstones := tombstones } := by
  induction deleted generalizing s with
  | nil =>
    cases h
    exact ⟨s, rfl, rfl⟩
  | cons d rest ih =>
    obtain ⟨s₁, hstep, h⟩ := Except.bind_eq_ok.1 h
    obtain ⟨t₁, hstep', rfl⟩ := erase_withSubjects hstep
    obtain ⟨t, hrest, rfl⟩ := ih h
    exact ⟨t, Except.bind_eq_ok.2 ⟨t₁, hstep', hrest⟩, rfl⟩

theorem eraseAll_writes {deleted : List (Interaction × DeletionRequest)}
    (h : s.eraseAll tenant deleted = .ok s') :
    TenantWrites tenant s s' ∧ s'.subjectTombstones = s.subjectTombstones := by
  refine Except.foldlM_of_invariant (fun _ t => TenantWrites tenant s t ∧
    t.subjectTombstones = s.subjectTombstones) ?_ deleted ⟨.refl, rfl⟩ h
  rintro d _ t t' ⟨hrun, hsame⟩ hstep
  exact ⟨hrun.tail (.erase _ _ hstep), by rw [erase_eq_ok hstep]; exact hsame⟩

/-- The interactions of a subject are deleted at the end, if each of them was to be. -/
theorem eraseAll_subject (hinv : PrivacyInv s) {subject : String}
    {deleted : List (Interaction × DeletionRequest)}
    (hall : ∀ row ∈ s.records, row.kind = .interactions → row.tenantId = tenant →
      row.subjectId = some subject → row.state = .deleted ∨
        ∃ d ∈ deleted, d.1.interactionId = row.recordId)
    (h : s.eraseAll tenant deleted = .ok s') :
    ∀ row ∈ s'.records, row.kind = .interactions → row.tenantId = tenant →
      row.subjectId = some subject → row.state = .deleted := by
  have hend := Except.foldlM_of_invariant (fun rest t => PrivacyInv t ∧
    ∀ row ∈ t.records, row.kind = .interactions → row.tenantId = tenant →
      row.subjectId = some subject → row.state = .deleted ∨
        ∃ d ∈ rest, d.1.interactionId = row.recordId) ?_ deleted ⟨hinv, hall⟩ h
  · intro row hrow hkind htenant hsubject
    simpa using hend.2 row hrow hkind htenant hsubject
  rintro d rest t t' ⟨hinv, hall⟩ hstep
  refine ⟨hinv.erase hstep, ?_⟩
  intro r hr hkind htenant hsubject
  obtain ⟨row, hrow, ⟨-, -, rfl⟩ | ⟨hother, rfl⟩⟩ := erase_records hstep hr
  · exact .inl rfl
  rcases hall r hrow hkind htenant hsubject with hdeleted | ⟨d', hd', hid⟩
  · exact .inl hdeleted
  rcases List.mem_cons.1 hd' with rfl | hd'
  · exact absurd ⟨htenant, (hinv.keyed r hrow hkind).interactionId.trans hid.symm⟩ hother
  · exact .inr ⟨d', hd', hid⟩

/-- The request of a subject's tombstone is about the subject. -/
theorem PrivacyInv.subject_target (hinv : PrivacyInv s) {subject : String} {new : DeletionRequest}
    (hnew : new.targetId = subject) :
    ((s.getSubjectTombstone tenant subject).getD new).targetId = subject := by
  cases hfound : s.subjectTombstones.find? fun t => t.tenantId = tenant && t.targetId = subject with
  | none => simpa [getSubjectTombstone, hfound] using hnew
  | some t =>
    have htarget := hinv.targets t (List.mem_of_find?_eq_some hfound)
    have hmatch := List.find?_some hfound
    simp only [Bool.and_eq_true, decide_eq_true_eq] at hmatch
    simpa [getSubjectTombstone, hfound] using htarget.trans hmatch.2

/-- What `delete_subject` found is every interaction of the subject that is not deleted. -/
theorem forSubject_eq_ok (hinv : PrivacyInv s) {subject : String} {interactions : List Interaction}
    (h : s.forSubject tenant subject = .ok interactions) :
    ∀ row ∈ s.records, row.kind = .interactions → row.tenantId = tenant →
      row.subjectId = some subject → row.state = .deleted ∨
        ∃ i ∈ interactions, i.interactionId = row.recordId := by
  intro row hrow hkind htenant hsubject
  by_cases hstate : row.state = .deleted
  · exact .inl hstate
  obtain ⟨i, hi, hparse⟩ := (parseAll_eq_ok h).1 row (by simp [hrow, hkind, htenant, hsubject, hstate])
  exact .inr ⟨i, hi, (hinv.ofJson_row hrow hkind hparse).1.symm⟩

theorem tombstoneSubject_eraseAll_writes (hinv : PrivacyInv s) {deletion : DeletionRequest}
    {deleted : List (Interaction × DeletionRequest)} {s₁ : Store}
    (hall : ∀ row ∈ s.records, row.kind = .interactions → row.tenantId = tenant →
      row.subjectId = some deletion.targetId → row.state = .deleted ∨
        ∃ d ∈ deleted, d.1.interactionId = row.recordId)
    (htombstone : s.tombstoneSubject tenant deletion = .ok s₁)
    (hloop : s₁.eraseAll tenant deleted = .ok s') : TenantWrites tenant s s' := by
  obtain ⟨_, hscope, hs₁⟩ := Except.bind_eq_ok.1 htombstone
  cases hs₁
  obtain ⟨t, ht, rfl⟩ := eraseAll_withSubjects hloop
  obtain ⟨hwrites, hsame⟩ := eraseAll_writes ht
  refine hwrites.tail (.tombstoneSubject deletion (eraseAll_subject hinv hall ht) ?_)
  rw [← hsame]
  exact Except.bind_eq_ok.2 ⟨_, hscope, rfl⟩

theorem deleteSubject_writes (hinv : PrivacyInv s) {subject : String} {actor : Option String}
    {deleted : DeletionRequest × List (Interaction × DeletionRequest)}
    (h : s.deleteSubject sv tenant subject actor = .ok (deleted, s')) : TenantWrites tenant s s' := by
  obtain ⟨interactions, hfound, h⟩ := Except.bind_eq_ok.1 h
  obtain ⟨s₁, htombstone, h⟩ := Except.bind_eq_ok.1 h
  obtain ⟨s₂, hloop, h⟩ := Except.bind_eq_ok.1 h
  cases h
  refine .tail (tombstoneSubject_eraseAll_writes hinv ?_ htombstone hloop) (.events _ _ ?_)
  · intro row hrow hkind htenant hsubject
    have hsubject := hsubject.trans (congrArg some (hinv.subject_target (by rfl)))
    refine (forSubject_eq_ok hinv hfound row hrow hkind htenant hsubject).imp_right ?_
    rintro ⟨i, hi, hid⟩
    obtain ⟨k, hk, rfl⟩ := List.mem_iff_getElem.1 hi
    exact ⟨_, List.mem_mapIdx.2 ⟨k, hk, rfl⟩, hid⟩
  · intro e he
    rcases List.mem_append.1 he with he | he
    · obtain ⟨d, -, rfl⟩ := List.mem_map.1 he
      rfl
    · rw [List.mem_singleton.1 he]
      rfl

end Persistence

end Store

/-! ## Runs -/

/-- The transactions, each with the services of its call. -/
inductive StorageCall where
  | save (sv : Services) (graph : InteractionGraph) (response : Option InferenceResponse)
      (content : PersistenceContent) (fingerprint : String) (reservedAt : ℤ)
  | saveShadow (sv : Services) (interaction : Interaction) (attempt : GenerationAttempt)
      (output : Option String) (policy : PolicyDecision) (inputRedactionFailed : Bool)
  | feedback (sv : Services) (caller : Caller) (interactionId : String) (body : FeedbackBody)
  | sweep (sv : Services) (tenant : String)
  | delete (sv : Services) (tenant interactionId : String) (actor : Option String)
  | deleteSubject (sv : Services) (tenant subject : String) (actor : Option String)
  | putReplay (replay : ReplayRecord) (capacity : ℕ)
  | deleteReplay (tenant applicationId requestId : String)
  | expireReplays (tenant : String) (now : ℤ)

namespace StorageCall

/-- One call on the store: the new store, or an error that leaves it. -/
def run (s : Store) : StorageCall → StoreResult Store
  | save sv graph response content fingerprint reservedAt =>
    .ok (s.save sv graph response content fingerprint reservedAt).2
  | saveShadow sv interaction attempt output policy inputRedactionFailed =>
    (s.saveShadow sv interaction attempt output policy inputRedactionFailed).map (·.2)
  | feedback sv caller interactionId body => (s.recordFeedback sv caller interactionId body).map (·.2)
  | sweep sv tenant => (s.sweep sv tenant).map (·.2)
  | delete sv tenant interactionId actor => (s.delete sv tenant interactionId actor).map (·.2)
  | deleteSubject sv tenant subject actor => (s.deleteSubject sv tenant subject actor).map (·.2)
  | putReplay replay capacity => s.putReplay replay capacity
  | deleteReplay tenant applicationId requestId => s.deleteReplay tenant applicationId requestId
  | expireReplays tenant now => s.expireReplays tenant now

/-- The tenant of a deletion. -/
def deletionTenant : StorageCall → Option String
  | delete _ tenant _ _ => some tenant
  | deleteSubject _ tenant _ _ => some tenant
  | _ => none

end StorageCall

/-- A call that fails is rolled back. -/
def Store.call (s : Store) (call : StorageCall) : Store := (call.run s).toOption.getD s

/-- The store after some calls. -/
def Store.after (s : Store) (calls : List StorageCall) : Store := calls.foldl Store.call s

namespace Store

variable {s s' : Store}

theorem run_writes (hinv : PrivacyInv s) {call : StorageCall} (h : call.run s = .ok s') :
    Writes s s' := by
  cases call with
  | save sv graph response content fingerprint reservedAt =>
    cases h
    exact save_writes graph response content fingerprint reservedAt
  | saveShadow sv interaction attempt output policy inputRedactionFailed =>
    obtain ⟨⟨_, _⟩, hcall, rfl⟩ := Except.map_eq_ok.1 h
    exact saveShadow_writes hinv hcall
  | feedback sv caller interactionId body =>
    obtain ⟨⟨_, _⟩, hcall, rfl⟩ := Except.map_eq_ok.1 h
    exact recordFeedback_writes hinv hcall
  | sweep sv tenant =>
    obtain ⟨⟨_, _⟩, hcall, rfl⟩ := Except.map_eq_ok.1 h
    exact (sweep_writes hinv hcall).writes
  | delete sv tenant interactionId actor =>
    obtain ⟨⟨_, _⟩, hcall, rfl⟩ := Except.map_eq_ok.1 h
    exact (delete_writes hcall).writes
  | deleteSubject sv tenant subject actor =>
    obtain ⟨⟨_, _⟩, hcall, rfl⟩ := Except.map_eq_ok.1 h
    exact (deleteSubject_writes hinv hcall).writes
  | putReplay replay capacity => exact (putReplay_writes h).writes
  | deleteReplay tenant applicationId requestId => exact (deleteReplay_writes h).writes
  | expireReplays tenant now => exact (expireReplays_writes h).writes

theorem call_writes (hinv : PrivacyInv s) (call : StorageCall) : Writes s (s.call call) := by
  unfold Store.call
  cases hrun : call.run s with
  | error e => exact .refl
  | ok s' => exact run_writes hinv hrun

/-- The invariant holds after every run. -/
theorem PrivacyInv.after (hinv : PrivacyInv s) (calls : List StorageCall) :
    PrivacyInv (s.after calls) := by
  induction calls generalizing s with
  | nil => exact hinv
  | cons call calls ih => exact ih ((call_writes hinv call).keeps hinv)

theorem deletion_writes (hinv : PrivacyInv s) {call : StorageCall} {tenant : String}
    (hdeletion : call.deletionTenant = some tenant) : TenantWrites tenant s (s.call call) := by
  unfold Store.call
  cases hrun : call.run s with
  | error e => exact .refl
  | ok s' =>
    cases call with
    | delete sv tenant' interactionId actor =>
      cases hdeletion
      obtain ⟨⟨_, _⟩, hcall, rfl⟩ := Except.map_eq_ok.1 hrun
      exact delete_writes hcall
    | deleteSubject sv tenant' subject actor =>
      cases hdeletion
      obtain ⟨⟨_, _⟩, hcall, rfl⟩ := Except.map_eq_ok.1 hrun
      exact deleteSubject_writes hinv hcall
    | _ => cases hdeletion

end Store

open Store

/-- **Tombstones.** After every run an interaction with a tombstone is gone, each interaction of a
    subject with a tombstone is deleted and has one itself, and a deletion changes no row of another
    tenant. -/
theorem tombstones_hold (calls : List StorageCall) :
    (∀ tenant id, (({} : Store).after calls).Tombstoned tenant id →
      (({} : Store).after calls).Gone tenant id) ∧
    (∀ row ∈ (({} : Store).after calls).records, row.kind = .interactions →
      ∀ subject, row.subjectId = some subject ∨ subjectOf row.data = some (some subject) →
      (({} : Store).after calls).SubjectTombstoned row.tenantId subject →
      row.state = .deleted ∧ (({} : Store).after calls).Gone row.tenantId row.recordId) ∧
    ∀ (call : StorageCall) (tenant other : String), call.deletionTenant = some tenant →
      other ≠ tenant →
      ((({} : Store).after calls).call call).rowsOf other =
        (({} : Store).after calls).rowsOf other := by
  have hinv : PrivacyInv (({} : Store).after calls) := PrivacyInv.init.after calls
  refine ⟨hinv.gone, ?_, ?_⟩
  · intro row hrow hkind subject hsubject htomb
    have hcolumn : row.subjectId = some subject := by
      rcases hsubject with hsubject | hsubject
      · exact hsubject
      · exact Option.some_injective _ ((hinv.keyed row hrow hkind).dataSubject.symm.trans hsubject)
    have hdeleted := hinv.subjects row hrow hkind subject hcolumn htomb
    exact ⟨hdeleted, hinv.gone _ _ (hinv.deleted row hrow hkind hdeleted)⟩
  · intro call tenant other hdeletion hother
    exact (deletion_writes hinv hdeletion).rowsOf hother

/-! A logged interaction with an output and a replay, to run the calls on. -/

namespace SupportStore

/-- A policy that allows the content for an hour. -/
def policy : PolicyDecision := { contentLoggingAllowed := true, retentionSeconds := 3600 }

/-- An interaction with its texts. -/
def interaction : Interaction :=
  { interactionId := "i1"
    traceId := "t1"
    requestId := "r1"
    tenantId := "acme"
    subjectIdPseudonymous := some "alice"
    applicationId := "desk"
    startedAt := 0
    completedAt := 1
    policy
    input := {} }

/-- The interaction and its beginning. -/
def graph : InteractionGraph :=
  { interaction
    started := { interactionId := "i1" }
    retrieval := none
    route := none
    attempts := [{ attemptId := "a1", interactionId := "i1" }] }

/-- Keeps the text, and names the payload after the number of the encryption. -/
def encryptPlain (k : ℕ) (content tenant interaction field : String) (expiry : ℤ) :
    StoreResult EncryptedPayload :=
  let reference := ("0123456789".toList.getD k '-').toString
  .ok
    { reference
      tenantId := tenant
      interactionId := interaction
      field
      nonce := reference
      ciphertext := content
      keyVersion := "k1"
      expiresAt := expiry }

/-- The services of a call, with ids and references from the `n`th on. -/
def services (n : ℕ) : Services :=
  { clock := fun _ => 5
    uid := fun k => ("abcdefghij".toList.getD (n + k) '-').toString
    encrypt := fun k => encryptPlain (n + k)
    decrypt := fun p _ _ _ => some p.ciphertext
    redact := fun text _ => some (text, [])
    redactorVersion := "persistence-regex-local-1"
    contentHash := fun _ _ => "hash"
    dumps := fun _ => "response"
    decide := fun _ _ => .ok policy
    parseFormat := fun _ => none
    matchesSchema := fun _ _ => true
    isJsonObject := fun _ => true }

/-- The interaction is saved, with its output and its replay. -/
def saved : StorageCall :=
  .save (services 0) graph (some ⟨"hello", []⟩)
    { messagesJson := some "messages", query := some "query", output := some "hello" } "print" 0

/-- It gets feedback, then its subject is deleted. -/
def forgotten : List StorageCall :=
  [saved, .feedback (services 5) ⟨"acme", ["desk"], some "alice"⟩ "i1" (.correction "hi" true),
    .deleteSubject (services 7) "acme" "alice" none]

end SupportStore

open SupportStore in
theorem forgotten_interaction_gone :
    (({} : Store).after (forgotten.take 2)).payloads.length = 4 ∧
      (({} : Store).after forgotten).Tombstoned "acme" "i1" ∧
      (({} : Store).after forgotten).Gone "acme" "i1" := by
  have htomb : (({} : Store).after forgotten).Tombstoned "acme" "i1" := by
    unfold Tombstoned
    decide +kernel
  exact ⟨by decide +kernel, htomb, (tombstones_hold forgotten).1 _ _ htomb⟩

end Stored

end AdaptiveLlm
