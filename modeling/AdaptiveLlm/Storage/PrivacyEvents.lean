import AdaptiveLlm.Storage.Idempotence

set_option autoImplicit false

/-! # Privacy events

A deletion writes its tombstones and the events of those that are new in one transaction, and its event
has the id of its request. So the privacy events of the outbox are those of the tombstones, one each,
in whatever order interactions and their subjects are deleted.

The id of a deletion's event is derived from the request, so a second insertion is recognised.
`deletion_idempotent` has both parts: a repeated deletion is a success without any change, and the
events are in one-to-one correspondence with the tombstones. The second needs fresh ids, which is a
hypothesis on `uid()` and named so. -/

namespace AdaptiveLlm

namespace Stored

open Store

/-! ## Operations that announce nothing -/

/-- What is announced of an event or of a tombstone: the tenant, the id and the request. -/
abbrev Announcement := String × String × EventData

/-- The deletions that the events announce. -/
def announcements (events : List (Event String EventData)) : List Announcement :=
  (events.filter (·.eventType = .privacyDeletionRequested)).map fun e => (e.tenantId, e.eventId, e.data)

/-- The announcement of a tombstone. -/
def Tombstone.announcement (t : Tombstone) : Announcement :=
  (t.tenantId, t.data.deletionRequestId, .deletion t.data)

theorem announcements_append (events more : List (Event String EventData)) :
    announcements (events ++ more) = announcements events ++ announcements more := by
  simp [announcements]

namespace Store

variable {s s' : Store} {tenant id : String} {sv : Services}

/-- The privacy events of the outbox. -/
def privacyEvents (s : Store) : List Announcement := announcements (s.outbox.map (·.event))

/-- Neither the tombstones nor the outbox change. -/
structure Silent (s s' : Store) : Prop where
  tombstones : s'.deletionTombstones = s.deletionTombstones
  subjects : s'.subjectTombstones = s.subjectTombstones
  outbox : s'.outbox = s.outbox

theorem Silent.refl (s : Store) : Silent s s := ⟨rfl, rfl, rfl⟩

theorem Silent.trans {t : Store} (h : Silent s t) (h' : Silent t s') : Silent s s' :=
  ⟨h'.tombstones.trans h.tombstones, h'.subjects.trans h.subjects, h'.outbox.trans h.outbox⟩

theorem OnlyPayloads.silent (h : OnlyPayloads s s') : Silent s s' :=
  ⟨h.rest.2.1, h.rest.2.2.1, h.rest.2.2.2⟩

/-- The tombstones stay, and the outbox gets events that are not about privacy. -/
structure Quiet (s s' : Store) : Prop where
  tombstones : s'.deletionTombstones = s.deletionTombstones
  subjects : s'.subjectTombstones = s.subjectTombstones
  events : s'.privacyEvents = s.privacyEvents
  ids : s.outbox.map (·.event.eventId) ⊆ s'.outbox.map (·.event.eventId)

theorem Silent.quiet (h : Silent s s') : Quiet s s' :=
  ⟨h.tombstones, h.subjects, by rw [privacyEvents, h.outbox, privacyEvents], by
    rw [h.outbox]
    exact List.Subset.refl _⟩

theorem Silent.enqueue (h : Silent s s') (pendingLimit : ℕ) {events : List (Event String EventData)}
    (hkind : ∀ e ∈ events, e.eventType ≠ .privacyDeletionRequested) :
    Quiet s (s'.enqueueEvents pendingLimit events) := by
  obtain ⟨kept, hkept, happend⟩ := enqueue_append pendingLimit s'.outbox events
  have hnone : announcements ((kept.map fun e => ({ event := e } : OutboxRow String EventData)).map
      (·.event)) = [] := by
    rw [announcements, List.map_eq_nil_iff, List.filter_eq_nil_iff]
    intro e he
    simp only [List.map_map, List.mem_map, Function.comp_apply] at he
    obtain ⟨e, he, rfl⟩ := he
    simpa using hkind e (hkept he)
  refine ⟨h.tombstones, h.subjects, ?_, ?_⟩
  · unfold privacyEvents enqueueEvents
    dsimp only
    rw [happend, List.map_append, announcements_append, hnone, List.append_nil, h.outbox]
  · have hids := (remembers_enqueue pendingLimit events).events (s := s')
    rwa [h.outbox] at hids

theorem silent_put {record : StoredRecord} {expires : ℤ} (h : s.put tenant record expires = .ok s') :
    Silent s s' := by
  rw [(put_eq_ok h).2]
  exact ⟨rfl, rfl, rfl⟩

theorem silent_putAll {records : List StoredRecord} {expires : ℤ}
    (h : records.foldlM (fun (s : Store) record => s.put tenant record expires) s = .ok s') :
    Silent s s' := by
  refine Except.foldlM_of_invariant (fun _ t => Silent s t) ?_ records (.refl s) h
  intro record _ t t' ht hstep
  exact ht.trans (silent_put hstep)

theorem silent_putPayloads {blobs : List EncryptedPayload}
    (h : blobs.foldlM (fun (s : Store) blob => s.putPayload blob) s = .ok s') : Silent s s' := by
  refine Except.foldlM_of_invariant (fun _ t => Silent s t) ?_ blobs (.refl s) h
  intro blob _ t t' ht hstep
  exact ht.trans (onlyPayloads_of_putPayload hstep).silent

theorem silent_addShadowCost {costMicros : ℕ} (h : s.addShadowCost tenant id costMicros = .ok s') :
    Silent s s' := by
  obtain ⟨_, -, h⟩ := Except.bind_eq_ok.1 h
  obtain ⟨found, -, h⟩ := Except.bind_eq_ok.1 h
  split at h <;> cases h <;> exact ⟨rfl, rfl, rfl⟩

theorem GenerationAttempt.eventType_ne (a : GenerationAttempt) :
    a.eventType ≠ .privacyDeletionRequested := by
  unfold GenerationAttempt.eventType
  split <;> simp

theorem quiet_saveGraph {g : SealedGraph} {expires : ℤ} {events : List (Event String EventData)}
    (hkind : ∀ e ∈ events, e.eventType ≠ .privacyDeletionRequested)
    (h : s.saveGraph sv g expires events = .ok s') : Quiet s s' := by
  obtain ⟨s₁, hrecords, h⟩ := Except.bind_eq_ok.1 h
  obtain ⟨s₂, hblobs, h⟩ := Except.bind_eq_ok.1 h
  obtain ⟨s₃, hreplay, h⟩ := Except.bind_eq_ok.1 h
  cases h
  have hsaved : Silent s₂ s₃ := by
    unfold saveReplay at hreplay
    split at hreplay
    · cases hreplay
      exact .refl s₂
    · obtain ⟨t, hdelete, hput⟩ := Except.bind_eq_ok.1 hreplay
      exact (onlyPayloads_of_deleteReplay hdelete).silent.trans (onlyPayloads_of_putReplay hput).silent
  exact (((silent_putAll hrecords).trans (silent_putPayloads hblobs)).trans hsaved).enqueue _ hkind

theorem InteractionGraph.eventType_ne (g : InteractionGraph) {x : EventType × StoredRecord}
    (hx : x ∈ g.records) : x.1 ≠ .privacyDeletionRequested := by
  simp only [InteractionGraph.records, List.mem_append, List.mem_singleton, List.mem_map] at hx
  rcases hx with (((rfl | ⟨_, -, rfl⟩) | ⟨_, -, rfl⟩) | ⟨a, -, rfl⟩) | rfl
  · simp
  · simp
  · simp
  · exact GenerationAttempt.eventType_ne a
  · simp

theorem quiet_save (graph : InteractionGraph) (response : Option InferenceResponse)
    (content : PersistenceContent) (fingerprint : String) (reservedAt : ℤ) :
    Quiet s (s.save sv graph response content fingerprint reservedAt).2 := by
  unfold save
  dsimp only
  split
  · exact (Silent.refl s).quiet
  · rename_i htry
    obtain ⟨g, -, htry⟩ := Except.bind_eq_ok.1 htry
    obtain ⟨s₁, hgraph, htry⟩ := Except.bind_eq_ok.1 htry
    cases htry
    refine quiet_saveGraph (fun e he => ?_) hgraph
    obtain ⟨k, hk, rfl⟩ := List.mem_mapIdx.1 he
    exact InteractionGraph.eventType_ne _ (List.getElem_mem hk)

theorem quiet_saveShadow {interaction : Interaction} {attempt : GenerationAttempt}
    {output : Option String} {policy : PolicyDecision} {inputRedactionFailed saved : Bool}
    (h : s.saveShadow sv interaction attempt output policy inputRedactionFailed = .ok (saved, s')) :
    Quiet s s' := by
  unfold saveShadow at h
  dsimp only at h
  split at h
  · cases h
    exact (Silent.refl s).quiet
  unfold saveShadowAttempt at h
  dsimp only at h
  split at h
  · cases h
    exact (Silent.refl s).quiet
  obtain ⟨blob, -, h⟩ := Except.bind_eq_ok.1 h
  obtain ⟨s₁, hblob, h⟩ := Except.bind_eq_ok.1 h
  obtain ⟨s₂, hput, h⟩ := Except.bind_eq_ok.1 h
  obtain ⟨s₃, hcost, h⟩ := Except.bind_eq_ok.1 h
  cases h
  refine (((silent_putPayloads hblob).trans (silent_put hput)).trans (silent_addShadowCost hcost)).enqueue
    _ fun e he => ?_
  rw [List.mem_singleton.1 he]
  exact GenerationAttempt.eventType_ne _

theorem quiet_recordFeedback {caller : Caller} {body : FeedbackBody} {feedback : Feedback}
    (h : s.recordFeedback sv caller id body = .ok (feedback, s')) : Quiet s s' := by
  obtain ⟨found, -, h⟩ := Except.bind_eq_ok.1 h
  split at h
  · cases h
  obtain ⟨_, -, h⟩ := Except.bind_eq_ok.1 h
  obtain ⟨_, -, h⟩ := Except.bind_eq_ok.1 h
  obtain ⟨_, -, h⟩ := Except.bind_eq_ok.1 h
  obtain ⟨_, -, h⟩ := Except.bind_eq_ok.1 h
  obtain ⟨_, -, h⟩ := Except.bind_eq_ok.1 h
  obtain ⟨_, -, h⟩ := Except.bind_eq_ok.1 h
  obtain ⟨s₁, hstore, h⟩ := Except.bind_eq_ok.1 h
  cases h
  obtain ⟨s₂, hblob, hstore⟩ := Except.bind_eq_ok.1 hstore
  obtain ⟨s₃, hput, hstore⟩ := Except.bind_eq_ok.1 hstore
  obtain ⟨s₄, happend, hstore⟩ := Except.bind_eq_ok.1 hstore
  cases hstore
  obtain ⟨_, -, happend⟩ := Except.bind_eq_ok.1 happend
  cases happend
  have hsilent : Silent s s₃ := (silent_putPayloads hblob).trans (silent_put hput)
  exact @Silent.enqueue s (s₃.updateInteraction _ _ _) ⟨hsilent.tombstones, hsilent.subjects,
    hsilent.outbox⟩ _ _ (by simp)

theorem silent_sweep {expired : ℕ} (h : s.sweep sv tenant = .ok (expired, s')) : Silent s s' := by
  obtain ⟨interactions, -, h⟩ := Except.bind_eq_ok.1 h
  obtain ⟨s₁, hloop, h⟩ := Except.bind_eq_ok.1 h
  obtain ⟨s₂, hreplays, h⟩ := Except.bind_eq_ok.1 h
  cases h
  have hfirst : Silent s s₁ := by
    refine Except.foldlM_of_invariant (fun _ t => Silent s t) ?_ interactions (.refl s) hloop
    intro i _ t t' ht hstep
    refine ht.trans ?_
    rw [deletePayloads_eq_ok hstep]
    exact ⟨rfl, rfl, rfl⟩
  refine Except.foldlM_of_invariant (fun _ t => Silent s t) ?_ _ hfirst hreplays
  intro e _ t t' ht hstep
  exact ht.trans (onlyPayloads_of_deleteReplay hstep).silent

theorem silent_rotateBatch {cursor ceiling keyVersion : String} {batchSize : ℕ}
    (h : s.rotateBatch sv tenant cursor ceiling keyVersion batchSize = .ok s') : Silent s s' := by
  refine Except.foldlM_of_invariant (fun _ t => Silent s t) ?_ _ (.refl s) h
  intro x _ t t' ht hstep
  obtain ⟨_, _, -, -, hreplace⟩ := rewrap_eq_ok hstep
  refine ht.trans ?_
  rw [replaceCiphertext_eq_ok hreplace]
  exact ⟨rfl, rfl, rfl⟩

theorem quiet_outbox {f : OutboxRow String EventData → OutboxRow String EventData}
    (hevent : ∀ row, (f row).event = row.event) :
    Quiet s { s with outbox := s.outbox.map f } := by
  have hsame : ((·.event) ∘ f : OutboxRow String EventData → _) = (·.event) := funext hevent
  refine ⟨rfl, rfl, ?_, ?_⟩
  · rw [privacyEvents, privacyEvents, List.map_map, hsame]
  · intro id hid
    obtain ⟨row, hrow, rfl⟩ := List.mem_map.1 hid
    refine List.mem_map.2 ⟨f row, List.mem_map_of_mem hrow, ?_⟩
    rw [hevent]

/-! ## Deletions

A deletion makes a tombstone if there is none and enqueues the event of a new one. So the two sets
grow together. -/

/-- The privacy events are those of the tombstones, and the outbox has the ids of all of them. -/
structure AnnouncedInv (s : Store) : Prop where
  events : s.privacyEvents.Perm
    ((s.deletionTombstones ++ s.subjectTombstones).map Tombstone.announcement)
  ids : ∀ t ∈ s.deletionTombstones ++ s.subjectTombstones,
    t.data.deletionRequestId ∈ s.outbox.map (·.event.eventId)

theorem AnnouncedInv.init : AnnouncedInv {} := ⟨List.Perm.refl _, by simp⟩

theorem AnnouncedInv.quiet (h : s.AnnouncedInv) (hquiet : Quiet s s') : s'.AnnouncedInv := by
  constructor
  · rw [hquiet.events, hquiet.tombstones, hquiet.subjects]
    exact h.events
  · rw [hquiet.tombstones, hquiet.subjects]
    exact fun t ht => hquiet.ids (h.ids t ht)

theorem addTombstone_of_none {ts : List Tombstone} {target : String}
    (h : findTombstone ts tenant target = none) (d : DeletionRequest) :
    addTombstone ts ⟨tenant, target, d⟩ = ts ++ [⟨tenant, target, d⟩] := by
  refine if_neg ?_
  rw [Bool.not_eq_true, List.any_eq_false]
  exact List.find?_eq_none.1 (Option.map_eq_none_iff.1 h)

/-- New tombstones whose events are new. -/
theorem AnnouncedInv.extend (h : s.AnnouncedInv) {deletions subjects : List Tombstone}
    {events : List (Event String EventData)}
    (htombstones : s'.deletionTombstones = s.deletionTombstones ++ deletions)
    (hsubjects : s'.subjectTombstones = s.subjectTombstones ++ subjects)
    (houtbox : s'.outbox = s.outbox ++ events.map fun e => { event := e })
    (hevents : announcements events = (deletions ++ subjects).map Tombstone.announcement)
    (hids : ∀ t ∈ deletions ++ subjects, t.data.deletionRequestId ∈ events.map (·.eventId)) :
    s'.AnnouncedInv := by
  have hrows : s'.outbox.map (·.event) = s.outbox.map (·.event) ++ events := by
    simp [houtbox, Function.comp_def]
  constructor
  · have hold := h.events
    rw [privacyEvents, hrows, announcements_append, hevents, htombstones, hsubjects]
    simp only [List.map_append] at hold ⊢
    refine (hold.append_right _).trans ?_
    rw [List.append_assoc, List.append_assoc]
    refine List.Perm.append_left _ ?_
    rw [← List.append_assoc, ← List.append_assoc]
    exact List.perm_append_comm.append_right _
  · intro t ht
    have hmap : s'.outbox.map (·.event.eventId) =
        s.outbox.map (·.event.eventId) ++ events.map (·.eventId) := by
      simp [houtbox, Function.comp_def]
    rw [hmap, List.mem_append]
    rw [htombstones, hsubjects] at ht
    simp only [List.mem_append] at ht hids
    have hold := h.ids t
    rw [List.mem_append] at hold
    rcases ht with (ht | ht) | (ht | ht)
    · exact .inl (hold (.inl ht))
    · exact .inr (hids t (.inl ht))
    · exact .inl (hold (.inr ht))
    · exact .inr (hids t (.inr ht))

/-- The ids of the call are new. -/
structure FreshIds (s : Store) (sv : Services) : Prop where
  injective : Function.Injective sv.uid
  fresh : ∀ k, sv.uid k ∉ s.outbox.map (·.event.eventId)

theorem announced_delete (hprivacy : PrivacyInv s) (hinv : s.AnnouncedInv) (hfresh : s.FreshIds sv)
    {actor : Option String} {deleted : Option (Interaction × DeletionRequest)}
    (h : s.delete sv tenant id actor = .ok (deleted, s')) : s'.AnnouncedInv := by
  obtain ⟨found, hfound, h⟩ := Except.bind_eq_ok.1 h
  split at h
  · cases h
    exact hinv
  rename_i interaction
  obtain ⟨s₁, herase, h⟩ := Except.bind_eq_ok.1 h
  cases h
  obtain ⟨hid, -⟩ := getInteraction_holds hprivacy hfound
  rw [hid] at herase
  cases htomb : s.getTombstone tenant id with
  | some d =>
    rw [htomb, erase_of_tombstoned hprivacy htomb] at herase
    cases herase
    obtain ⟨t, ht, rfl⟩ := Option.map_eq_some_iff.1 htomb
    have hstored := hinv.ids t (List.mem_append_left _ (List.mem_of_find?_eq_some ht))
    rw [Option.getD_some, enqueueEvents_of_stored]
    · exact hinv
    · simpa [deletionEvent] using hstored
  | none =>
    rw [htomb, Option.getD_none] at herase
    rw [Option.getD_none, erase_eq_ok herase, addTombstone_of_none htomb]
    refine hinv.extend rfl (List.append_nil _).symm
      (enqueue_fresh _ _ _ (by simp [deletionEvent, EventType.isOptional]) ?_ (List.nodup_singleton _))
      rfl (by simp [deletionEvent])
    simpa [deletionEvent] using hfresh.fresh 0

/-! ### Subjects -/

/-- The interactions of rows have the ids of the rows. -/
theorem parseAll_ids (hprivacy : PrivacyInv s) {rows : List RecordRow} {interactions : List Interaction}
    (hrows : ∀ row ∈ rows, row ∈ s.records ∧ row.kind = .interactions)
    (h : parseAll rows = .ok interactions) :
    interactions.map (·.interactionId) = rows.map (·.recordId) := by
  unfold parseAll at h
  split at h
  · cases h
  rename_i is hmap
  cases h
  induction rows generalizing interactions with
  | nil =>
    obtain rfl : interactions = [] := by simpa using hmap.symm
    rfl
  | cons row rows ih =>
    obtain ⟨⟨hrow, hkind⟩, hrows⟩ := List.forall_mem_cons.1 hrows
    rw [List.mapM_cons] at hmap
    simp only [Option.bind_eq_bind, Option.bind_eq_some_iff] at hmap
    obtain ⟨i, hi, is, his, hcons⟩ := hmap
    obtain rfl : i :: is = interactions := by simpa using hcons
    rw [List.map_cons, List.map_cons, ih hrows his, (hprivacy.ofJson_row hrow hkind hi).1]

/-- The interactions of a subject are different, and none has a tombstone. -/
theorem forSubject_fresh (hprivacy : PrivacyInv s) {subject : String} {interactions : List Interaction}
    (h : s.forSubject tenant subject = .ok interactions) :
    (interactions.map (·.interactionId)).Nodup ∧
      ∀ i ∈ interactions, s.getTombstone tenant i.interactionId = none := by
  have hrows : ∀ row ∈ s.records.filter (fun row => row.kind = .interactions &&
      row.tenantId = tenant && row.subjectId = some subject && row.state ≠ .deleted),
      row ∈ s.records ∧ row.kind = .interactions ∧ row.tenantId = tenant ∧ row.state ≠ .deleted := by
    intro row hrow
    simp only [List.mem_filter, Bool.and_eq_true, decide_eq_true_eq] at hrow
    exact ⟨hrow.1, hrow.2.1.1.1, hrow.2.1.1.2, hrow.2.2⟩
  have hids := parseAll_ids hprivacy (fun row hrow => ⟨(hrows row hrow).1, (hrows row hrow).2.1⟩) h
  constructor
  · rw [hids]
    refine List.Nodup.map_on ?_ ((hprivacy.keys.of_map).filter _)
    intro row hrow row' hrow' hsame
    obtain ⟨hmem, hkind, htenant, -⟩ := hrows row hrow
    obtain ⟨hmem', hkind', htenant', -⟩ := hrows row' hrow'
    refine hprivacy.row_unique hmem hmem' ?_
    rw [RecordRow.key, RecordRow.key, hkind, hkind', htenant, htenant', hsame]
  · intro i hi
    obtain ⟨row, hrow, hparse⟩ := (parseAll_eq_ok h).2 i hi
    obtain ⟨hmem, hkind, rfl, hstate⟩ := hrows row hrow
    have hnone := hprivacy.not_tombstoned hmem hkind hstate
    rw [(hprivacy.ofJson_row hmem hkind hparse).1] at hnone
    simpa [Tombstoned] using hnone

theorem eraseAll_tombstones {deleted : List (Interaction × DeletionRequest)}
    (hnodup : (deleted.map (·.1.interactionId)).Nodup)
    (hnone : ∀ x ∈ deleted, s.getTombstone tenant x.1.interactionId = none)
    (h : s.eraseAll tenant deleted = .ok s') :
    s'.deletionTombstones = s.deletionTombstones ++
      deleted.map (fun x => ⟨tenant, x.1.interactionId, x.2⟩) ∧ s'.outbox = s.outbox := by
  induction deleted generalizing s with
  | nil =>
    cases h
    simp
  | cons x rest ih =>
    obtain ⟨s₁, hstep, h⟩ := Except.bind_eq_ok.1 h
    obtain ⟨hfresh, hnodup⟩ := List.nodup_cons.1 hnodup
    obtain ⟨hx, hnone⟩ := List.forall_mem_cons.1 hnone
    have hs₁ := erase_eq_ok hstep
    rw [addTombstone_of_none hx] at hs₁
    obtain ⟨htombs, houtbox⟩ := @ih s₁ hnodup (fun y hy => by
      have hne : x.1.interactionId ≠ y.1.interactionId := fun hsame =>
        hfresh (List.mem_map.2 ⟨y, hy, hsame.symm⟩)
      have hold : s.getTombstone tenant y.1.interactionId = none := hnone y hy
      simp only [getTombstone, Option.map_eq_none_iff] at hold ⊢
      rw [hs₁, List.find?_append, hold]
      simp [hne]) h
    rw [htombs, houtbox, hs₁]
    simp

/-- The events of a subject and of its interactions, when all of them are new. -/
theorem AnnouncedInv.deletions (hinv : s.AnnouncedInv) (hfresh : s.FreshIds sv) {n : ℕ}
    {deleted : List (Interaction × DeletionRequest)} {request : DeletionRequest} {subject : String}
    (huids : deleted.map (·.2.deletionRequestId) = (List.range n).map fun k => sv.uid (k + 2))
    (hrequest : request.deletionRequestId = sv.uid 0)
    (htombs : s'.deletionTombstones =
      s.deletionTombstones ++ deleted.map fun x => ⟨tenant, x.1.interactionId, x.2⟩)
    (hsubjects : s'.subjectTombstones = s.subjectTombstones ++ [⟨tenant, subject, request⟩])
    (houtbox : s'.outbox = s.outbox) (pendingLimit : ℕ) (trace : String) :
    (s'.enqueueEvents pendingLimit (deleted.map (fun d => deletionEvent tenant d.1.traceId d.2) ++
      [deletionEvent tenant trace request])).AnnouncedInv := by
  generalize hevents : deleted.map (fun d => deletionEvent tenant d.1.traceId d.2) ++
    [deletionEvent tenant trace request] = events
  have heventIds : events.map (·.eventId) =
      ((List.range n).map fun k => sv.uid (k + 2)) ++ [sv.uid 0] := by
    rw [← hevents, ← huids, ← hrequest]
    simp [deletionEvent, Function.comp_def]
  have hprivacy : ∀ e ∈ events, e.eventType = .privacyDeletionRequested := by
    intro e he
    rw [← hevents] at he
    simp only [List.mem_append, List.mem_map, List.mem_singleton] at he
    obtain ⟨x, -, rfl⟩ | rfl := he <;> rfl
  have hnew : ∀ e ∈ events, e.eventId ∉ s'.outbox.map (·.event.eventId) := by
    intro e he
    have hid : e.eventId ∈ events.map (·.eventId) := List.mem_map_of_mem he
    rw [heventIds, List.mem_append, List.mem_map, List.mem_singleton] at hid
    rw [houtbox]
    rcases hid with ⟨k, -, hid⟩ | hid
    · rw [← hid]
      exact hfresh.fresh (k + 2)
    · rw [hid]
      exact hfresh.fresh 0
  have hdistinct : (events.map (·.eventId)).Nodup := by
    rw [heventIds]
    refine (List.nodup_range.map fun k k' hsame => ?_).append (List.nodup_singleton _) ?_
    · exact Nat.add_right_cancel (hfresh.injective hsame)
    · rw [List.disjoint_singleton, List.mem_map]
      rintro ⟨k, -, hsame⟩
      cases hfresh.injective hsame
  refine @AnnouncedInv.extend _ _ hinv _ _ events htombs hsubjects ?_ ?_ ?_
  · rw [← houtbox]
    exact enqueue_fresh _ _ _ (fun e he => by rw [hprivacy e he]; rfl) hnew hdistinct
  · rw [announcements, List.filter_eq_self.2 (by simpa using hprivacy), ← hevents]
    simp [deletionEvent, Tombstone.announcement, Function.comp_def]
  · intro t ht
    rw [← hevents]
    simp only [List.mem_append, List.mem_map, List.mem_singleton] at ht
    obtain ⟨x, hx, rfl⟩ | rfl := ht
    · simpa [deletionEvent] using .inl ⟨x.1, x.2, hx, rfl⟩
    · simp [deletionEvent]

theorem announced_deleteSubject (hprivacy : PrivacyInv s) (hinv : s.AnnouncedInv)
    (hfresh : s.FreshIds sv) {subject : String} {actor : Option String}
    {deleted : DeletionRequest × List (Interaction × DeletionRequest)}
    (h : s.deleteSubject sv tenant subject actor = .ok (deleted, s')) : s'.AnnouncedInv := by
  have hrun := h
  obtain ⟨interactions, hfound, h⟩ := Except.bind_eq_ok.1 h
  obtain ⟨s₁, htombstone, h⟩ := Except.bind_eq_ok.1 h
  obtain ⟨s₂, hloop, h⟩ := Except.bind_eq_ok.1 h
  obtain ⟨hnodup, hnone⟩ := forSubject_fresh hprivacy hfound
  cases htomb : s.getSubjectTombstone tenant subject with
  | some d =>
    -- the call repeats an earlier one
    rw [htomb, Option.getD_some] at htombstone
    obtain ⟨_, hscope, -⟩ := Except.bind_eq_ok.1 htombstone
    rw [check_eq_ok, decide_eq_true_eq] at hscope
    have hstored : d.deletionRequestId ∈ s.outbox.map (·.event.eventId) := by
      obtain ⟨t, ht, rfl⟩ := Option.map_eq_some_iff.1 htomb
      exact hinv.ids t (List.mem_append_right _ (List.mem_of_find?_eq_some ht))
    rw [SubjectDeleted.delete_again ⟨htomb, hscope, hstored⟩ hprivacy] at hrun
    cases hrun
    exact hinv
  | none =>
    rw [htomb, Option.getD_none] at htombstone
    have hs₁ := tombstoneSubject_eq_ok htombstone
    dsimp only at hs₁
    rw [addTombstone_of_none htomb] at hs₁
    cases h
    rw [htomb, Option.getD_none]
    generalize hdeleted : interactions.mapIdx _ = deleted at hloop ⊢
    have hids : deleted.map (·.1.interactionId) = interactions.map (·.interactionId) := by
      rw [← hdeleted]
      exact List.ext_getElem (by simp) fun k _ _ => by simp
    -- each deletion draws an id of its own
    have huids : deleted.map (·.2.deletionRequestId) =
        (List.range interactions.length).map fun k => sv.uid (k + 2) := by
      rw [← hdeleted]
      refine List.ext_getElem (by simp) fun k hk _ => ?_
      have hk : k < interactions.length := by simpa using hk
      simp [hnone interactions[k] (List.getElem_mem hk)]
    have hnew : ∀ x ∈ deleted, s₁.getTombstone tenant x.1.interactionId = none := by
      intro x hx
      have hmem : x.1.interactionId ∈ interactions.map (·.interactionId) :=
        hids ▸ List.mem_map_of_mem hx
      obtain ⟨i, hi, hsame⟩ := List.mem_map.1 hmem
      rw [hs₁, ← hsame]
      exact hnone i hi
    obtain ⟨htombs, houtbox⟩ := eraseAll_tombstones (hids ▸ hnodup) hnew hloop
    have hsubjects := (eraseAll_writes hloop).2
    rw [hs₁] at htombs houtbox hsubjects
    exact hinv.deletions hfresh huids rfl htombs hsubjects houtbox _ _

/-! ## Runs -/

theorem announced_run (hprivacy : PrivacyInv s) (hinv : s.AnnouncedInv) {op : Operation}
    (hfresh : ∀ sv, op.services = some sv → s.FreshIds sv) (h : op.run s = .ok s') :
    s'.AnnouncedInv := by
  cases op with
  | save sv graph response content fingerprint reservedAt =>
    cases h
    exact hinv.quiet (quiet_save graph response content fingerprint reservedAt)
  | saveShadow sv interaction attempt output policy inputRedactionFailed =>
    obtain ⟨⟨_, _⟩, hcall, rfl⟩ := Except.map_eq_ok.1 h
    exact hinv.quiet (quiet_saveShadow hcall)
  | feedback sv caller interactionId body =>
    obtain ⟨⟨_, _⟩, hcall, rfl⟩ := Except.map_eq_ok.1 h
    exact hinv.quiet (quiet_recordFeedback hcall)
  | sweep sv tenant =>
    obtain ⟨⟨_, _⟩, hcall, rfl⟩ := Except.map_eq_ok.1 h
    exact hinv.quiet (silent_sweep hcall).quiet
  | delete sv tenant interactionId actor =>
    obtain ⟨⟨_, _⟩, hcall, rfl⟩ := Except.map_eq_ok.1 h
    exact announced_delete hprivacy hinv (hfresh sv rfl) hcall
  | deleteSubject sv tenant subject actor =>
    obtain ⟨⟨_, _⟩, hcall, rfl⟩ := Except.map_eq_ok.1 h
    exact announced_deleteSubject hprivacy hinv (hfresh sv rfl) hcall
  | rotate sv tenant cursor ceiling keyVersion batchSize => exact hinv.quiet (silent_rotateBatch h).quiet
  | finish eventId state attempts =>
    cases h
    exact hinv.quiet (quiet_outbox fun row => by split <;> rfl)
  | redeliver eventId =>
    cases h
    exact hinv.quiet (quiet_outbox fun row => by split <;> rfl)

/-- The ids that each operation draws are new: different from each other and from those of the events
    there are. -/
def FreshRun : Store → List Operation → Prop
  | _, [] => True
  | s, op :: ops => (∀ sv, op.services = some sv → s.FreshIds sv) ∧ FreshRun (s.perform op) ops

theorem announced_performAll {ops : List Operation} (hprivacy : PrivacyInv s) (hinv : s.AnnouncedInv)
    (hfresh : FreshRun s ops) : (s.performAll ops).AnnouncedInv := by
  induction ops generalizing s with
  | nil => exact hinv
  | cons op ops ih =>
    obtain ⟨hop, hrest⟩ := hfresh
    rw [performAll_cons]
    refine ih (hprivacy.performAll [op]) ?_ hrest
    unfold perform
    cases hrun : op.run s with
    | error => exact hinv
    | ok s' => exact announced_run hprivacy hinv hop hrun

theorem performAll_snoc {ops : List Operation} {op : Operation} (h : op.run (s.performAll ops) = .ok s') :
    s.performAll (ops ++ [op]) = s' := by
  rw [performAll_append, performAll_cons, performAll_nil, perform, h]
  rfl

/-- **Deleting again.** After any operations, a deletion of an interaction or of a subject that
    succeeded is repeated, by anyone and after any other operations, with success, the same request and
    no change at all; and where new ids are new, there is one privacy event for each tombstone. -/
theorem deletion_idempotent (ops between : List Operation)
    (hcounts : ∀ op ∈ ops ++ between, NoRefs op.counts) :
    (∀ sv tenant id actor i d s,
      (({} : Store).performAll ops).delete sv tenant id actor = .ok (some (i, d), s) →
      ∀ sv' actor', ∃ i', (s.performAll between).delete sv' tenant id actor' =
        .ok (some (i', d), s.performAll between)) ∧
    (∀ sv tenant subject actor d deleted s,
      (({} : Store).performAll ops).deleteSubject sv tenant subject actor = .ok ((d, deleted), s) →
      ∀ sv' actor', (s.performAll between).deleteSubject sv' tenant subject actor' =
        .ok ((d, []), s.performAll between)) ∧
    (FreshRun {} ops → (({} : Store).performAll ops).privacyEvents.Perm
      (((({} : Store).performAll ops).deletionTombstones ++
        (({} : Store).performAll ops).subjectTombstones).map Tombstone.announcement)) := by
  have hprivacy := PrivacyInv.init.performAll ops
  -- the deletion is one more operation of the run
  have hafter : ∀ {op : Operation} {s : Store}, op.counts = [] →
      op.run (({} : Store).performAll ops) = .ok s → PrivacyInv (s.performAll between) ∧
        Remembers s (s.performAll between) ∧ (s.performAll between).ReadableInv := by
    intro op s hnone hrun
    have hs := performAll_snoc hrun
    have hop : ∀ o ∈ ops ++ [op], NoRefs o.counts := by
      intro o ho
      rcases List.mem_append.1 ho with ho | ho
      · exact hcounts o (List.mem_append_left _ ho)
      · rw [List.mem_singleton.1 ho, hnone]
        simp [NoRefs]
    have hkeys : PayloadKeys {} := List.nodup_nil
    obtain ⟨-, hreadable, hkeys⟩ := @performAll_remembers {} (ops ++ [op]) hop (by simp [ReadableInv]) hkeys
    rw [hs] at hreadable hkeys
    obtain ⟨hremembers, hreadable, -⟩ := performAll_remembers
      (fun o ho => hcounts o (List.mem_append_right _ ho)) hreadable hkeys
    have hprivacy := PrivacyInv.init.performAll (ops ++ [op])
    rw [hs] at hprivacy
    exact ⟨hprivacy.performAll between, hremembers, hreadable⟩
  refine ⟨?_, ?_, ?_⟩
  · intro sv tenant id actor i d s h sv' actor'
    obtain ⟨hprivacy', hremembers, hreadable⟩ := @hafter (.delete sv tenant id actor) s rfl
      (Except.map_eq_ok.2 ⟨_, h, rfl⟩)
    exact ((deleted_of_delete hprivacy h).remembered hremembers).delete_again hprivacy' hreadable sv' actor'
  · intro sv tenant subject actor d deleted s h sv' actor'
    obtain ⟨hprivacy', hremembers, -⟩ := @hafter (.deleteSubject sv tenant subject actor) s rfl
      (Except.map_eq_ok.2 ⟨_, h, rfl⟩)
    exact ((subjectDeleted_of_deleteSubject hprivacy h).remembered hremembers).delete_again hprivacy' sv'
      actor'
  · intro hfresh
    exact (announced_performAll .init .init hfresh).events

end Store

/-! An interaction that is deleted, whose subject is deleted after it. -/

namespace ForgottenTwice

open SupportStore

/-- The ids of one call. -/
def ids (call : Char) (k : ℕ) : String := String.ofList (call :: List.replicate k 'x')

/-- The services of one call, whose identifiers are its own. -/
def during (call : Char) (n : ℕ) : Services := { services n with uid := ids call }

/-- An interaction is saved. -/
def saved : Operation :=
  .save (during 'a' 0) graph (some ⟨"hello", []⟩)
    { messagesJson := some "messages", query := some "query", output := some "hello",
      counts := [("emails", 1)] } "print" 0

/-- It is deleted, and then the subject. -/
def overlapping : List Operation :=
  [saved, .delete (during 'b' 5) "acme" "i1" none, .deleteSubject (during 'c' 6) "acme" "alice" none]

theorem during_fresh {s : Store} (call : Char) (n : ℕ)
    (h : ∀ id ∈ s.outbox.map (·.event.eventId), id.toList.head? ≠ some call) :
    s.FreshIds (during call n) where
  injective k k' hsame := by
    have hlength := congrArg (fun id : String => id.toList.length) hsame
    simpa [during, ids] using hlength
  fresh k hmem := h _ hmem (by simp [during, ids])

theorem overlapping_fresh : Store.FreshRun {} overlapping := by
  refine ⟨?_, ?_, ?_, trivial⟩ <;> rintro sv hsv <;> cases hsv <;>
    exact during_fresh _ _ (by decide +kernel)

theorem overlapping_noRefs : ∀ op ∈ overlapping ++ [.sweep (during 'd' 9) "acme"], NoRefs op.counts := by
  intro op hop
  simp only [overlapping, saved, List.cons_append, List.nil_append, List.mem_cons, List.not_mem_nil,
    or_false] at hop
  rcases hop with rfl | rfl | rfl | rfl
  · have hname : isRef "emails" = false := by decide
    simp [Operation.counts, NoRefs, hname]
  all_goals simp [Operation.counts, NoRefs]

end ForgottenTwice

open ForgottenTwice in
/-- The interaction's deletion is repeated after that of its subject, which left two privacy events. -/
theorem forgotten_twice :
    (∃ i d s, ((({} : Store).performAll overlapping).delete (during 'e' 9) "acme" "i1" none =
        .ok (some (i, d), s)) ∧ ∃ i', (s.performAll [.sweep (during 'd' 9) "acme"]).delete
          (during 'f' 9) "acme" "i1" (some "bob") =
            .ok (some (i', d), s.performAll [.sweep (during 'd' 9) "acme"])) ∧
      (({} : Store).performAll overlapping).privacyEvents.length = 2 := by
  obtain ⟨hdelete, -, hevents⟩ := Store.deletion_idempotent overlapping
    [.sweep (during 'd' 9) "acme"] overlapping_noRefs
  constructor
  · have hok : ((({} : Store).performAll overlapping).delete (during 'e' 9) "acme" "i1" none).toOption.any
        (·.1.isSome) = true := by
      decide +kernel
    cases h : (({} : Store).performAll overlapping).delete (during 'e' 9) "acme" "i1" none with
    | error e =>
      rw [h] at hok
      cases hok
    | ok r =>
      rw [h] at hok
      obtain ⟨_ | ⟨i, d⟩, s⟩ := r
      · cases hok
      · exact ⟨i, d, s, rfl, hdelete _ _ _ _ i d s h _ _⟩
  · have hlength := (hevents overlapping_fresh).length_eq
    rw [hlength]
    decide +kernel

end Stored

end AdaptiveLlm
