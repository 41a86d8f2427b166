import AdaptiveLlm.Storage.Eviction
import AdaptiveLlm.Storage.Operations

set_option autoImplicit false

/-! # What operations change

`Write` says which changes respect the tombstones. A `Change` says more of less: of a payload, which
encryption made it and that it expires with its interaction, of a replay, that its payload was put with
it, of a row, where its data comes from. Every operation is a sequence of changes, so that an invariant
of a run is one lemma for each change.

The changes are those that the tables see: a row is put, a payload inserted or deleted, a replay put
or deleted, an event inserted, and so on. Each carries the evidence that the transaction had for
making it. So a new invariant of the store takes one lemma for each change, and
`performAll_of_changes` does the rest; retention, eviction and replay fidelity are proved so. -/

namespace AdaptiveLlm

namespace Stored

/-- The field of a shadow output, whose payload expires by the policy of its own attempt. -/
def isShadow (field : String) : Bool := "shadow_output.".toList.isPrefixOf field.toList

open Store

/-- What the calls of a run bring along: services, counts of redactions, and replays with their text. -/
structure Brought where
  used : Services → Prop := fun _ => True
  counted : List (String × ℕ) → Prop := fun _ => True
  stored : ReplayRecord → String → Prop := fun _ _ => True

/-- The changes, by calls that bring along what `b` allows. -/
inductive Change (b : Brought) : Store → Store → Prop
  | put {s s' : Store} (tenant : String) (record : StoredRecord) (expires : ℤ)
      (counts : ∀ i, record = .interaction i → b.counted i.policy.persistenceRedactionCounts)
      (done : s.put tenant record expires = .ok s') : Change b s s'
  /-- an interaction is written back with another cost or with a feedback more -/
  | update {s : Store} (tenant id : String) (old new : Interaction)
      (found : ∃ row ∈ s.records, row.kind = .interactions ∧ Interaction.ofJson row.data = some old)
      (policy : new.policy = old.policy) :
      Change b s (s.updateInteraction tenant id new)
  | payload {s s' : Store} (sv : Services) (hsv : b.used sv) {k : ℕ}
      {content tenant id field : String} {expiry : ℤ} {p : EncryptedPayload}
      (encrypted : sv.encrypt k content tenant id field expiry = .ok p) (notReplay : field ≠ "replay")
      (expires : isShadow field = false → s.expiresAt tenant id = some expiry)
      (done : s.putPayload p = .ok s') : Change b s s'
  | replay {s s₁ s' : Store} (sv : Services) (hsv : b.used sv) {k : ℕ} {content : String}
      (e : ReplayRecord) (capacity : ℕ) {p : EncryptedPayload}
      (encrypted : sv.encrypt k content e.tenantId e.interactionId "replay" e.expiresAt = .ok p)
      (reference : e.responseRef = p.reference) (allowed : b.stored e content)
      (put : s.putPayload p = .ok s₁) (done : s₁.replaceReplay e capacity = .ok s') : Change b s s'
  | expire {s s' : Store} (tenant id : String)
      (done : (s.clearRefs tenant id .expired).deleteInteraction tenant id = .ok s') :
      Change b s s'
  | expireReplay {s s' : Store} (tenant applicationId requestId : String)
      (done : s.deleteReplay tenant applicationId requestId = .ok s') : Change b s s'
  | erase {s s' : Store} (tenant id : String) (deletion : DeletionRequest)
      (done : s.erase tenant id deletion = .ok s') : Change b s s'
  | tombstoneSubject {s s' : Store} (tenant : String) (deletion : DeletionRequest)
      (done : s.tombstoneSubject tenant deletion = .ok s') : Change b s s'
  | events {s : Store} (pendingLimit : ℕ) (events : List (Event String EventData)) :
      Change b s (s.enqueueEvents pendingLimit events)
  | rewrap {s s' : Store} (sv : Services) (hsv : b.used sv) (k : ℕ) (p : EncryptedPayload)
      (row : ∀ q ∈ s.payloads, q.tenantId = p.tenantId → q.reference = p.reference → q = p)
      (done : s.rewrap sv k p = .ok s') : Change b s s'
  | outbox {s : Store} (f : OutboxRow String EventData → OutboxRow String EventData)
      (event : ∀ row, (f row).event = row.event) :
      Change b s { s with outbox := s.outbox.map f }

/-- Changes, one after the other. -/
abbrev Changes (b : Brought) : Store → Store → Prop := Relation.ReflTransGen (Change b)

section Graph

variable {sv : Services} {graph : InteractionGraph} {response : Option InferenceResponse}
  {content : PersistenceContent} {fingerprint : String} {reservedAt expires replayExpires : ℤ}

/-! ## The sealed graph -/

/-- A payload of an interaction other than its replay. -/
structure Services.Seals (sv : Services) (i : Interaction) (expires : ℤ) (p : EncryptedPayload) : Prop where
  made : ∃ k content field, sv.encrypt k content i.tenantId i.interactionId field expires = .ok p ∧
    field ≠ "replay" ∧ isShadow field = false

/-- The replay of a response: the text of its payload is the response with the redacted content. -/
structure Services.SealsReplay (sv : Services) (i : Interaction) (fingerprint : String)
    (reservedAt replayExpires : ℤ) (output : String) (response : InferenceResponse)
    (p : EncryptedPayload) (e : ReplayRecord) : Prop where
  made : sv.encrypt 4 (sv.dumps { response with content := output }.toJson) i.tenantId i.interactionId
    "replay" replayExpires = .ok p
  entry : e = {
    tenantId := i.tenantId
    applicationId := i.applicationId
    requestId := i.requestId
    interactionId := i.interactionId
    fingerprint
    responseRef := p.reference
    reservedAt
    expiresAt := replayExpires }

/-- What `sealGraph` makes of a graph. -/
structure Services.SealedAs (sv : Services) (graph : InteractionGraph)
    (response : Option InferenceResponse) (content : PersistenceContent) (fingerprint : String)
    (reservedAt expires replayExpires : ℤ) (g : SealedGraph) : Prop where
  interaction : ∃ input, g.graph.interaction = { graph.interaction with input }
  blobs : ∃ plain, (∀ p ∈ plain, sv.Seals graph.interaction expires p) ∧
    ((g.blobs = plain ∧ g.replay = none) ∨ ∃ output r p e, content.output = some output ∧
      response = some r ∧ g.blobs = plain ++ [p] ∧ g.replay = some e ∧
      sv.SealsReplay graph.interaction fingerprint reservedAt replayExpires output r p e)

theorem Services.encryptSome_eq_ok {k : ℕ} {text : Option String} {i : Interaction} {field : String}
    {blob : Option EncryptedPayload} (hreplay : field ≠ "replay") (hshadow : isShadow field = false)
    (h : sv.encryptSome k text i field expires = .ok blob) :
    ∀ p ∈ blob.toList, sv.Seals i expires p := by
  cases text with
  | none =>
    cases h
    simp
  | some text =>
    obtain ⟨p, hp, rfl⟩ := Except.map_eq_ok.1 h
    intro q hq
    rw [Option.toList_some, List.mem_singleton] at hq
    exact ⟨⟨k, text, field, hq ▸ hp, hreplay, hshadow⟩⟩

theorem Services.sealOutput_eq_ok {g : SealedGraph} {r : InferenceResponse} {output : String}
    (h : sv.sealOutput graph r output fingerprint reservedAt expires replayExpires = .ok g) :
    g.graph.interaction = graph.interaction ∧ ∃ plain p e,
      (∀ p ∈ plain, sv.Seals graph.interaction expires p) ∧ g.blobs = plain ++ [p] ∧
      g.replay = some e ∧
      sv.SealsReplay graph.interaction fingerprint reservedAt replayExpires output r p e := by
  obtain ⟨blob, hblob, h⟩ := Except.bind_eq_ok.1 h
  obtain ⟨attempts, -, h⟩ := Except.bind_eq_ok.1 h
  obtain ⟨p, hp, h⟩ := Except.bind_eq_ok.1 h
  cases h
  exact ⟨rfl, blob.toList, p, _, encryptSome_eq_ok (by decide) (by decide) hblob, rfl, rfl, hp, rfl⟩

theorem Services.sealGraph_eq_ok {g : SealedGraph}
    (h : sv.sealGraph graph response content fingerprint reservedAt expires replayExpires = .ok g) :
    sv.SealedAs graph response content fingerprint reservedAt expires replayExpires g := by
  unfold sealGraph at h
  split at h
  · cases h
    exact ⟨⟨_, rfl⟩, [], by simp, .inl ⟨rfl, rfl⟩⟩
  split at h
  · obtain ⟨messages, hmessages, h⟩ := Except.bind_eq_ok.1 h
    obtain ⟨format, hformat, h⟩ := Except.bind_eq_ok.1 h
    obtain ⟨query, hquery, h⟩ := Except.bind_eq_ok.1 h
    have hplain : ∀ p ∈ messages.toList ++ format.toList ++ query.toList,
        sv.Seals graph.interaction expires p := by
      intro p hp
      rcases List.mem_append.1 hp with hp | hp
      · rcases List.mem_append.1 hp with hp | hp
        · exact encryptSome_eq_ok (by decide) (by decide) hmessages p hp
        · exact encryptSome_eq_ok (by decide) (by decide) hformat p hp
      · exact encryptSome_eq_ok (by decide) (by decide) hquery p hp
    have hwithout : g.graph.interaction = { graph.interaction with input := g.graph.interaction.input } ∧
        g.blobs = messages.toList ++ format.toList ++ query.toList ∧ g.replay = none →
        sv.SealedAs graph response content fingerprint reservedAt expires replayExpires g :=
      fun ⟨hinteraction, hblobs, hreplay⟩ =>
        ⟨⟨_, hinteraction⟩, _, hplain, .inl ⟨hblobs, hreplay⟩⟩
    cases houtput : content.output with
    | none =>
      rw [houtput] at h
      cases h
      exact hwithout ⟨rfl, rfl, rfl⟩
    | some output =>
      rw [houtput] at h
      cases response with
      | none =>
        cases h
        exact hwithout ⟨rfl, rfl, rfl⟩
      | some r =>
        obtain ⟨sealedOutput, hsealed, h⟩ := Except.bind_eq_ok.1 h
        cases h
        obtain ⟨hinteraction, plain, p, e, hmore, hblobs, hreplay, hseals⟩ := sealOutput_eq_ok hsealed
        refine ⟨⟨_, hinteraction⟩, messages.toList ++ format.toList ++ query.toList ++ plain, ?_,
          .inr ⟨output, r, p, e, houtput, rfl, ?_, hreplay, ⟨hseals.made, hseals.entry⟩⟩⟩
        · intro q hq
          rcases List.mem_append.1 hq with hq | hq
          · exact hplain q hq
          · exact ⟨(hmore q hq).made⟩
        · simp [hblobs]
  · cases h

end Graph

/-! ## Methods of the store -/

namespace Store

variable {b : Brought} {s s' : Store}
  {tenant id : String}

/-- The data of the row that was read. -/
theorem getInteraction_row {i : Interaction} (h : s.getInteraction tenant id = .ok (some i)) :
    ∃ row ∈ s.records, row.kind = .interactions ∧ Interaction.ofJson row.data = some i := by
  unfold getInteraction at h
  split at h
  · cases h
  rename_i row hrow
  split at h
  · cases h
  rename_i hparse
  cases h
  obtain ⟨hmem, hkind, -⟩ := interactionRow_eq_some hrow
  exact ⟨row, hmem, hkind, hparse⟩

/-- An interaction's row is the one that is read. -/
theorem interactionRow_of_mem (hprivacy : PrivacyInv s) {row : RecordRow} (hrow : row ∈ s.records)
    (hkind : row.kind = .interactions) : s.interactionRow row.tenantId row.recordId = some row := by
  cases hfind : s.interactionRow row.tenantId row.recordId with
  | none =>
    have hnone := List.find?_eq_none.1 hfind row hrow
    simp [hkind] at hnone
  | some found =>
    obtain ⟨hfound, hkind', htenant, hid⟩ := interactionRow_eq_some hfind
    rw [hprivacy.row_unique hfound hrow (by simp [RecordRow.key, *])]

/-- Every interaction that `s` has expires in `s'` when it expires in `s`. -/
def KeepsExpiry (s s' : Store) : Prop :=
  ∀ tenant id expires, s.expiresAt tenant id = some expires → s'.expiresAt tenant id = some expires

theorem KeepsExpiry.refl (s : Store) : KeepsExpiry s s := fun _ _ _ h => h

theorem KeepsExpiry.trans {t : Store} (h : KeepsExpiry s t) (h' : KeepsExpiry t s') :
    KeepsExpiry s s' := fun tenant id expires hexpires => h' tenant id expires
      (h tenant id expires hexpires)

theorem keepsExpiry_of_records (h : s'.records = s.records) : KeepsExpiry s s' := by
  intro tenant id expires hexpires
  unfold expiresAt interactionRow at *
  rwa [h]

theorem interactionRow_append {row : RecordRow} {rows : List RecordRow}
    (h : s.interactionRow tenant id = some row) :
    ({ s with records := s.records ++ rows } : Store).interactionRow tenant id = some row := by
  unfold interactionRow at *
  rw [List.find?_append, h]
  rfl

theorem put_keepsExpiry {record : StoredRecord} {expires : ℤ}
    (h : s.put tenant record expires = .ok s') : KeepsExpiry s s' := by
  intro tenant' id expires' hexpires
  obtain ⟨row, hrow, rfl⟩ := Option.map_eq_some_iff.1 hexpires
  rw [(put_eq_ok h).2]
  exact Option.map_eq_some_iff.2 ⟨row, interactionRow_append hrow, rfl⟩

/-- An interaction that is put is new. -/
theorem put_fresh {i : Interaction} {expires : ℤ}
    (h : s.put tenant (.interaction i) expires = .ok s') :
    s.interactionRow tenant i.interactionId = none := by
  obtain ⟨_, -, h⟩ := Except.bind_eq_ok.1 h
  obtain ⟨_, -, h⟩ := Except.bind_eq_ok.1 h
  obtain ⟨_, hfresh, -⟩ := Except.bind_eq_ok.1 h
  rw [check_eq_ok, Bool.not_eq_true', List.any_eq_false] at hfresh
  exact List.find?_eq_none.2 hfresh

/-- An interaction that was put expires when it was to. -/
theorem put_expiresAt {i : Interaction} {expires : ℤ}
    (h : s.put tenant (.interaction i) expires = .ok s') :
    s'.expiresAt tenant i.interactionId = some expires := by
  have hnone := put_fresh h
  rw [(put_eq_ok h).2]
  unfold expiresAt interactionRow at *
  rw [List.find?_append, hnone]
  simp [rowOf, StoredRecord.kind, StoredRecord.recordId]

theorem putAll_changes {records : List StoredRecord} {expires : ℤ}
    (hcounts : ∀ i, .interaction i ∈ records → b.counted i.policy.persistenceRedactionCounts)
    (h : records.foldlM (fun (s : Store) record => s.put tenant record expires) s = .ok s') :
    Changes b s s' ∧ KeepsExpiry s s' := by
  have hend := Except.foldlM_of_invariant
    (fun rest t => (Changes b s t ∧ KeepsExpiry s t) ∧ ∀ record ∈ rest, record ∈ records)
    ?_ records ⟨⟨.refl, .refl s⟩, fun _ h => h⟩ h
  · exact hend.1
  rintro record rest t t' ⟨⟨hrun, hkeeps⟩, hrest⟩ hput
  refine ⟨⟨hrun.tail (.put tenant record expires (fun i hi => ?_) hput),
    hkeeps.trans (put_keepsExpiry hput)⟩, fun r hr => hrest r (List.mem_cons_of_mem _ hr)⟩
  exact hcounts i (hi ▸ hrest record List.mem_cons_self)

/-- Payloads of an interaction other than its replay, which expire with it unless they are shadow
    outputs. -/
theorem putPayloads_changes {sv : Services} (hsv : b.used sv) {expiry : ℤ}
    {blobs : List EncryptedPayload}
    (hblobs : ∀ p ∈ blobs, ∃ k content field, sv.encrypt k content tenant id field expiry = .ok p ∧
      field ≠ "replay" ∧ (isShadow field = false → s.expiresAt tenant id = some expiry))
    (h : blobs.foldlM (fun (s : Store) blob => s.putPayload blob) s = .ok s') :
    Changes b s s' ∧ s'.records = s.records := by
  have hend := Except.foldlM_of_invariant
    (fun rest t => (Changes b s t ∧ t.records = s.records) ∧ ∀ p ∈ rest, p ∈ blobs)
    ?_ blobs ⟨⟨.refl, rfl⟩, fun _ h => h⟩ h
  · exact hend.1
  rintro p rest t t' ⟨⟨hrun, hsame⟩, hrest⟩ hput
  obtain ⟨k, content, field, hmade, hreplay, hexpiry⟩ := hblobs p (hrest p List.mem_cons_self)
  exact ⟨⟨hrun.tail (.payload sv hsv hmade hreplay
    (fun hfield => keepsExpiry_of_records hsame _ _ _ (hexpiry hfield)) hput),
    (putPayload_eq_ok hput).2.trans hsame⟩, fun q hq => hrest q (List.mem_cons_of_mem _ hq)⟩

/-! ## Transactions

The transactions are gone through once more, now with the evidence that the smaller changes carry:
which encryption made a payload, and when what it belongs to expires. -/

section Transactions

variable {sv : Services}

theorem saveGraph_changes (hsv : b.used sv) {graph : InteractionGraph}
    {response : Option InferenceResponse} {content : PersistenceContent} {fingerprint : String}
    {reservedAt expires replayExpires : ℤ} {g : SealedGraph} {events : List (Event String EventData)}
    (hcounts : b.counted graph.interaction.policy.persistenceRedactionCounts)
    (hstored : s.interactionRow graph.interaction.tenantId graph.interaction.interactionId = none →
      ∀ output r p e, content.output = some output → response = some r → g.replay = some e →
        sv.SealsReplay graph.interaction fingerprint reservedAt replayExpires output r p e →
        b.stored e (sv.dumps { r with content := output }.toJson))
    (hg : sv.SealedAs graph response content fingerprint reservedAt expires replayExpires g)
    (h : s.saveGraph sv g expires events = .ok s') : Changes b s s' := by
  obtain ⟨s₁, hrecords, h⟩ := Except.bind_eq_ok.1 h
  obtain ⟨s₂, hblobs, h⟩ := Except.bind_eq_ok.1 h
  obtain ⟨s₃, hreplay, h⟩ := Except.bind_eq_ok.1 h
  cases h
  obtain ⟨input, hinteraction⟩ := hg.interaction
  have htenant : g.graph.interaction.tenantId = graph.interaction.tenantId := by rw [hinteraction]
  have hid : g.graph.interaction.interactionId = graph.interaction.interactionId := by
    rw [hinteraction]
  have hpolicy : g.graph.interaction.policy = graph.interaction.policy := by rw [hinteraction]
  -- the interaction comes first, and with it when its payloads expire
  obtain ⟨s₀, hput, hrest⟩ := Except.bind_eq_ok.1 hrecords
  have hnew := put_fresh hput
  rw [htenant, hid] at hnew
  have hrows : Changes b s s₁ ∧ s₁.expiresAt graph.interaction.tenantId
      graph.interaction.interactionId = some expires := by
    have hfirst : Change b s s₀ := by
      refine .put _ _ expires (fun i hi => ?_) hput
      cases hi
      exact hpolicy ▸ hcounts
    obtain ⟨hchanges, hkeeps⟩ := @putAll_changes b s₀ s₁ _ _ expires (by simp) hrest
    refine ⟨.head hfirst hchanges, hkeeps _ _ _ ?_⟩
    rw [← htenant, ← hid]
    exact put_expiresAt hput
  have hready : ∀ plain : List EncryptedPayload, (∀ p ∈ plain, sv.Seals graph.interaction expires p) →
      ∀ p ∈ plain, ∃ k content field, sv.encrypt k content graph.interaction.tenantId
        graph.interaction.interactionId field expires = .ok p ∧ field ≠ "replay" ∧
        (isShadow field = false → s₁.expiresAt graph.interaction.tenantId
          graph.interaction.interactionId = some expires) := by
    intro plain hplain p hp
    obtain ⟨k, content, field, hmade, hreplay, -⟩ := (hplain p hp).made
    exact ⟨k, content, field, hmade, hreplay, fun _ => hrows.2⟩
  obtain ⟨plain, hplain, ⟨hall, hnone⟩ | ⟨output, r, p, e, houtput, hresponse,
    hall, hsome, hseals⟩⟩ := hg.blobs
  · rw [hall] at hblobs
    rw [hnone] at hreplay
    cases hreplay
    have hput := (@putPayloads_changes b s₁ s₂ _ _ sv hsv _ _ (hready _ hplain) hblobs).1
    exact (hrows.1.trans hput).tail (.events _ _)
  · rw [hall, List.foldlM_append] at hblobs
    obtain ⟨t, hplainBlobs, hlast⟩ := Except.bind_eq_ok.1 hblobs
    obtain ⟨t', hput, hend⟩ := Except.bind_eq_ok.1 hlast
    cases hend
    rw [hsome] at hreplay
    have hput' := (@putPayloads_changes b s₁ t _ _ sv hsv _ _ (hready _ hplain)
      hplainBlobs).1
    have hallowed := hstored hnew output r p e houtput hresponse hsome hseals
    obtain ⟨hmade, hentry⟩ := hseals
    have hreplaced : s₂.replaceReplay e sv.replayCapacity = .ok s₃ := by
      rw [hinteraction] at hreplay
      rw [hentry] at hreplay ⊢
      exact hreplay
    subst hentry
    exact ((hrows.1.trans hput').tail (.replay sv hsv _ _ hmade rfl hallowed hput hreplaced)).tail
      (.events _ _)

/-- A save whose interaction is new puts no replay but its own. -/
theorem save_changes (hsv : b.used sv) {graph : InteractionGraph} {response : Option InferenceResponse}
    {content : PersistenceContent} (hcounts : b.counted content.counts) (fingerprint : String)
    (reservedAt : ℤ)
    (hstored : s.interactionRow graph.interaction.tenantId graph.interaction.interactionId = none →
      ∀ output r e, content.output = some output → response = some r →
        (s.save sv graph response content fingerprint reservedAt).1.2 = some e →
        e.tenantId = graph.interaction.tenantId → e.interactionId = graph.interaction.interactionId →
        b.stored e (sv.dumps { r with content := output }.toJson)) :
    Changes b s (s.save sv graph response content fingerprint reservedAt).2 := by
  unfold save at hstored ⊢
  dsimp only at hstored ⊢
  split
  · exact .refl
  · rename_i g t htry
    rw [htry] at hstored
    obtain ⟨g, hg, h⟩ := Except.bind_eq_ok.1 htry
    obtain ⟨t, hgraph, h⟩ := Except.bind_eq_ok.1 h
    cases h
    refine saveGraph_changes hsv hcounts (fun hnone output r p e houtput hresponse he hseals => ?_)
      (Services.sealGraph_eq_ok hg) hgraph
    have hentry := hseals.entry
    exact hstored hnone output r e houtput hresponse he (by rw [hentry]) (by rw [hentry])

theorem addShadowCost_changes {costMicros : ℕ} (h : s.addShadowCost tenant id costMicros = .ok s') :
    Changes b s s' := by
  obtain ⟨_, -, h⟩ := Except.bind_eq_ok.1 h
  obtain ⟨found, hfound, h⟩ := Except.bind_eq_ok.1 h
  split at h
  · cases h
    exact .refl
  · rename_i record
    cases h
    exact .single (.update tenant id record _ (getInteraction_row hfound) rfl)

/-- The field of a shadow output is one. -/
theorem isShadow_append (attemptId : String) : isShadow ("shadow_output." ++ attemptId) = true := by
  unfold isShadow
  rw [List.isPrefixOf_iff_prefix, String.toList_append]
  exact List.prefix_append _ _

theorem ne_replay_of_isShadow {field : String} (h : isShadow field = true) : field ≠ "replay" := by
  rintro rfl
  revert h
  decide

theorem shadowPayload_eq_ok {interaction : Interaction} {attempt : GenerationAttempt}
    {policy : PolicyDecision} {content : PersistenceContent} {expires : ℤ}
    {blob : Option EncryptedPayload}
    (h : shadowPayload sv interaction attempt policy content expires = .ok blob) :
    ∀ p ∈ blob.toList, ∃ content field, isShadow field = true ∧
      sv.encrypt 0 content interaction.tenantId interaction.interactionId field expires = .ok p := by
  unfold shadowPayload Services.encryptSome at h
  split at h
  · cases h
    simp
  · obtain ⟨p, hp, rfl⟩ := Except.map_eq_ok.1 h
    intro q hq
    rw [Option.toList_some, List.mem_singleton] at hq
    exact ⟨_, _, isShadow_append attempt.attemptId, hq ▸ hp⟩

theorem saveShadowAttempt_changes (hsv : b.used sv) {interaction : Interaction}
    {attempt : GenerationAttempt} {policy : PolicyDecision} {content : PersistenceContent}
    {expires : ℤ} {saved : Bool} (h : s.saveShadowAttempt sv interaction attempt policy content expires =
      .ok (saved, s')) : Changes b s s' := by
  unfold saveShadowAttempt at h
  dsimp only at h
  split at h
  · cases h
    exact .refl
  obtain ⟨blob, hmade, h⟩ := Except.bind_eq_ok.1 h
  obtain ⟨s₁, hblob, h⟩ := Except.bind_eq_ok.1 h
  obtain ⟨s₂, hput, h⟩ := Except.bind_eq_ok.1 h
  obtain ⟨s₃, hcost, h⟩ := Except.bind_eq_ok.1 h
  cases h
  obtain ⟨hfirst, -⟩ := @putPayloads_changes b s s₁ interaction.tenantId
    interaction.interactionId sv hsv expires _ (fun p hp => by
      obtain ⟨text, field, hshadow, hencrypt⟩ := shadowPayload_eq_ok hmade p hp
      exact ⟨0, text, field, hencrypt, ne_replay_of_isShadow hshadow, by simp [hshadow]⟩) hblob
  exact ((hfirst.tail (.put _ _ _ (by simp) hput)).trans (addShadowCost_changes hcost)).tail
    (.events _ _)

theorem saveShadow_changes (hsv : b.used sv) {interaction : Interaction} {attempt : GenerationAttempt}
    {output : Option String} {policy : PolicyDecision} {inputRedactionFailed saved : Bool}
    (h : s.saveShadow sv interaction attempt output policy inputRedactionFailed = .ok (saved, s')) :
    Changes b s s' := by
  unfold saveShadow at h
  dsimp only at h
  split at h
  · cases h
    exact .refl
  · exact saveShadowAttempt_changes hsv h

/-- The payload of a feedback is a comment or a correction. -/
theorem sealFeedback_eq_ok {body : FeedbackBody} {feedback : Feedback} {policy : PolicyDecision}
    {format : Option ResponseFormat} {expires : ℤ} {out : Feedback × Option EncryptedPayload}
    (h : sealFeedback sv tenant id body feedback policy format expires = .ok out) :
    ∀ p ∈ out.2.toList, ∃ content field,
      sv.encrypt 0 content tenant id field expires = .ok p ∧ field ≠ "replay" := by
  unfold sealFeedback at h
  split at h
  · cases h
    simp
  split at h
  · cases h
    simp
  split at h
  · cases h
    simp
  · obtain ⟨_, -, h⟩ := Except.bind_eq_ok.1 h
    obtain ⟨blob, hblob, h⟩ := Except.bind_eq_ok.1 h
    cases h
    intro p hp
    rw [Option.toList_some, List.mem_singleton] at hp
    refine ⟨_, _, hp ▸ hblob, ?_⟩
    split <;> decide

/-- Feedback is recorded for a stored interaction. -/
theorem feedbackActive_expiresAt {interaction : Interaction} {u : Unit}
    (h : check (!s.feedbackInactive sv tenant id interaction) .interactionInactive = .ok u) :
    s.expiresAt tenant id = some ((s.expiresAt tenant id).getD 0) := by
  rw [check_eq_ok] at h
  unfold feedbackInactive at h
  cases hexpires : s.expiresAt tenant id with
  | none => simp [hexpires] at h
  | some expires => rfl

theorem recordFeedback_changes (hsv : b.used sv) {caller : Caller} {body : FeedbackBody}
    {feedback : Feedback} (h : s.recordFeedback sv caller id body = .ok (feedback, s')) :
    Changes b s s' := by
  obtain ⟨found, hfound, h⟩ := Except.bind_eq_ok.1 h
  split at h
  · cases h
  rename_i interaction
  obtain ⟨_, -, h⟩ := Except.bind_eq_ok.1 h
  obtain ⟨_, -, h⟩ := Except.bind_eq_ok.1 h
  obtain ⟨_, -, h⟩ := Except.bind_eq_ok.1 h
  obtain ⟨_, hactive, h⟩ := Except.bind_eq_ok.1 h
  obtain ⟨_, -, h⟩ := Except.bind_eq_ok.1 h
  obtain ⟨⟨feedback, blob⟩, hseal, h⟩ := Except.bind_eq_ok.1 h
  obtain ⟨s₁, hstore, h⟩ := Except.bind_eq_ok.1 h
  cases h
  obtain ⟨s₂, hblob, hstore⟩ := Except.bind_eq_ok.1 hstore
  obtain ⟨s₃, hput, hstore⟩ := Except.bind_eq_ok.1 hstore
  obtain ⟨s₄, happend, hstore⟩ := Except.bind_eq_ok.1 hstore
  cases hstore
  obtain ⟨hfirst, hrecords⟩ := @putPayloads_changes b s s₂ caller.tenantId id sv hsv _ _
    (fun p hp => by
      obtain ⟨content, field, hmade, hreplay⟩ := sealFeedback_eq_ok hseal p hp
      exact ⟨0, content, field, hmade, hreplay, fun _ => feedbackActive_expiresAt hactive⟩) hblob
  obtain ⟨_, -, happend⟩ := Except.bind_eq_ok.1 happend
  cases happend
  obtain ⟨row, hrow, hparse⟩ := getInteraction_row hfound
  have hkept : row ∈ s₃.records := by
    rw [(put_eq_ok hput).2]
    exact List.mem_append_left _ (hrecords ▸ hrow)
  have happended : Change b s₃ (s₃.updateInteraction caller.tenantId
      interaction.interactionId { interaction with
        feedbackIds := interaction.feedbackIds ++ [feedback.feedbackId] }) :=
    .update _ _ interaction _ ⟨row, hkept, hparse⟩ rfl
  exact ((hfirst.tail (.put _ _ _ (by simp) hput)).tail happended).tail (.events _ _)

theorem sweep_changes {expired : ℕ} (h : s.sweep sv tenant = .ok (expired, s')) :
    Changes b s s' := by
  obtain ⟨interactions, -, h⟩ := Except.bind_eq_ok.1 h
  obtain ⟨s₁, hloop, h⟩ := Except.bind_eq_ok.1 h
  obtain ⟨s₂, hreplays, h⟩ := Except.bind_eq_ok.1 h
  cases h
  have hfirst : Changes b s s₁ :=
    Except.foldlM_reflTransGen _ (fun i _ _ _ hstep => .single (.expire tenant i.interactionId hstep)) hloop
  exact hfirst.trans (Except.foldlM_reflTransGen _
    (fun e _ _ _ hstep => .single (.expireReplay tenant e.applicationId e.requestId hstep)) hreplays)

theorem delete_changes {actor : Option String} {deleted : Option (Interaction × DeletionRequest)}
    (h : s.delete sv tenant id actor = .ok (deleted, s')) : Changes b s s' := by
  obtain ⟨found, -, h⟩ := Except.bind_eq_ok.1 h
  split at h
  · cases h
    exact .refl
  obtain ⟨s₁, herase, h⟩ := Except.bind_eq_ok.1 h
  cases h
  exact .tail (.single (.erase _ _ _ herase)) (.events _ _)

theorem deleteSubject_changes {subject : String} {actor : Option String}
    {deleted : DeletionRequest × List (Interaction × DeletionRequest)}
    (h : s.deleteSubject sv tenant subject actor = .ok (deleted, s')) : Changes b s s' := by
  obtain ⟨interactions, -, h⟩ := Except.bind_eq_ok.1 h
  obtain ⟨s₁, htombstone, h⟩ := Except.bind_eq_ok.1 h
  obtain ⟨s₂, hloop, h⟩ := Except.bind_eq_ok.1 h
  cases h
  have hfirst : Changes b s₁ s₂ :=
    Except.foldlM_reflTransGen _ (fun d _ _ _ hstep => .single (.erase tenant _ d.2 hstep)) hloop
  exact (Relation.ReflTransGen.head (.tombstoneSubject tenant _ htombstone) hfirst).tail (.events _ _)

/-! A batch of a rotation. -/

/-- The payloads have different keys. -/
def PayloadKeys (s : Store) : Prop := (s.payloads.map fun p => (p.tenantId, p.reference)).Nodup

theorem PayloadKeys.of_sublist (h : s.PayloadKeys) (hsub : s'.payloads.Sublist s.payloads) :
    s'.PayloadKeys := h.sublist (hsub.map _)

theorem PayloadKeys.replaceCiphertext (h : s.PayloadKeys) {p replacement : EncryptedPayload}
    (hreplace : s.replaceCiphertext p replacement = .ok s') : s'.PayloadKeys := by
  unfold PayloadKeys
  rw [replaceCiphertext_eq_ok hreplace, List.map_map]
  refine (List.map_congr_left fun q _ => ?_ : _ = s.payloads.map _) ▸ h
  simp only [Function.comp_apply]
  split <;> rfl

theorem rotateBatch_changes (hsv : b.used sv) (hkeys : s.PayloadKeys) {cursor ceiling keyVersion : String}
    {batchSize : ℕ} (h : s.rotateBatch sv tenant cursor ceiling keyVersion batchSize = .ok s') :
    Changes b s s' := by
  have hsame : ∀ {t : Store} {p : EncryptedPayload}, t.PayloadKeys → p ∈ t.payloads →
      ∀ q ∈ t.payloads, q.tenantId = p.tenantId → q.reference = p.reference → q = p :=
    fun hkeys hp q hq htenant href =>
      List.inj_on_of_nodup_map hkeys hq hp (Prod.ext htenant href)
  generalize hrows : s.rotationRows tenant cursor ceiling keyVersion (sv.clock 0) batchSize = rows
  have hmem : ∀ p ∈ rows, p ∈ s.payloads := by
    intro p hp
    rw [← hrows] at hp
    exact List.mem_of_mem_filter ((List.mem_insertionSort _).1 (List.mem_of_mem_take hp))
  have hnodup : (rows.map fun p => (p.tenantId, p.reference)).Nodup := by
    rw [← hrows]
    refine (((List.take_sublist _ _).map _).nodup ?_)
    refine ((List.perm_insertionSort _ _).map _).nodup_iff.2 ?_
    exact (List.filter_sublist.map _).nodup hkeys
  unfold rotateBatch at h
  rw [hrows] at h
  -- the rows of the batch still to come are as they were read
  refine (Except.foldlM_of_invariant (fun rest t => Changes b s t ∧ t.PayloadKeys ∧
    (∀ x ∈ rest, x.1 ∈ t.payloads) ∧ (rest.map fun x => (x.1.tenantId, x.1.reference)).Nodup)
    ?_ rows.zipIdx ⟨.refl, hkeys, ?_, ?_⟩ h).1
  · rintro ⟨p, k⟩ rest t t' ⟨hrun, hkeys, hrest, hdistinct⟩ hstep
    obtain ⟨hp, hrest⟩ := List.forall_mem_cons.1 hrest
    obtain ⟨hfresh, hdistinct⟩ := List.nodup_cons.1 hdistinct
    obtain ⟨text, replacement, -, -, hreplace⟩ := rewrap_eq_ok hstep
    have ht' := replaceCiphertext_eq_ok hreplace
    refine ⟨hrun.tail (.rewrap sv hsv k p (hsame hkeys hp) hstep), ?_, ?_, hdistinct⟩
    · exact hkeys.replaceCiphertext hreplace
    · intro x hx
      rw [ht', List.mem_map]
      refine ⟨x.1, hrest x hx, if_neg fun hkey => hfresh ?_⟩
      exact List.mem_map.2 ⟨x, hx, Prod.ext hkey.1 hkey.2⟩
  · intro x hx
    exact hmem x.1 (List.fst_mem_of_mem_zipIdx hx)
  · have hfirst : rows.zipIdx.map (fun x => (x.1.tenantId, x.1.reference)) =
        rows.map fun p => (p.tenantId, p.reference) := by
      conv_rhs => rw [← List.zipIdx_map_fst 0 rows, List.map_map]
      rfl
    rw [hfirst]
    exact hnodup

end Transactions

/-- **Every operation is a sequence of changes.** -/
theorem run_changes {op : Operation} (hservices : ∀ sv, op.services = some sv → b.used sv)
    (hcounts : b.counted op.counts)
    (hstored : ∀ e text, s.interactionRow e.tenantId e.interactionId = none → b.stored e text)
    (hkeys : s.PayloadKeys) (h : op.run s = .ok s') :
    Changes b s s' := by
  cases op with
  | save sv graph response content fingerprint reservedAt =>
    cases h
    refine save_changes (hservices sv rfl) hcounts fingerprint reservedAt
      fun hnone output r e _ _ _ htenant hid => hstored e _ ?_
    rw [htenant, hid]
    exact hnone
  | saveShadow sv interaction attempt output policy inputRedactionFailed =>
    obtain ⟨⟨_, _⟩, hcall, rfl⟩ := Except.map_eq_ok.1 h
    exact saveShadow_changes (hservices sv rfl) hcall
  | feedback sv caller interactionId body =>
    obtain ⟨⟨_, _⟩, hcall, rfl⟩ := Except.map_eq_ok.1 h
    exact recordFeedback_changes (hservices sv rfl) hcall
  | sweep sv tenant =>
    obtain ⟨⟨_, _⟩, hcall, rfl⟩ := Except.map_eq_ok.1 h
    exact sweep_changes hcall
  | delete sv tenant interactionId actor =>
    obtain ⟨⟨_, _⟩, hcall, rfl⟩ := Except.map_eq_ok.1 h
    exact delete_changes hcall
  | deleteSubject sv tenant subject actor =>
    obtain ⟨⟨_, _⟩, hcall, rfl⟩ := Except.map_eq_ok.1 h
    exact deleteSubject_changes hcall
  | rotate sv tenant cursor ceiling keyVersion batchSize =>
    exact rotateBatch_changes (hservices sv rfl) hkeys h
  | finish eventId state attempts =>
    cases h
    exact .single (.outbox _ fun row => by split <;> rfl)
  | redeliver eventId =>
    cases h
    exact .single (.outbox _ fun row => by split <;> rfl)

/-! ## Keys of the payloads -/

theorem putPayload_fresh {p : EncryptedPayload} (h : s.putPayload p = .ok s') :
    (∀ q ∈ s.payloads, ¬(q.tenantId = p.tenantId ∧ q.reference = p.reference)) ∧
      s' = { s with payloads := s.payloads ++ [p] } := by
  obtain ⟨_, -, h⟩ := Except.bind_eq_ok.1 h
  obtain ⟨_, hfresh, h⟩ := Except.bind_eq_ok.1 h
  obtain ⟨_, -, h⟩ := Except.bind_eq_ok.1 h
  cases h
  refine ⟨fun q hq hkey => ?_, rfl⟩
  rw [check_eq_ok, Bool.not_eq_true', List.any_eq_false] at hfresh
  exact hfresh q hq (by simp [hkey])

theorem PayloadKeys.putPayload (hkeys : s.PayloadKeys) {p : EncryptedPayload}
    (h : s.putPayload p = .ok s') : s'.PayloadKeys := by
  obtain ⟨hfresh, rfl⟩ := putPayload_fresh h
  unfold PayloadKeys at *
  rw [List.map_append, List.map_singleton]
  refine hkeys.append (List.nodup_singleton _) (List.disjoint_singleton.2 fun hmem => ?_)
  obtain ⟨q, hq, hkey⟩ := List.mem_map.1 hmem
  exact hfresh q hq ⟨congrArg (·.1) hkey, congrArg (·.2) hkey⟩

theorem deletePayloads_sublist {which : EncryptedPayload → Bool}
    (h : s.deletePayloads which = .ok s') : s'.payloads.Sublist s.payloads := by
  rw [deletePayloads_eq_ok h]
  exact List.filter_sublist

theorem deleteReplay_sublist {applicationId requestId : String}
    (h : s.deleteReplay tenant applicationId requestId = .ok s') :
    s'.payloads.Sublist s.payloads := by
  unfold deleteReplay at h
  dsimp only at h
  split at h
  · cases h
    exact List.Sublist.refl _
  · exact @deletePayloads_sublist (s.removeReplays _) _ _ h

theorem putReplay_sublist {replay : ReplayRecord} {capacity : ℕ}
    (h : s.putReplay replay capacity = .ok s') : s'.payloads.Sublist s.payloads := by
  obtain ⟨_, -, h⟩ := Except.bind_eq_ok.1 h
  obtain ⟨_, -, h⟩ := Except.bind_eq_ok.1 h
  obtain ⟨s₁, hinsert, h⟩ := Except.bind_eq_ok.1 h
  have hs₁ := (insertReplay_eq_ok hinsert).2.2
  refine Except.foldlM_of_invariant (fun _ t => t.payloads.Sublist s.payloads) ?_ _ ?_ h
  · intro old _ t t' hsub hstep
    exact (deletePayloads_sublist hstep).trans hsub
  · rw [hs₁]
    exact List.Sublist.refl _

theorem replaceReplay_sublist {replay : ReplayRecord} {capacity : ℕ}
    (h : s.replaceReplay replay capacity = .ok s') : s'.payloads.Sublist s.payloads := by
  obtain ⟨s₁, hdelete, hput⟩ := Except.bind_eq_ok.1 h
  exact (putReplay_sublist hput).trans (deleteReplay_sublist hdelete)

end Store

/-! ## Runs -/

section Runs

variable {b : Brought} {s s' : Store}

theorem Change.payloadKeys (h : Change b s s') (hkeys : s.PayloadKeys) :
    s'.PayloadKeys := by
  cases h with
  | put tenant record expires _ done =>
    rw [(put_eq_ok done).2]
    exact hkeys
  | payload sv _ _ _ _ done => exact hkeys.putPayload done
  | replay sv _ e capacity _ _ _ put done =>
    exact (hkeys.putPayload put).of_sublist (replaceReplay_sublist done)
  | expire tenant id done =>
    exact hkeys.of_sublist (@deletePayloads_sublist (s.clearRefs tenant id .expired) _ _ done)
  | expireReplay tenant applicationId requestId done =>
    exact hkeys.of_sublist (deleteReplay_sublist done)
  | erase tenant id deletion done =>
    exact hkeys.of_sublist (@deletePayloads_sublist
      ((s.tombstone tenant id deletion).clearRefs tenant id .deleted) _ _ done)
  | tombstoneSubject tenant deletion done =>
    rw [tombstoneSubject_eq_ok done]
    exact hkeys
  | rewrap sv _ k p _ done =>
    obtain ⟨_, _, -, -, hreplace⟩ := rewrap_eq_ok done
    exact hkeys.replaceCiphertext hreplace
  | update | events | outbox => exact hkeys

/-- **What every change keeps, every run keeps**, once the payloads have different keys. -/
theorem Store.performAll_of_changes {Inv : Store → Prop} {ops : List Operation}
    (hservices : ∀ op ∈ ops, ∀ sv, op.services = some sv → b.used sv)
    (hcounts : ∀ op ∈ ops, b.counted op.counts)
    (hstored : ∀ t, Inv t → ∀ e text, t.interactionRow e.tenantId e.interactionId = none →
      b.stored e text)
    (hstep : ∀ s s', Inv s → s.PayloadKeys → Change b s s' → Inv s') (h : Inv s)
    (hkeys : s.PayloadKeys) : Inv (s.performAll ops) ∧ (s.performAll ops).PayloadKeys := by
  refine @performAll_of_invariant (fun t => Inv t ∧ t.PayloadKeys) ops ?_ s ⟨h, hkeys⟩
  intro op hop t t' ht hrun
  have hchanges := run_changes (hservices op hop) (hcounts op hop) (hstored t ht.1) ht.2 hrun
  have hkeep : ∀ a c, Inv a ∧ a.PayloadKeys → Change b a c → Inv c ∧ c.PayloadKeys :=
    fun a c hac hchange => ⟨hstep a c hac.1 hac.2 hchange, hchange.payloadKeys hac.2⟩
  exact Runs.reflTransGen_of_invariant hkeep ht hchanges

end Runs

end Stored

end AdaptiveLlm
