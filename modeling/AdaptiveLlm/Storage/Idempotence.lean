import AdaptiveLlm.Storage.Changes

set_option autoImplicit false

/-! # Deleting again

A deletion is repeated against what it left: the tombstone it finds is the one it wrote, the records
have no references to clear, there is nothing else to remove, and the outbox has its event. What keeps
this true over any other operations is that tombstones and events stay, that nothing is written for
what has a tombstone, and that every stored interaction can be read, erased or not.

Between the two deletions anything may happen: saves, feedback, sweeps, rotations, dispatching,
other deletions, by any actor. Each operation is a sequence of writes, and of every write it is
shown that tombstones, the records' missing references and the event stay. So the second deletion
meets a store in which it has nothing to do, and is shown to succeed there with the same request. -/

namespace AdaptiveLlm

namespace Stored

open Store

/-! ## Interactions that can be read -/

/-- The counts of redactions are by names that are not references. -/
def NoRefs (counts : List (String × ℕ)) : Prop := ∀ c ∈ counts, isRef c.1 = false

/-- The JSON is that of an interaction. -/
def Readable (j : Json) : Prop :=
  ∃ i, Interaction.ofJson j = some i ∧ NoRefs i.policy.persistenceRedactionCounts

/-- A field that is not a reference reads alike once references are erased. -/
theorem bind_field_erase {α : Type} {read : Json → Option α} {name : String} (hname : isRef name = false)
    (hread : ∀ j, read (j.erase isRef) = read j) (j : Json) :
    ((j.erase isRef).field name).bind read = (j.field name).bind read := by
  have hcomp : read ∘ Json.erase isRef = read := funext hread
  rw [Json.field_erase isRef hname, Option.bind_map, hcomp]

/-- The counts of redactions in the JSON of a policy. -/
def countsOf : Json → Option (List (String × ℕ))
  | .obj counts => counts.mapM fun c => (Json.nat? c.2).map fun n => (c.1, n)
  | _ => none

theorem mem_of_countsOf {fields : List (String × Json)} {counts : List (String × ℕ)}
    (h : countsOf (.obj fields) = some counts) : fields.map (·.1) = counts.map (·.1) := by
  unfold countsOf at h
  induction fields generalizing counts with
  | nil =>
    cases h
    rfl
  | cons f rest ih =>
    simp only [List.mapM_cons, Option.bind_eq_bind, Option.bind_eq_some_iff, Option.pure_def,
      Option.map_eq_some_iff, Option.some_inj] at h
    obtain ⟨_, ⟨n, -, rfl⟩, more, hmore, rfl⟩ := h
    rw [List.map_cons, List.map_cons, ih hmore]

theorem countsOf_erase {j : Json} {counts : List (String × ℕ)} (h : countsOf j = some counts)
    (hcounts : NoRefs counts) : countsOf (j.erase isRef) = some counts := by
  cases j with
  | obj fields =>
    have hnames : ∀ f ∈ fields, isRef f.1 = false := by
      intro f hf
      have hname : f.1 ∈ counts.map (·.1) := mem_of_countsOf h ▸ List.mem_map_of_mem hf
      obtain ⟨c, hc, hname⟩ := List.mem_map.1 hname
      rw [← hname]
      exact hcounts c hc
    have herase : Json.eraseFields isRef fields = fields.map fun f => (f.1, f.2.erase isRef) := by
      rw [Json.eraseFields_eq_map]
      refine List.map_congr_left fun f hf => ?_
      simp [hnames f hf]
    rw [← h]
    simp only [Json.erase, countsOf, herase, List.mapM_map]
    congr 1
    funext f
    simp
  | _ => cases h

theorem PolicyDecision.ofJson_eq (j : Json) : ofJson j = (do
    let processingAllowed ← (j.field "processing_allowed").bind Json.bool?
    let contentLoggingAllowed ← (j.field "content_logging_allowed").bind Json.bool?
    let retentionSeconds ← (j.field "retention_seconds").bind Json.nat?
    let persistenceRedactionVersion ← (j.field "persistence_redaction_version").bind Json.str?
    let persistenceRedactionCounts ← (j.field "persistence_redaction_counts").bind countsOf
    some {
      processingAllowed
      contentLoggingAllowed
      retentionSeconds
      persistenceRedactionVersion
      persistenceRedactionCounts
      others := othersOf ["processing_allowed", "content_logging_allowed", "retention_seconds",
        "persistence_redaction_version", "persistence_redaction_counts"] j }) := by
  unfold ofJson
  cases hcounts : j.field "persistence_redaction_counts" with
  | none => rfl
  | some counts => cases counts <;> rfl

theorem PolicyDecision.ofJson_erase {j : Json} {p : PolicyDecision} (h : ofJson j = some p)
    (hcounts : NoRefs p.persistenceRedactionCounts) : ∃ q, ofJson (j.erase isRef) = some q ∧
      q.persistenceRedactionCounts = p.persistenceRedactionCounts := by
  rw [ofJson_eq] at h
  obtain ⟨processing, hprocessing, h⟩ := Option.bind_eq_some_iff.1 h
  obtain ⟨logging, hlogging, h⟩ := Option.bind_eq_some_iff.1 h
  obtain ⟨retention, hretention, h⟩ := Option.bind_eq_some_iff.1 h
  obtain ⟨version, hversion, h⟩ := Option.bind_eq_some_iff.1 h
  obtain ⟨counts, hfield, h⟩ := Option.bind_eq_some_iff.1 h
  cases h
  obtain ⟨value, hvalue, hread⟩ := Option.bind_eq_some_iff.1 hfield
  have hname : isRef "persistence_redaction_counts" = false := by decide
  have hfield' : ((j.erase isRef).field "persistence_redaction_counts").bind countsOf = some counts := by
    rw [Json.field_erase isRef hname, hvalue]
    exact countsOf_erase hread hcounts
  rw [← bind_field_erase (by decide) (Json.bool?_erase isRef)] at hprocessing hlogging
  rw [← bind_field_erase (by decide) (Json.nat?_erase isRef)] at hretention
  rw [← bind_field_erase (by decide) (Json.str?_erase isRef)] at hversion
  rw [ofJson_eq]
  simp only [hprocessing, hlogging, hretention, hversion, hfield', Option.bind_eq_bind, Option.bind_some]
  exact ⟨_, rfl, rfl⟩

/-- A reference reads as null. -/
theorem InputSummary.ofJson_erase {j : Json} {i : InputSummary} (h : ofJson j = some i) :
    ∃ i', ofJson (j.erase isRef) = some i' := by
  have href : ∀ {name : String} {ref : Option String}, isRef name = true →
      (j.field name).bind (Json.nullable Json.str?) = some ref →
      ((j.erase isRef).field name).bind (Json.nullable Json.str?) = some none := by
    intro name ref hname hfield
    cases j with
    | obj fields =>
      obtain ⟨value, hvalue, -⟩ := Option.bind_eq_some_iff.1 hfield
      have hvalue : fields.lookup name = some value := hvalue
      simp only [Json.erase, Json.field, Json.lookup_eraseFields, hvalue, hname]
      rfl
    | _ => cases hfield
  obtain ⟨messages, hmessages, h⟩ := Option.bind_eq_some_iff.1 h
  obtain ⟨format, hformat, h⟩ := Option.bind_eq_some_iff.1 h
  unfold ofJson
  simp only [href (by decide) hmessages, href (by decide) hformat, Option.bind_eq_bind,
    Option.bind_some]
  exact ⟨_, rfl⟩

/-- **An interaction without its references is one.** -/
theorem Readable.erase {j : Json} (h : Readable j) : Readable (j.erase isRef) := by
  obtain ⟨i, h, hcounts⟩ := h
  obtain ⟨id, hid, h⟩ := Option.bind_eq_some_iff.1 h
  obtain ⟨subject, hsubject, h⟩ := Option.bind_eq_some_iff.1 h
  obtain ⟨trace, htrace, h⟩ := Option.bind_eq_some_iff.1 h
  obtain ⟨request, hrequest, h⟩ := Option.bind_eq_some_iff.1 h
  obtain ⟨tenant, htenant, h⟩ := Option.bind_eq_some_iff.1 h
  obtain ⟨application, happlication, h⟩ := Option.bind_eq_some_iff.1 h
  obtain ⟨started, hstarted, h⟩ := Option.bind_eq_some_iff.1 h
  obtain ⟨completed, hcompleted, h⟩ := Option.bind_eq_some_iff.1 h
  obtain ⟨policy, hpolicy, h⟩ := Option.bind_eq_some_iff.1 h
  obtain ⟨input, hinput, h⟩ := Option.bind_eq_some_iff.1 h
  obtain ⟨feedback, hfeedback, h⟩ := Option.bind_eq_some_iff.1 h
  obtain ⟨cost, hcost, h⟩ := Option.bind_eq_some_iff.1 h
  obtain ⟨error, herror, h⟩ := Option.bind_eq_some_iff.1 h
  cases h
  obtain ⟨policyJson, hpolicyJson, hpolicy⟩ := Option.bind_eq_some_iff.1 hpolicy
  obtain ⟨inputJson, hinputJson, hinput⟩ := Option.bind_eq_some_iff.1 hinput
  obtain ⟨policy', hpolicy', hsame⟩ := PolicyDecision.ofJson_erase hpolicy hcounts
  obtain ⟨input', hinput'⟩ := InputSummary.ofJson_erase hinput
  have hpolicyField : ((j.erase isRef).field "policy").bind PolicyDecision.ofJson = some policy' := by
    rw [Json.field_erase isRef (by decide), hpolicyJson]
    exact hpolicy'
  have hinputField : ((j.erase isRef).field "input").bind InputSummary.ofJson = some input' := by
    rw [Json.field_erase isRef (by decide), hinputJson]
    exact hinput'
  rw [← bind_field_erase (by decide) (Json.str?_erase isRef)] at htrace hrequest happlication
  rw [← bind_field_erase (by decide) (Json.int?_erase isRef)] at hstarted hcompleted
  rw [← bind_field_erase (by decide) (Json.list?_erase isRef (Json.str?_erase isRef))] at hfeedback
  rw [← bind_field_erase (by decide) (Json.nat?_erase isRef)] at hcost
  rw [← bind_field_erase (by decide) (Json.nullable_str?_erase isRef)] at herror
  rw [← interactionIdOf_erase] at hid
  rw [← subjectOf_erase] at hsubject
  rw [← tenantIdOf_erase] at htenant
  unfold Readable Interaction.ofJson
  simp only [hid, hsubject, htrace, hrequest, htenant, happlication, hstarted, hcompleted, hpolicyField,
    hinputField, hfeedback, hcost, herror, Option.bind_eq_bind, Option.bind_some]
  exact ⟨_, rfl, hsame ▸ hcounts⟩

theorem countsOf_obj (counts : List (String × ℕ)) :
    countsOf (.obj (counts.map fun c => (c.1, .ofNat c.2))) = some counts := by
  have hread : ((fun c : String × Json => (Json.nat? c.2).map fun n => (c.1, n)) ∘
      fun c : String × ℕ => (c.1, Json.ofNat c.2)) = some := by
    funext c
    simp [Json.nat?, Json.ofNat]
  rw [countsOf, List.mapM_map, hread]
  exact (List.mapM_pure (m := Option) (f := id)).trans (congrArg some (List.map_id counts))

theorem list?_arr_str (l : List String) : Json.list? Json.str? (.arr (l.map .str)) = some l := by
  unfold Json.list?
  induction l with
  | nil => rfl
  | cons a rest ih => simp [ih, Json.str?]

theorem PolicyDecision.ofJson_toJson (p : PolicyDecision) : ∃ q, ofJson p.toJson = some q ∧
    q.persistenceRedactionCounts = p.persistenceRedactionCounts := by
  have hcounts : (p.toJson.field "persistence_redaction_counts").bind countsOf =
      some p.persistenceRedactionCounts := countsOf_obj p.persistenceRedactionCounts
  have hretention : (p.toJson.field "retention_seconds").bind Json.nat? = some p.retentionSeconds := by
    show Json.nat? (.ofNat p.retentionSeconds) = _
    simp [Json.nat?, Json.ofNat]
  rw [ofJson_eq, hcounts, hretention]
  exact ⟨_, rfl, rfl⟩

theorem InputSummary.ofJson_toJson (i : InputSummary) : ∃ i', ofJson i.toJson = some i' := by
  have hmessages : (i.toJson.field "messages_ref").bind (Json.nullable Json.str?) =
      some i.messagesRef := Json.nullable_str_ofOption i.messagesRef
  have hformat : (i.toJson.field "response_format_ref").bind (Json.nullable Json.str?) =
      some i.responseFormatRef := Json.nullable_str_ofOption i.responseFormatRef
  unfold ofJson
  rw [hmessages, hformat]
  exact ⟨_, rfl⟩

/-- What is written of an interaction can be read. -/
theorem readable_toJson {i : Interaction} (h : NoRefs i.policy.persistenceRedactionCounts) :
    Readable i.toJson := by
  obtain ⟨policy, hpolicy, hsame⟩ := i.policy.ofJson_toJson
  obtain ⟨input, hinput⟩ := i.input.ofJson_toJson
  have hpolicyField : (i.toJson.field "policy").bind PolicyDecision.ofJson = some policy := hpolicy
  have hinputField : (i.toJson.field "input").bind InputSummary.ofJson = some input := hinput
  have hfeedback : (i.toJson.field "feedback_ids").bind (Json.list? Json.str?) = some i.feedbackIds :=
    list?_arr_str i.feedbackIds
  have hcost : (i.toJson.field "shadow_cost_micros").bind Json.nat? = some i.shadowCostMicros := by
    show Json.nat? (.ofNat i.shadowCostMicros) = _
    simp [Json.nat?, Json.ofNat]
  have herror : (i.toJson.field "error_code").bind (Json.nullable Json.str?) = some i.errorCode :=
    Json.nullable_str_ofOption i.errorCode
  unfold Readable Interaction.ofJson
  rw [interactionIdOf_toJson, subjectOf_toJson, tenantIdOf_toJson, hpolicyField, hinputField, hfeedback,
    hcost, herror]
  exact ⟨_, rfl, hsame ▸ h⟩

namespace Store

/-- Every stored interaction can be read. -/
def ReadableInv (s : Store) : Prop := ∀ row ∈ s.records, row.kind = .interactions → Readable row.data

variable {s s' : Store} {tenant id : String}

/-- Nothing changes but payloads and replays. -/
def OnlyPayloads (s s' : Store) : Prop :=
  s' = { s with payloads := s'.payloads, replayEntries := s'.replayEntries }

theorem OnlyPayloads.refl (s : Store) : OnlyPayloads s s := rfl

theorem OnlyPayloads.trans {t : Store} (h : OnlyPayloads s t) (h' : OnlyPayloads t s') :
    OnlyPayloads s s' := by
  unfold OnlyPayloads at *
  rw [h', h]

theorem OnlyPayloads.rest (h : OnlyPayloads s s') : s'.records = s.records ∧
    s'.deletionTombstones = s.deletionTombstones ∧ s'.subjectTombstones = s.subjectTombstones ∧
    s'.outbox = s.outbox := by
  unfold OnlyPayloads at h
  rw [h]
  exact ⟨rfl, rfl, rfl, rfl⟩

theorem onlyPayloads_of_deletePayloads {which : EncryptedPayload → Bool}
    (h : s.deletePayloads which = .ok s') : OnlyPayloads s s' := by
  rw [deletePayloads_eq_ok h]
  rfl

theorem onlyPayloads_of_putPayload {p : EncryptedPayload} (h : s.putPayload p = .ok s') :
    OnlyPayloads s s' := by
  rw [(putPayload_fresh h).2]
  rfl

theorem onlyPayloads_of_deleteReplay {applicationId requestId : String}
    (h : s.deleteReplay tenant applicationId requestId = .ok s') : OnlyPayloads s s' := by
  unfold deleteReplay at h
  dsimp only at h
  split at h
  · cases h
    rfl
  · rw [@deletePayloads_eq_ok (s.removeReplays _) _ _ h]
    rfl

theorem onlyPayloads_of_putReplay {replay : ReplayRecord} {capacity : ℕ}
    (h : s.putReplay replay capacity = .ok s') : OnlyPayloads s s' := by
  obtain ⟨_, -, h⟩ := Except.bind_eq_ok.1 h
  obtain ⟨_, -, h⟩ := Except.bind_eq_ok.1 h
  obtain ⟨s₁, hinsert, h⟩ := Except.bind_eq_ok.1 h
  have hinserted : OnlyPayloads s s₁ := by
    rw [(insertReplay_eq_ok hinsert).2.2]
    rfl
  refine Except.foldlM_of_invariant (fun _ t => OnlyPayloads s t) ?_ _ ?_ h
  · intro old _ t t' ht hstep
    exact ht.trans (onlyPayloads_of_deletePayloads hstep)
  · exact @OnlyPayloads.trans s (s₁.removeReplays _) s₁ hinserted rfl

theorem onlyPayloads_of_replaceReplay {replay : ReplayRecord} {capacity : ℕ}
    (h : s.replaceReplay replay capacity = .ok s') : OnlyPayloads s s' := by
  obtain ⟨s₁, hdelete, hput⟩ := Except.bind_eq_ok.1 h
  exact (onlyPayloads_of_deleteReplay hdelete).trans (onlyPayloads_of_putReplay hput)

/-- An interaction with the policy of one that was read. -/
theorem Readable.update {row : RecordRow} {old new : Interaction} (h : Readable row.data)
    (hold : Interaction.ofJson row.data = some old) (hpolicy : new.policy = old.policy) :
    Readable new.toJson := by
  obtain ⟨i, hi, hcounts⟩ := h
  obtain rfl : i = old := Option.some.inj (hi.symm.trans hold)
  exact readable_toJson (hpolicy ▸ hcounts)

theorem ReadableInv.change {b : Brought} (hcounted : ∀ counts, b.counted counts → NoRefs counts)
    (h : s.ReadableInv) (hchange : Change b s s') : s'.ReadableInv := by
  have hsame : s'.records = s.records → s'.ReadableInv := fun hrecords => by
    unfold ReadableInv
    rw [hrecords]
    exact h
  have hclear : ∀ {tenant id : String} {state : RowState}, (s'.records = s.records.map fun row =>
      if row.tenantId = tenant ∧ row.interactionId = id then row.clear state else row) →
      s'.ReadableInv := by
    intro tenant id state hrecords row hrow hkind
    rw [hrecords] at hrow
    obtain ⟨row₀, hrow₀, rfl⟩ := List.mem_map.1 hrow
    split at hkind
    · rename_i hmatch
      rw [if_pos hmatch]
      exact (h row₀ hrow₀ hkind).erase
    · rename_i hmatch
      rw [if_neg hmatch]
      exact h row₀ hrow₀ hkind
  cases hchange with
  | put tenant record expires counts done =>
    rw [(put_eq_ok done).2]
    intro row hrow hkind
    rcases List.mem_append.1 hrow with hrow | hrow
    · exact h row hrow hkind
    · obtain rfl := List.mem_singleton.1 hrow
      cases record with
      | interaction i => exact readable_toJson (hcounted _ (counts i rfl))
      | _ => cases hkind
  | update tenant id old new found policy =>
    obtain ⟨source, hsource, hsourceKind, hold⟩ := found
    intro row hrow hkind
    obtain ⟨row₀, hrow₀, rfl⟩ := List.mem_map.1 hrow
    split at hkind
    · rename_i hmatch
      rw [if_pos hmatch]
      exact Readable.update (h source hsource hsourceKind) hold policy
    · rename_i hmatch
      rw [if_neg hmatch]
      exact h row₀ hrow₀ hkind
  | payload sv _ _ _ _ done => exact hsame (putPayload_eq_ok done).2
  | replay sv _ e capacity _ _ _ put done =>
    have honly := (onlyPayloads_of_putPayload put).trans (onlyPayloads_of_replaceReplay done)
    exact hsame honly.rest.1
  | expire tenant id done =>
    refine @hclear tenant id .expired ?_
    rw [deletePayloads_eq_ok done]
    exact List.map_congr_left fun row _ => by simp [RecordRow.clear]
  | expireReplay tenant applicationId requestId done =>
    exact hsame (onlyPayloads_of_deleteReplay done).rest.1
  | erase tenant id deletion done =>
    refine @hclear tenant id .deleted ?_
    rw [erase_eq_ok done]
  | tombstoneSubject tenant deletion done => exact hsame (by rw [tombstoneSubject_eq_ok done])
  | rewrap sv _ k p _ done =>
    obtain ⟨_, _, -, -, hreplace⟩ := rewrap_eq_ok done
    exact hsame (by rw [replaceCiphertext_eq_ok hreplace])
  | events | outbox => exact h

/-! ## What stays

`Remembers` is the order of stores in which tombstones, requests and events are never lost. Every
change of any operation goes up in it. -/

/-- The tombstone of a target. -/
def findTombstone (ts : List Tombstone) (tenant target : String) : Option DeletionRequest :=
  (ts.find? fun t => t.tenantId = tenant && t.targetId = target).map (·.data)

theorem findTombstone_add {ts : List Tombstone} {t : Tombstone} {target : String}
    {d : DeletionRequest} (h : findTombstone ts tenant target = some d) :
    findTombstone (addTombstone ts t) tenant target = some d := by
  obtain ⟨u, hu, rfl⟩ := Option.map_eq_some_iff.1 h
  unfold findTombstone addTombstone
  split
  · rw [hu]
    rfl
  · rw [List.find?_append, hu]
    rfl

/-- A target has the tombstone it has, or the new one. -/
theorem findTombstone_getD (ts : List Tombstone) (tenant target : String) (new : DeletionRequest) :
    findTombstone (addTombstone ts ⟨tenant, target, (findTombstone ts tenant target).getD new⟩) tenant
      target = some ((findTombstone ts tenant target).getD new) := by
  cases h : findTombstone ts tenant target with
  | some d => exact findTombstone_add h
  | none =>
    have hnone : (ts.find? fun t => t.tenantId = tenant && t.targetId = target) = none :=
      Option.map_eq_none_iff.1 h
    have hany : (ts.any fun t => t.tenantId = tenant && t.targetId = target) = false := by
      rw [List.any_eq_false]
      exact List.find?_eq_none.1 hnone
    simp [findTombstone, addTombstone, hany, hnone, List.find?_append]

theorem addTombstone_of_found {ts : List Tombstone} {target : String} {d : DeletionRequest}
    (h : findTombstone ts tenant target = some d) (new : DeletionRequest) :
    addTombstone ts ⟨tenant, target, new⟩ = ts := by
  obtain ⟨u, hu, -⟩ := Option.map_eq_some_iff.1 h
  have hmatch := List.find?_some hu
  exact if_pos (List.any_eq_true.2 ⟨u, List.mem_of_find?_eq_some hu, hmatch⟩)

/-- What no change forgets. -/
structure Remembers (s s' : Store) : Prop where
  tombstones : ∀ tenant id d, s.getTombstone tenant id = some d → s'.getTombstone tenant id = some d
  subjects : ∀ tenant subject d, s.getSubjectTombstone tenant subject = some d →
    s'.getSubjectTombstone tenant subject = some d
  events : s.outbox.map (·.event.eventId) ⊆ s'.outbox.map (·.event.eventId)
  keys : s.records.map (·.key) ⊆ s'.records.map (·.key)

theorem Remembers.refl (s : Store) : Remembers s s :=
  ⟨fun _ _ _ h => h, fun _ _ _ h => h, List.Subset.refl _, List.Subset.refl _⟩

theorem Remembers.trans {t : Store} (h : Remembers s t) (h' : Remembers t s') : Remembers s s' :=
  ⟨fun tenant id d hd => h'.tombstones tenant id d (h.tombstones tenant id d hd),
    fun tenant subject d hd => h'.subjects tenant subject d (h.subjects tenant subject d hd),
    List.Subset.trans h.events h'.events, List.Subset.trans h.keys h'.keys⟩

theorem OnlyPayloads.remembers (h : OnlyPayloads s s') : Remembers s s' := by
  obtain ⟨hrecords, htombs, hsubjects, houtbox⟩ := h.rest
  unfold OnlyPayloads at h
  constructor
  · intro tenant id d hd
    unfold getTombstone at *
    rwa [htombs]
  · intro tenant subject d hd
    unfold getSubjectTombstone at *
    rwa [hsubjects]
  · rw [houtbox]
    exact List.Subset.refl _
  · rw [hrecords]
    exact List.Subset.refl _

/-- Rows that keep their keys are remembered. -/
theorem remembers_of_map {f : RecordRow → RecordRow} (hkey : ∀ row, (f row).key = row.key) :
    Remembers s { s with records := s.records.map f } := by
  refine ⟨fun _ _ _ h => h, fun _ _ _ h => h, List.Subset.refl _, ?_⟩
  have hsame : RecordRow.key ∘ f = RecordRow.key := funext hkey
  rw [List.map_map, hsame]
  exact List.Subset.refl _

theorem remembers_enqueue (pendingLimit : ℕ) (events : List (Event String EventData)) :
    Remembers s (s.enqueueEvents pendingLimit events) := by
  refine ⟨fun _ _ _ h => h, fun _ _ _ h => h, ?_, List.Subset.refl _⟩
  obtain ⟨kept, -, happend⟩ := enqueue_append pendingLimit s.outbox events
  unfold enqueueEvents
  dsimp only
  rw [happend, List.map_append]
  exact List.subset_append_left _ _

theorem remembers_erase {deletion : DeletionRequest} (h : s.erase tenant id deletion = .ok s') :
    Remembers s s' := by
  rw [erase_eq_ok h]
  have hrows := @remembers_of_map s (fun row =>
    if row.tenantId = tenant ∧ row.interactionId = id then row.clear .deleted else row)
    (fun row => by split <;> rfl)
  exact ⟨fun _ _ _ hd => findTombstone_add hd, fun _ _ _ hd => hd, List.Subset.refl _, hrows.keys⟩

theorem Change.remembers {b : Brought} (h : Change b s s') : Remembers s s' := by
  cases h with
  | put tenant record expires counts done =>
    rw [(put_eq_ok done).2]
    refine ⟨fun _ _ _ h => h, fun _ _ _ h => h, List.Subset.refl _, ?_⟩
    rw [List.map_append]
    exact List.subset_append_left _ _
  | update tenant id old new found policy => exact remembers_of_map fun row => by split <;> rfl
  | payload sv _ _ _ _ done => exact (onlyPayloads_of_putPayload done).remembers
  | replay sv _ e capacity _ _ _ put done =>
    exact ((onlyPayloads_of_putPayload put).trans (onlyPayloads_of_replaceReplay done)).remembers
  | expire tenant id done =>
    rw [deletePayloads_eq_ok done]
    have hrows := @remembers_of_map s (fun row =>
      if row.tenantId = tenant && row.interactionId = id then
        { row with data := row.data.erase isRef, state := .expired }
      else row) (fun row => by split <;> rfl)
    exact ⟨hrows.tombstones, hrows.subjects, hrows.events, hrows.keys⟩
  | expireReplay tenant applicationId requestId done =>
    exact (onlyPayloads_of_deleteReplay done).remembers
  | erase tenant id deletion done => exact remembers_erase done
  | tombstoneSubject tenant deletion done =>
    rw [tombstoneSubject_eq_ok done]
    exact ⟨fun _ _ _ h => h, fun _ _ _ h => findTombstone_add h, List.Subset.refl _,
      List.Subset.refl _⟩
  | events pendingLimit events => exact remembers_enqueue pendingLimit events
  | rewrap sv _ k p _ done =>
    obtain ⟨_, _, -, -, hreplace⟩ := rewrap_eq_ok done
    rw [replaceCiphertext_eq_ok hreplace]
    exact ⟨fun _ _ _ h => h, fun _ _ _ h => h, List.Subset.refl _, List.Subset.refl _⟩
  | outbox f event =>
    refine ⟨fun _ _ _ h => h, fun _ _ _ h => h, ?_, List.Subset.refl _⟩
    rw [List.map_map]
    intro id hid
    obtain ⟨row, hrow, rfl⟩ := List.mem_map.1 hid
    refine List.mem_map.2 ⟨row, hrow, ?_⟩
    rw [Function.comp_apply, event]

/-- What holds along a run of operations. -/
theorem performAll_remembers {ops : List Operation} (hcounts : ∀ op ∈ ops, NoRefs op.counts)
    (hreadable : s.ReadableInv) (hkeys : s.PayloadKeys) :
    Remembers s (s.performAll ops) ∧ (s.performAll ops).ReadableInv ∧ (s.performAll ops).PayloadKeys := by
  have hend := @performAll_of_changes { counted := NoRefs } s
    (fun t => Remembers s t ∧ t.ReadableInv) ops (fun _ _ _ _ => trivial) hcounts
    (fun _ _ _ _ _ => trivial)
    (fun t t' ht _ hchange => ⟨ht.1.trans (Change.remembers hchange),
      ht.2.change (fun _ hcounts => hcounts) hchange⟩)
    ⟨.refl s, hreadable⟩ hkeys
  exact ⟨hend.1.1, hend.1.2, hend.2⟩

/-! ## Deleting what is deleted

A deletion is run on a store that remembers it. Each of its steps finds its work done, so it ends
with the request it found and the same store. -/

/-- A deletion of what has a tombstone changes nothing. -/
theorem erase_of_tombstoned (hprivacy : PrivacyInv s) {d : DeletionRequest}
    (htomb : s.getTombstone tenant id = some d) (new : DeletionRequest) :
    s.erase tenant id new = .ok s := by
  have hgone : s.Gone tenant id := hprivacy.gone tenant id (by simp [Tombstoned, htomb])
  have hrecords : (s.records.map fun row => if row.tenantId = tenant && row.interactionId = id then
      { row with data := row.data.erase isRef, state := .deleted } else row) = s.records := by
    refine (List.map_congr_left fun row hrow => ?_).trans (List.map_id s.records)
    split
    · rename_i hmatch
      simp only [Bool.and_eq_true, decide_eq_true_eq] at hmatch
      obtain ⟨hstate, hdata⟩ := hgone.records row hrow hmatch.1 hmatch.2
      rw [Json.erase_eq_self isRef hdata, ← hstate]
      rfl
    · rfl
  have hpayloads : (s.payloads.filter fun p => !(p.tenantId = tenant && p.interactionId = id)) =
      s.payloads := by
    rw [List.filter_eq_self]
    intro p hp
    simpa [imp_iff_not_or] using hgone.payloads p hp
  have hentries : (s.replayEntries.filter fun e => !(e.tenantId = tenant && e.interactionId = id)) =
      s.replayEntries := by
    rw [List.filter_eq_self]
    intro e he
    simpa [imp_iff_not_or] using hgone.replays e he
  have hclear : (s.tombstone tenant id new).clearRefs tenant id .deleted = s := by
    unfold Store.tombstone clearRefs
    dsimp only
    rw [hrecords, hentries, addTombstone_of_found htomb]
  unfold erase deleteInteraction
  rw [hclear, deletePayloads_ok, hpayloads]
  intro p hp hmatch
  simp only [Bool.and_eq_true, decide_eq_true_eq] at hmatch
  exact absurd hmatch.2 (hgone.payloads p hp hmatch.1)

theorem enqueueEvents_of_stored (pendingLimit : ℕ) {events : List (Event String EventData)}
    (h : ∀ e ∈ events, e.eventId ∈ s.outbox.map (·.event.eventId)) :
    s.enqueueEvents pendingLimit events = s := by
  unfold enqueueEvents
  rw [enqueue_of_stored pendingLimit h]

section Repeat

variable {sv sv' : Services} {actor actor' : Option String} {d : DeletionRequest}

/-- What a deletion of an interaction leaves for a repetition to find. -/
structure Deleted (s : Store) (tenant id : String) (d : DeletionRequest) : Prop where
  tombstone : s.getTombstone tenant id = some d
  event : d.deletionRequestId ∈ s.outbox.map (·.event.eventId)
  key : (RecordKind.interactions, tenant, id) ∈ s.records.map (·.key)

theorem Deleted.remembered (h : s.Deleted tenant id d) (hkept : Remembers s s') :
    s'.Deleted tenant id d :=
  ⟨hkept.tombstones _ _ _ h.tombstone, hkept.events h.event, hkept.keys h.key⟩

theorem key_of_getInteraction {i : Interaction} (h : s.getInteraction tenant id = .ok (some i)) :
    (RecordKind.interactions, tenant, id) ∈ s.records.map (·.key) := by
  unfold getInteraction at h
  split at h
  · cases h
  rename_i row hrow
  obtain ⟨hmem, hkind, htenant, hid⟩ := interactionRow_eq_some hrow
  exact List.mem_map.2 ⟨row, hmem, by rw [RecordRow.key, hkind, htenant, hid]⟩

theorem deleted_of_delete (hprivacy : PrivacyInv s) {i : Interaction}
    (h : s.delete sv tenant id actor = .ok (some (i, d), s')) : s'.Deleted tenant id d := by
  obtain ⟨found, hfound, h⟩ := Except.bind_eq_ok.1 h
  split at h
  · cases h
  rename_i interaction
  obtain ⟨s₁, herase, h⟩ := Except.bind_eq_ok.1 h
  cases h
  obtain ⟨hid, -⟩ := getInteraction_holds hprivacy hfound
  rw [hid] at herase
  have hkey := (remembers_erase herase).keys (key_of_getInteraction hfound)
  rw [erase_eq_ok herase] at hkey ⊢
  exact ⟨findTombstone_getD _ _ _ _, enqueue_kept _ _ (List.mem_singleton_self _) rfl, hkey⟩

/-- The repetition of a deletion. -/
theorem Deleted.delete_again (h : s.Deleted tenant id d) (hprivacy : PrivacyInv s)
    (hreadable : s.ReadableInv) (sv : Services) (actor : Option String) :
    ∃ i, s.delete sv tenant id actor = .ok (some (i, d), s) := by
  obtain ⟨row, hrow, hkey⟩ := List.mem_map.1 h.key
  simp only [RecordRow.key, Prod.mk.injEq] at hkey
  obtain ⟨hkind, rfl, rfl⟩ := hkey
  obtain ⟨i, hi, -⟩ := hreadable row hrow hkind
  have hfound : s.getInteraction row.tenantId row.recordId = .ok (some i) := by
    unfold getInteraction
    rw [interactionRow_of_mem hprivacy hrow hkind]
    simp only [hi]
  refine ⟨i, ?_⟩
  obtain ⟨hid, -⟩ := getInteraction_holds hprivacy hfound
  unfold delete
  rw [hfound, Except.ok_bind]
  dsimp only
  rw [h.tombstone, hid, Option.getD_some, erase_of_tombstoned hprivacy h.tombstone, Except.ok_bind,
    enqueueEvents_of_stored]
  simpa [deletionEvent] using h.event

/-- What a deletion of a subject leaves. -/
structure SubjectDeleted (s : Store) (tenant subject : String) (d : DeletionRequest) : Prop where
  tombstone : s.getSubjectTombstone tenant subject = some d
  scope : d.scope = .subject
  event : d.deletionRequestId ∈ s.outbox.map (·.event.eventId)

theorem SubjectDeleted.remembered {subject : String} (h : s.SubjectDeleted tenant subject d)
    (hkept : Remembers s s') : s'.SubjectDeleted tenant subject d :=
  ⟨hkept.subjects _ _ _ h.tombstone, h.scope, hkept.events h.event⟩

theorem eraseAll_remembers {deleted : List (Interaction × DeletionRequest)}
    (h : s.eraseAll tenant deleted = .ok s') : Remembers s s' := by
  refine Except.foldlM_of_invariant (fun _ t => Remembers s t) ?_ deleted (.refl s) h
  intro x _ t t' ht hstep
  exact ht.trans (remembers_erase hstep)

theorem subjectDeleted_of_deleteSubject (hprivacy : PrivacyInv s) {subject : String}
    {deleted : List (Interaction × DeletionRequest)}
    (h : s.deleteSubject sv tenant subject actor = .ok ((d, deleted), s')) :
    s'.SubjectDeleted tenant subject d := by
  obtain ⟨interactions, -, h⟩ := Except.bind_eq_ok.1 h
  obtain ⟨s₁, htombstone, h⟩ := Except.bind_eq_ok.1 h
  obtain ⟨s₂, hloop, h⟩ := Except.bind_eq_ok.1 h
  cases h
  have htarget : ∀ new : DeletionRequest, new.targetId = subject →
      ((s.getSubjectTombstone tenant subject).getD new).targetId = subject :=
    fun _ hnew => hprivacy.subject_target hnew
  have hs₁ := tombstoneSubject_eq_ok htombstone
  obtain ⟨_, hscope, -⟩ := Except.bind_eq_ok.1 htombstone
  rw [check_eq_ok, decide_eq_true_eq] at hscope
  refine ⟨(eraseAll_remembers hloop).subjects _ _ _ ?_, hscope, ?_⟩
  · rw [hs₁, htarget]
    · exact findTombstone_getD _ _ _ _
    · rfl
  · exact enqueue_kept _ _ (List.mem_append_right _ (List.mem_singleton_self _)) rfl

/-- The repetition of a deletion of a subject. -/
theorem SubjectDeleted.delete_again {subject : String} (h : s.SubjectDeleted tenant subject d)
    (hprivacy : PrivacyInv s) (sv : Services) (actor : Option String) :
    s.deleteSubject sv tenant subject actor = .ok ((d, []), s) := by
  have htomb : s.SubjectTombstoned tenant subject := by simp [SubjectTombstoned, h.tombstone]
  -- the subject has no interactions left
  have hnone : s.forSubject tenant subject = .ok [] := by
    have hfilter : (s.records.filter fun row => row.kind = .interactions && row.tenantId = tenant &&
        row.subjectId = some subject && row.state ≠ .deleted) = [] := by
      rw [List.filter_eq_nil_iff]
      intro row hrow hmatch
      simp only [Bool.and_eq_true, decide_eq_true_eq] at hmatch
      obtain ⟨⟨⟨hkind, rfl⟩, hsubject⟩, hstate⟩ := hmatch
      exact hstate (hprivacy.subjects row hrow hkind subject hsubject htomb)
    unfold forSubject
    rw [hfilter]
    rfl
  have htarget : d.targetId = subject := by
    obtain ⟨t, ht, rfl⟩ := Option.map_eq_some_iff.1 h.tombstone
    have hmatch := List.find?_some ht
    simp only [Bool.and_eq_true, decide_eq_true_eq] at hmatch
    rw [hprivacy.targets t (List.mem_of_find?_eq_some ht), hmatch.2]
  have htombstone : s.tombstoneSubject tenant d = .ok s := by
    unfold tombstoneSubject
    rw [(@check_eq_ok _ _ ()).2 (by simp [h.scope] : decide (d.scope = .subject) = true),
      Except.ok_bind, htarget, addTombstone_of_found h.tombstone]
  unfold deleteSubject
  rw [h.tombstone, Option.getD_some, hnone, Except.ok_bind]
  dsimp only
  rw [htombstone, Except.ok_bind]
  show Except.ok ((d, []), s.enqueueEvents sv.pendingLimit [deletionEvent tenant (sv.uid 1) d]) = _
  rw [enqueueEvents_of_stored]
  simpa [deletionEvent] using h.event

end Repeat

end Store

end Stored

end AdaptiveLlm
