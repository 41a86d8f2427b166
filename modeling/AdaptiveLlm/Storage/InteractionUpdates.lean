import AdaptiveLlm.Lib.Transactions
import AdaptiveLlm.Storage.Idempotence

set_option autoImplicit false

/-! # Updates of an interaction

`FeedbackService.record` appends to the `feedback_ids` of a stored interaction and `save_shadow` adds to
its `shadow_cost_micros`: each writes back the whole JSON of a copy that it has read in its own
transaction. Any number of them run at once; any of them may fail and roll back.

The transactions overlap only up to the lock, so they are those of `Lib/Transactions.lean`, and
there is a serial history of the committed ones. Along a serial history each transaction reads what
the one before it wrote, so the list of ids and the sum of the costs grow by one summand per commit.
That the JSON survives being read and written again is proved for the fields the model names and for
those it carries along. -/

namespace AdaptiveLlm

namespace Stored

/-! ## Writing and reading back -/

/-- The fields of a policy that the model names. -/
def PolicyDecision.names : List String :=
  ["processing_allowed", "content_logging_allowed", "retention_seconds",
    "persistence_redaction_version", "persistence_redaction_counts"]

/-- The fields of the summary that the model names. -/
def InputSummary.names : List String := ["messages_ref", "response_format_ref"]

/-- The fields of an interaction that the model names. -/
def Interaction.names : List String :=
  ["interaction_id", "subject_id_pseudonymous", "trace_id", "request_id", "tenant_id",
    "application_id", "started_at", "completed_at", "policy", "input", "feedback_ids",
    "shadow_cost_micros", "error_code"]

/-- No field is there twice. -/
structure Interaction.Plain (i : Interaction) : Prop where
  others : ∀ f ∈ i.others, f.1 ∉ Interaction.names
  policy : ∀ f ∈ i.policy.others, f.1 ∉ PolicyDecision.names
  input : ∀ f ∈ i.input.others, f.1 ∉ InputSummary.names

theorem not_mem_of_othersOf {names : List String} {j : Json} :
    ∀ f ∈ othersOf names j, f.1 ∉ names := by
  intro f hf
  cases j with
  | obj fields => exact of_decide_eq_true (List.mem_filter.1 hf).2
  | _ => cases hf

theorem othersOf_append {names : List String} {named others : Fields}
    (hnamed : ∀ f ∈ named, f.1 ∈ names) (hothers : ∀ f ∈ others, f.1 ∉ names) :
    othersOf names (.obj (named ++ others)) = others := by
  have hnone : named.filter (fun f => f.1 ∉ names) = [] :=
    List.filter_eq_nil_iff.2 fun f hf => by simpa using hnamed f hf
  rw [othersOf, List.filter_append, hnone, List.nil_append, List.filter_eq_self]
  exact fun f hf => decide_eq_true (hothers f hf)

theorem PolicyDecision.plain_of_ofJson {j : Json} {p : PolicyDecision} (h : ofJson j = some p) :
    ∀ f ∈ p.others, f.1 ∉ PolicyDecision.names := by
  rw [ofJson_eq] at h
  obtain ⟨_, -, h⟩ := Option.bind_eq_some_iff.1 h
  obtain ⟨_, -, h⟩ := Option.bind_eq_some_iff.1 h
  obtain ⟨_, -, h⟩ := Option.bind_eq_some_iff.1 h
  obtain ⟨_, -, h⟩ := Option.bind_eq_some_iff.1 h
  obtain ⟨_, -, h⟩ := Option.bind_eq_some_iff.1 h
  cases h
  exact not_mem_of_othersOf

theorem InputSummary.plain_of_ofJson {j : Json} {i : InputSummary} (h : ofJson j = some i) :
    ∀ f ∈ i.others, f.1 ∉ InputSummary.names := by
  obtain ⟨_, -, h⟩ := Option.bind_eq_some_iff.1 h
  obtain ⟨_, -, h⟩ := Option.bind_eq_some_iff.1 h
  cases h
  exact not_mem_of_othersOf

/-- What was read has no field twice. -/
theorem Interaction.plain_of_ofJson {j : Json} {i : Interaction} (h : ofJson j = some i) : i.Plain := by
  obtain ⟨_, -, h⟩ := Option.bind_eq_some_iff.1 h
  obtain ⟨_, -, h⟩ := Option.bind_eq_some_iff.1 h
  obtain ⟨_, -, h⟩ := Option.bind_eq_some_iff.1 h
  obtain ⟨_, -, h⟩ := Option.bind_eq_some_iff.1 h
  obtain ⟨_, -, h⟩ := Option.bind_eq_some_iff.1 h
  obtain ⟨_, -, h⟩ := Option.bind_eq_some_iff.1 h
  obtain ⟨_, -, h⟩ := Option.bind_eq_some_iff.1 h
  obtain ⟨_, -, h⟩ := Option.bind_eq_some_iff.1 h
  obtain ⟨policy, hpolicy, h⟩ := Option.bind_eq_some_iff.1 h
  obtain ⟨input, hinput, h⟩ := Option.bind_eq_some_iff.1 h
  obtain ⟨_, -, h⟩ := Option.bind_eq_some_iff.1 h
  obtain ⟨_, -, h⟩ := Option.bind_eq_some_iff.1 h
  obtain ⟨_, -, h⟩ := Option.bind_eq_some_iff.1 h
  cases h
  obtain ⟨_, -, hpolicy⟩ := Option.bind_eq_some_iff.1 hpolicy
  obtain ⟨_, -, hinput⟩ := Option.bind_eq_some_iff.1 hinput
  exact ⟨not_mem_of_othersOf, PolicyDecision.plain_of_ofJson hpolicy,
    InputSummary.plain_of_ofJson hinput⟩

theorem PolicyDecision.ofJson_toJson_of_plain {p : PolicyDecision}
    (h : ∀ f ∈ p.others, f.1 ∉ PolicyDecision.names) : ofJson p.toJson = some p := by
  have hcounts : (p.toJson.field "persistence_redaction_counts").bind countsOf =
      some p.persistenceRedactionCounts := countsOf_obj p.persistenceRedactionCounts
  have hretention : (p.toJson.field "retention_seconds").bind Json.nat? = some p.retentionSeconds := by
    show Json.nat? (.ofNat p.retentionSeconds) = _
    simp [Json.nat?, Json.ofNat]
  have hothers : othersOf PolicyDecision.names p.toJson = p.others :=
    othersOf_append (by simp [PolicyDecision.names]) h
  rw [ofJson_eq, hcounts, hretention]
  exact congrArg (fun others => some { p with others }) hothers

theorem InputSummary.ofJson_toJson_of_plain {i : InputSummary}
    (h : ∀ f ∈ i.others, f.1 ∉ InputSummary.names) : ofJson i.toJson = some i := by
  have hmessages : (i.toJson.field "messages_ref").bind (Json.nullable Json.str?) =
      some i.messagesRef := Json.nullable_str_ofOption i.messagesRef
  have hformat : (i.toJson.field "response_format_ref").bind (Json.nullable Json.str?) =
      some i.responseFormatRef := Json.nullable_str_ofOption i.responseFormatRef
  have hothers : othersOf InputSummary.names i.toJson = i.others :=
    othersOf_append (by simp [InputSummary.names]) h
  unfold ofJson
  rw [hmessages, hformat]
  exact congrArg (fun others => some { i with others }) hothers

/-- **An interaction is read as it was written.** -/
theorem Interaction.ofJson_toJson_of_plain {i : Interaction} (h : i.Plain) : ofJson i.toJson = some i := by
  have hpolicy : (i.toJson.field "policy").bind PolicyDecision.ofJson = some i.policy :=
    PolicyDecision.ofJson_toJson_of_plain h.policy
  have hinput : (i.toJson.field "input").bind InputSummary.ofJson = some i.input :=
    InputSummary.ofJson_toJson_of_plain h.input
  have hfeedback : (i.toJson.field "feedback_ids").bind (Json.list? Json.str?) = some i.feedbackIds :=
    list?_arr_str i.feedbackIds
  have hcost : (i.toJson.field "shadow_cost_micros").bind Json.nat? = some i.shadowCostMicros := by
    show Json.nat? (.ofNat i.shadowCostMicros) = _
    simp [Json.nat?, Json.ofNat]
  have herror : (i.toJson.field "error_code").bind (Json.nullable Json.str?) = some i.errorCode :=
    Json.nullable_str_ofOption i.errorCode
  have hothers : othersOf Interaction.names i.toJson = i.others :=
    othersOf_append (by simp [Interaction.names]) h.others
  unfold ofJson
  rw [interactionIdOf_toJson, subjectOf_toJson, tenantIdOf_toJson, hpolicy, hinput, hfeedback, hcost,
    herror]
  exact congrArg (fun others => some { i with others }) hothers

/-! ## Calls -/

/-- A feedback or a shadow save for an interaction. The attempt of a save is of the interaction, whose
    id `execute_attempt` gives it. -/
inductive UpdateCall (tenant id : String) where
  | feedback (sv : Services) (caller : Caller) (body : FeedbackBody) (ofTenant : caller.tenantId = tenant)
  | shadow (sv : Services) (interaction : Interaction) (attempt : GenerationAttempt)
      (output : Option String) (policy : PolicyDecision) (inputRedactionFailed : Bool)
      (ofTenant : interaction.tenantId = tenant) (ofId : interaction.interactionId = id)
      (attemptOf : attempt.interactionId = id)

namespace UpdateCall

variable {tenant id : String}

/-- Runs a call; whether it has stored a record. -/
def run (s : Store) : UpdateCall tenant id → StoreResult (Bool × Store)
  | feedback sv caller body _ => (s.recordFeedback sv caller id body).map fun r => (true, r.2)
  | shadow sv interaction attempt output policy inputRedactionFailed _ _ _ =>
    s.saveShadow sv interaction attempt output policy inputRedactionFailed

/-- The id of a feedback. -/
def feedbackId : UpdateCall tenant id → Option String
  | feedback sv .. => some (sv.uid 0)
  | shadow .. => none

/-- The cost of a shadow attempt. -/
def cost : UpdateCall tenant id → ℕ
  | feedback .. => 0
  | shadow _ _ attempt .. => attempt.estimatedCostMicros.getD 0

/-- The interaction with the entry or the summand of a call. -/
def update (c : UpdateCall tenant id) (i : Interaction) : Interaction :=
  { i with
    feedbackIds := i.feedbackIds ++ c.feedbackId.toList
    shadowCostMicros := i.shadowCostMicros + c.cost }

theorem update_shadow {sv : Services} {interaction : Interaction} {attempt : GenerationAttempt}
    {output : Option String} {policy : PolicyDecision} {inputRedactionFailed : Bool}
    {ofTenant : interaction.tenantId = tenant} {ofId : interaction.interactionId = id}
    {attemptOf : attempt.interactionId = id} (i : Interaction) :
    (shadow sv interaction attempt output policy inputRedactionFailed ofTenant ofId attemptOf).update i =
      { i with shadowCostMicros := i.shadowCostMicros + attempt.estimatedCostMicros.getD 0 } := by
  simp [update, feedbackId, cost]

/-- The row that a call stores. -/
def Stores (row : RecordRow) : UpdateCall tenant id → Prop
  | feedback sv .. =>
    ∃ f expires, f.feedbackId = sv.uid 0 ∧ f.interactionId = id ∧
      row = Store.rowOf tenant expires (.feedback f)
  | shadow _ _ attempt .. =>
    ∃ a expires, a.attemptId = attempt.attemptId ∧ a.interactionId = id ∧
      a.estimatedCostMicros = attempt.estimatedCostMicros ∧
      row = Store.rowOf tenant expires (.attempt a)

end UpdateCall

/-! ## What a call does -/

namespace Store

variable {sv : Services} {s s' : Store} {tenant id : String}

/-- The records of an interaction but itself. -/
def ownRecords (s : Store) (tenant id : String) : List RecordRow :=
  s.records.filter fun row =>
    row.kind ≠ .interactions && row.tenantId = tenant && row.interactionId = id

theorem getInteraction_of_row {i : Interaction} {row : RecordRow}
    (hrow : s.interactionRow tenant id = some row) (hread : Interaction.ofJson row.data = some i) :
    s.getInteraction tenant id = .ok (some i) := by
  unfold getInteraction
  rw [hrow]
  dsimp only
  rw [hread]

theorem interactionRow_updateInteraction {row : RecordRow} (i : Interaction)
    (h : s.interactionRow tenant id = some row) :
    (s.updateInteraction tenant id i).interactionRow tenant id = some { row with data := i.toJson } := by
  obtain ⟨-, hkind, htenant, hid⟩ := interactionRow_eq_some h
  unfold interactionRow updateInteraction at *
  dsimp only
  rw [List.find?_map]
  have hsame : ((fun row : RecordRow => decide (row.kind = .interactions) &&
      decide (row.tenantId = tenant) && decide (row.recordId = id)) ∘ fun row : RecordRow =>
      if row.kind = .interactions && row.tenantId = tenant && row.recordId = id then
        { row with data := i.toJson } else row) =
      fun row : RecordRow => decide (row.kind = .interactions) && decide (row.tenantId = tenant) &&
        decide (row.recordId = id) := by
    funext row
    dsimp only [Function.comp]
    split <;> rfl
  rw [hsame, h, Option.map_some, if_pos (by simp [hkind, htenant, hid])]

theorem ownRecords_updateInteraction {id' : String} (i : Interaction) :
    (s.updateInteraction tenant id' i).ownRecords tenant id = s.ownRecords tenant id := by
  refine filter_map_of_fixed _ (fun row => ?_) fun row hrow => ?_
  · split <;> rfl
  · rw [if_neg]
    simp only [Bool.and_eq_true, decide_eq_true_eq] at hrow ⊢
    exact fun hrow' => hrow.1.1 hrow'.1.1

/-- A call has stored one record, and written the interaction with its entry or summand. -/
structure Updated (s s' : Store) (c : UpdateCall tenant id) : Prop where
  row : ∀ row i, s.interactionRow tenant id = some row → Interaction.ofJson row.data = some i →
    i.interactionId = id →
    s'.interactionRow tenant id = some { row with data := (c.update i).toJson }
  own : ∃ row, c.Stores row ∧ s'.ownRecords tenant id = s.ownRecords tenant id ++ [row]

theorem sealFeedback_keys {body : FeedbackBody} {feedback : Feedback} {policy : PolicyDecision}
    {format : Option ResponseFormat} {expires : ℤ} {out : Feedback × Option EncryptedPayload}
    (h : sealFeedback sv tenant id body feedback policy format expires = .ok out) :
    out.1.feedbackId = feedback.feedbackId ∧ out.1.interactionId = feedback.interactionId := by
  unfold sealFeedback at h
  split at h
  · cases h
    exact ⟨rfl, rfl⟩
  split at h
  · cases h
    exact ⟨rfl, rfl⟩
  split at h
  · cases h
    exact ⟨rfl, rfl⟩
  · obtain ⟨_, -, h⟩ := Except.bind_eq_ok.1 h
    obtain ⟨blob, -, h⟩ := Except.bind_eq_ok.1 h
    cases h
    dsimp only
    split <;> exact ⟨rfl, rfl⟩

/-- Storing a record that is no interaction, beside payloads. -/
theorem put_beside {record : StoredRecord} {expires : ℤ} {t : Store} (hrecords : t.records = s.records)
    (hput : t.put tenant record expires = .ok s') (hkind : record.kind ≠ .interactions)
    (hid : record.interactionId = id) :
    (∀ row, s.interactionRow tenant id = some row → s'.interactionRow tenant id = some row) ∧
      s'.ownRecords tenant id = s.ownRecords tenant id ++ [rowOf tenant expires record] := by
  rw [(put_eq_ok hput).2]
  constructor
  · intro row hrow
    refine interactionRow_append (s := t) ?_
    unfold interactionRow at *
    rwa [hrecords]
  · unfold ownRecords
    rw [List.filter_append, hrecords, List.filter_cons_of_pos (by simpa [rowOf, hid] using hkind)]
    rfl

theorem recordFeedback_updated {caller : Caller} {body : FeedbackBody} {feedback : Feedback}
    (ofTenant : caller.tenantId = tenant)
    (h : s.recordFeedback sv caller id body = .ok (feedback, s')) :
    Updated s s' (.feedback sv caller body ofTenant : UpdateCall tenant id) := by
  subst ofTenant
  obtain ⟨found, hfound, h⟩ := Except.bind_eq_ok.1 h
  split at h
  · cases h
  rename_i interaction
  obtain ⟨_, -, h⟩ := Except.bind_eq_ok.1 h
  obtain ⟨_, -, h⟩ := Except.bind_eq_ok.1 h
  obtain ⟨_, -, h⟩ := Except.bind_eq_ok.1 h
  obtain ⟨_, -, h⟩ := Except.bind_eq_ok.1 h
  obtain ⟨_, -, h⟩ := Except.bind_eq_ok.1 h
  obtain ⟨⟨feedback, blob⟩, hseal, h⟩ := Except.bind_eq_ok.1 h
  obtain ⟨s₁, hstore, h⟩ := Except.bind_eq_ok.1 h
  cases h
  obtain ⟨s₂, hblob, hstore⟩ := Except.bind_eq_ok.1 hstore
  obtain ⟨s₃, hput, hstore⟩ := Except.bind_eq_ok.1 hstore
  obtain ⟨s₄, happend, hstore⟩ := Except.bind_eq_ok.1 hstore
  cases hstore
  obtain ⟨_, -, happend⟩ := Except.bind_eq_ok.1 happend
  cases happend
  have hkeys : feedback.feedbackId = sv.uid 0 ∧ feedback.interactionId = id := by
    obtain ⟨hfeedback, hid⟩ := sealFeedback_keys hseal
    cases body <;> exact ⟨hfeedback, hid⟩
  obtain ⟨hrow, hown⟩ := put_beside (putPayloads_records hblob) hput nofun hkeys.2
  constructor
  · intro row i hi hread hid
    have hsame : interaction = i := by
      rw [getInteraction_of_row hi hread] at hfound
      cases hfound
      rfl
    subst hsame
    have hupdated := interactionRow_updateInteraction
      { interaction with feedbackIds := interaction.feedbackIds ++ [feedback.feedbackId] } (hrow row hi)
    rw [hkeys.1] at hupdated
    subst hid
    rw [hkeys.1]
    exact hupdated
  · exact ⟨_, ⟨feedback, _, hkeys.1, hkeys.2, rfl⟩, (ownRecords_updateInteraction _).trans hown⟩

theorem addShadowCost_cases {costMicros : ℕ} (h : s.addShadowCost tenant id costMicros = .ok s') :
    s' = s ∧ s.getInteraction tenant id = .ok none ∨
    ∃ i, s.getInteraction tenant id = .ok (some i) ∧
      s' = s.updateInteraction tenant id
        { i with shadowCostMicros := i.shadowCostMicros + costMicros } := by
  obtain ⟨_, -, h⟩ := Except.bind_eq_ok.1 h
  obtain ⟨found, hfound, h⟩ := Except.bind_eq_ok.1 h
  cases found with
  | none =>
    cases h
    exact .inl ⟨rfl, hfound⟩
  | some i =>
    cases h
    exact .inr ⟨i, hfound, rfl⟩

/-- The cost of an attempt is added to the interaction as it is stored. -/
theorem addShadowCost_updated {costMicros : ℕ} (h : s.addShadowCost tenant id costMicros = .ok s') :
    (∀ row i, s.interactionRow tenant id = some row → Interaction.ofJson row.data = some i →
      s'.interactionRow tenant id = some { row with
        data := ({ i with shadowCostMicros := i.shadowCostMicros + costMicros } : Interaction).toJson }) ∧
      s'.ownRecords tenant id = s.ownRecords tenant id := by
  obtain ⟨rfl, hnone⟩ | ⟨found, hfound, rfl⟩ := addShadowCost_cases h
  · refine ⟨fun row i hrow hread => ?_, rfl⟩
    rw [getInteraction_of_row hrow hread] at hnone
    cases hnone
  · refine ⟨fun row i hrow hread => ?_, ownRecords_updateInteraction _⟩
    rw [getInteraction_of_row hrow hread] at hfound
    cases hfound
    exact interactionRow_updateInteraction _ hrow

theorem saveShadow_updated {interaction : Interaction} {attempt : GenerationAttempt}
    {output : Option String} {policy : PolicyDecision} {inputRedactionFailed stored : Bool}
    (ofTenant : interaction.tenantId = tenant)
    (ofId : interaction.interactionId = id) (attemptOf : attempt.interactionId = id)
    (h : s.saveShadow sv interaction attempt output policy inputRedactionFailed = .ok (stored, s')) :
    stored = false ∧ s' = s ∨ stored = true ∧
      Updated s s' (.shadow sv interaction attempt output policy inputRedactionFailed ofTenant ofId
        attemptOf) := by
  subst ofTenant ofId
  unfold saveShadow at h
  dsimp only at h
  split at h
  · cases h
    exact .inl ⟨rfl, rfl⟩
  unfold saveShadowAttempt at h
  dsimp only at h
  split at h
  · cases h
    exact .inl ⟨rfl, rfl⟩
  obtain ⟨blob, -, h⟩ := Except.bind_eq_ok.1 h
  obtain ⟨s₁, hblob, h⟩ := Except.bind_eq_ok.1 h
  obtain ⟨s₂, hput, h⟩ := Except.bind_eq_ok.1 h
  obtain ⟨s₃, hcost, h⟩ := Except.bind_eq_ok.1 h
  cases h
  obtain ⟨hrow, hown⟩ := put_beside (putPayloads_records hblob) hput nofun attemptOf
  obtain ⟨hrow', hown'⟩ := addShadowCost_updated hcost
  refine .inr ⟨rfl, fun row i hi hread _ => ?_, _, ⟨_, _, ?_, ?_, ?_, rfl⟩, hown'.trans hown⟩
  · have hupdated := hrow' row i (hrow row hi) hread
    rw [UpdateCall.update_shadow]
    exact hupdated
  · rfl
  · exact attemptOf
  · rfl

/-- What a call does: it stores its record and its entry or summand, or it changes nothing. -/
theorem run_updated {c : UpdateCall tenant id} {stored : Bool} (h : c.run s = .ok (stored, s')) :
    stored = false ∧ s' = s ∨ stored = true ∧ Updated s s' c := by
  cases c with
  | feedback sv caller body ofTenant =>
    obtain ⟨⟨feedback, t⟩, hrecord, heq⟩ := Except.map_eq_ok.1 h
    cases heq
    exact .inr ⟨rfl, recordFeedback_updated ofTenant hrecord⟩
  | shadow sv interaction attempt output policy inputRedactionFailed ofTenant ofId attemptOf =>
    exact saveShadow_updated ofTenant ofId attemptOf h

end Store

/-! ## Many calls at once

The committed calls are a serial history, in which the row after each is the row before it with one
entry or summand more. -/

section Run

variable {tenant id : String} {s s' s₀ : Store} {i : Interaction} {row : RecordRow}
  {cs : List (UpdateCall tenant id)} {c : UpdateCall tenant id}

/-- The interaction with the entries and summands of some calls. -/
def Interaction.withUpdates (i : Interaction) (cs : List (UpdateCall tenant id)) : Interaction :=
  { i with
    feedbackIds := i.feedbackIds ++ cs.filterMap UpdateCall.feedbackId
    shadowCostMicros := i.shadowCostMicros + (cs.map UpdateCall.cost).sum }

theorem Interaction.withUpdates_nil : i.withUpdates ([] : List (UpdateCall tenant id)) = i := by
  simp [withUpdates]

theorem UpdateCall.update_withUpdates : c.update (i.withUpdates cs) = i.withUpdates (cs ++ [c]) := by
  have hfeedback : c.feedbackId.toList = [c].filterMap feedbackId := by
    cases hc : c.feedbackId <;> simp [hc]
  simp [update, Interaction.withUpdates, hfeedback, Nat.add_assoc]

theorem Interaction.Plain.update (h : i.Plain) : (c.update i).Plain where
  others := h.others
  policy := h.policy
  input := h.input

/-- The interaction and its records are those of `s₀` with the updates of the calls `cs`. -/
structure Accounted (s₀ : Store) (row : RecordRow) (i : Interaction) (cs : List (UpdateCall tenant id))
    (s : Store) : Prop where
  interaction : ∃ data, s.interactionRow tenant id = some { row with data } ∧
    Interaction.ofJson data = some (i.withUpdates cs)
  own : ∃ rows, List.Forall₂ (fun c row => UpdateCall.Stores row c) cs rows ∧
    s.ownRecords tenant id = s₀.ownRecords tenant id ++ rows

theorem Accounted.update (h : Accounted s₀ row i cs s) (hid : i.interactionId = id)
    (hupdated : Store.Updated s s' c) : Accounted s₀ row i (cs ++ [c]) s' := by
  obtain ⟨data, hrow, hread⟩ := h.interaction
  obtain ⟨rows, hstored, hrows⟩ := h.own
  obtain ⟨new, hnew, hown⟩ := hupdated.own
  constructor
  · have hwritten := hupdated.row _ _ hrow hread hid
    have hplain := (Interaction.plain_of_ofJson hread).update (c := c)
    refine ⟨_, hwritten, ?_⟩
    rw [← UpdateCall.update_withUpdates]
    exact Interaction.ofJson_toJson_of_plain hplain
  · refine ⟨rows ++ [new], List.rel_append hstored (.cons hnew .nil), ?_⟩
    rw [hown, hrows, List.append_assoc]

/-- What else happens to the store leaves the interaction and its records alone. -/
def Elsewhere (tenant id : String) (s s' : Store) : Prop :=
  s'.interactionRow tenant id = s.interactionRow tenant id ∧
    s'.ownRecords tenant id = s.ownRecords tenant id

theorem Accounted.elsewhere (h : Accounted s₀ row i cs s) (hother : Elsewhere tenant id s s') :
    Accounted s₀ row i cs s' where
  interaction := by rw [hother.1]; exact h.interaction
  own := by rw [hother.2]; exact h.own

variable {τ : Type} (calls : τ → UpdateCall tenant id)

/-- The committed calls that have stored a record, in the order of their commits. -/
def committedCalls (log : List (τ × Bool)) : List (UpdateCall tenant id) :=
  (log.filter Prod.snd).map fun e => calls e.1

/-- One step of the calls, or of the rest. -/
abbrev UpdateStep [DecidableEq τ] :
    Transactions.System τ Store Bool → Transactions.System τ Store Bool → Prop :=
  Transactions.Step (fun t stored s s' => (calls t).run s = .ok (stored, s')) (Elsewhere tenant id)

variable {calls}

/-- **Calls after one another.** -/
theorem accounted_of_serial {log : List (τ × Bool)}
    (h : Serial (fun (e : τ × Bool) s s' => (calls e.1).run s = .ok (e.2, s')) (Elsewhere tenant id)
      s log s')
    (hrow : s.interactionRow tenant id = some row) (hread : Interaction.ofJson row.data = some i)
    (hid : i.interactionId = id) : Accounted s row i (committedCalls calls log) s' := by
  refine Serial.of_invariant (fun log s' => Accounted s row i (committedCalls calls log) s') h
    (fun _ _ _ hinv hother => hinv.elsewhere hother) ?_ ⟨⟨_, hrow, ?_⟩, [], .nil, by simp⟩
  · intro log e t u hinv hrun
    obtain ⟨hstored, rfl⟩ | ⟨hstored, hupdated⟩ := Store.run_updated hrun
    · simpa [committedCalls, hstored] using hinv
    · simpa [committedCalls, hstored] using hinv.update hid hupdated
  · rw [committedCalls, List.filter_nil, List.map_nil, Interaction.withUpdates_nil]
    exact hread

/-- **No update is lost**, whatever overlaps and whatever fails: the interaction has the entries and the
summands of the committed calls in the order of their commits, and nothing else of it has changed; each
of these calls has stored its record. -/
theorem no_lost_update [DecidableEq τ] {σ₀ σ : Transactions.System τ Store Bool}
    (h₀ : Transactions.Fresh σ₀) (hrun : Relation.ReflTransGen (UpdateStep calls) σ₀ σ)
    (hrow : σ₀.store.interactionRow tenant id = some row) (hread : Interaction.ofJson row.data = some i)
    (hid : i.interactionId = id) :
    (∃ data, σ.store.interactionRow tenant id = some { row with data } ∧
      Interaction.ofJson data = some { i with
        feedbackIds := i.feedbackIds ++ (committedCalls calls σ.log).filterMap UpdateCall.feedbackId
        shadowCostMicros :=
          i.shadowCostMicros + ((committedCalls calls σ.log).map UpdateCall.cost).sum }) ∧
      (∃ rows, List.Forall₂ (fun c row => UpdateCall.Stores row c) (committedCalls calls σ.log) rows ∧
        σ.store.ownRecords tenant id = σ₀.store.ownRecords tenant id ++ rows) ∧
      (σ.log.map Prod.fst).Nodup ∧ ∀ t stored, (t, stored) ∈ σ.log ↔ σ.phase t = .returned stored := by
  have hinv := Transactions.Inv.run h₀ hrun
  have haccounted := accounted_of_serial hinv.serial hrow hread hid
  exact ⟨haccounted.interaction, haccounted.own, hinv.nodup, hinv.logged⟩

end Run

namespace SupportStore

/-- A feedback, the save of a shadow attempt, and a feedback of the wrong application. -/
def updates : Fin 3 → UpdateCall "acme" "i1"
  | 0 => .feedback (services 5) ⟨"acme", ["desk"], some "alice"⟩ (.correction "hi" true) rfl
  | 1 => .shadow (services 7) interaction
      { attemptId := "a2", interactionId := "i1", estimatedCostMicros := some 3 } (some "hello") policy
      false rfl rfl rfl
  | 2 => .feedback (services 8) ⟨"acme", ["shop"], some "bob"⟩ (.correction "hi" true) rfl

/-- The store with the interaction. -/
def store : Store := ({} : Store).after [saved]

/-- The row of the interaction. -/
def stored : RecordRow :=
  (store.interactionRow "acme" "i1").getD (Store.rowOf "acme" 0 (.interaction interaction))

theorem stored_read : store.interactionRow "acme" "i1" = some stored ∧
    ∃ i, Interaction.ofJson stored.data = some i ∧ i.interactionId = "i1" ∧ i.feedbackIds = [] ∧
      i.shadowCostMicros = 0 := by
  have hstored : (store.interactionRow "acme" "i1").isSome := by decide +kernel
  refine ⟨by rw [stored, Option.getD_of_ne_none (Option.isSome_iff_ne_none.1 hstored)], ?_⟩
  have hread : (Interaction.ofJson stored.data).map (fun i => (i.interactionId, i.feedbackIds,
    i.shadowCostMicros)) = some ("i1", [], 0) := by decide +kernel
  obtain ⟨i, hi, hfields⟩ := Option.map_eq_some_iff.1 hread
  obtain ⟨hid, hfeedback, hcost⟩ : i.interactionId = "i1" ∧ i.feedbackIds = [] ∧
      i.shadowCostMicros = 0 := by
    simpa using hfields
  exact ⟨i, hi, hid, hfeedback, hcost⟩

/-- The first call commits, the third fails in its transaction, the second commits. -/
theorem exists_run : ∃ σ,
    Relation.ReflTransGen (UpdateStep updates) ⟨store, none, fun _ => .waiting, []⟩ σ ∧
      σ.log = [(0, true), (1, true)] := by
  have hboth : (do
      let first ← (updates 0).run store
      let second ← (updates 1).run first.2
      .ok (first.1, second.1) : StoreResult (Bool × Bool)) = .ok (true, true) := by decide +kernel
  obtain ⟨⟨_, s₁⟩, hfirst, hboth⟩ := Except.bind_eq_ok.1 hboth
  obtain ⟨⟨_, s₂⟩, hsecond, hboth⟩ := Except.bind_eq_ok.1 hboth
  cases hboth
  have hrun := Transactions.Step.whole (s := ⟨store, none, fun _ => .waiting, []⟩)
    (E := Elsewhere "acme" "i1") (R := fun t stored s s' => (updates t).run s = .ok (stored, s')) (t := 0)
    rfl rfl hfirst
  have hrun := hrun.trans (Transactions.Step.failing (t := 2) rfl rfl)
  exact ⟨_, hrun.trans (Transactions.Step.whole (t := 1) rfl rfl hsecond), rfl⟩

end SupportStore

open SupportStore in
/-- Two calls that commit, beside one that fails. -/
theorem supported_interaction_updated : ∃ σ : Transactions.System (Fin 3) Store Bool,
    (∃ data i, σ.store.interactionRow "acme" "i1" = some { stored with data } ∧
      Interaction.ofJson data = some i ∧ i.feedbackIds = ["f"] ∧ i.shadowCostMicros = 3) := by
  obtain ⟨σ, hrun, hlog⟩ := exists_run
  obtain ⟨hrow, i, hread, hid, hfeedback, hcost⟩ := stored_read
  obtain ⟨⟨data, hdata, hupdated⟩, -⟩ := no_lost_update ⟨rfl, fun _ => rfl, rfl⟩ hrun hrow hread hid
  rw [hlog, hfeedback, hcost] at hupdated
  have hentries : (committedCalls updates [(0, true), (1, true)]).filterMap UpdateCall.feedbackId =
    ["f"] := by decide +kernel
  have hcosts : ((committedCalls updates [(0, true), (1, true)]).map UpdateCall.cost).sum = 3 := by
    decide +kernel
  exact ⟨σ, data, _, hdata, hupdated, hentries, hcosts⟩

end Stored

end AdaptiveLlm
