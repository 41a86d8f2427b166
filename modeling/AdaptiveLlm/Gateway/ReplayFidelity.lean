import AdaptiveLlm.Datasets.ShardReads
import AdaptiveLlm.Gateway.Replays
import AdaptiveLlm.Lib.JsonRoundTrip
import AdaptiveLlm.Storage.Idempotence
import AdaptiveLlm.Storage.Retention

set_option autoImplicit false

/-! # Replays

`InferenceService.infer` with a key whose entry is stored answers with the stored response, which its
payload holds encrypted. The payload goes with its entry alone, and a rotation of keys encrypts the same
text anew, so that it opens to what was saved as long as the entry is there and the ring has its key.
What was saved is read back through the contract, which a redaction can have made the content too long
for.

The result is about a chain of many parts: the fingerprint of the request forms the key, the save
stores the response redacted and sealed, sweeps and rotations pass over the store, the entry is
looked up, its payload opened and read back by the contract. Two invariants carry it. The first ties
each entry to its payload and to the text that was saved; the second says under which keys the
payload can have been sealed anew. -/

namespace AdaptiveLlm

namespace Stored

open Crypto (PayloadCipher)
open Store

namespace Store

variable {s s' : Store}

/-- `get_replay`. -/
def getReplay (s : Store) (tenant applicationId requestId : String) (now : ℤ) : Option ReplayRecord :=
  s.replayEntries.find? fun e => e.tenantId = tenant && e.applicationId = applicationId &&
    e.requestId = requestId && e.expiresAt > now

/-! ## What a payload opens to

An entry refers to a payload, and between the save and the replay the payload may be encrypted anew,
the interaction deleted or the entry evicted. While the entry is there its payload opens to the text
that was saved. -/

/-- Calls with the keys of one ring, of which none stores the entry with another text. -/
def bringing (ring : PayloadCipher) (e : ReplayRecord) (text : String) : Brought where
  used sv := ∃ c, sv.Uses c ∧ c.Within ring
  stored e' text' := e' = e → text' = text

/-- The payload that the entry refers to opens to the text, while the entry is there. -/
structure Opens (ring : PayloadCipher) (e : ReplayRecord) (text : String) (s : Store) : Prop where
  inv : s.RetentionInv
  opens : e ∈ s.replayEntries → ∀ p ∈ s.payloads, e.refersTo p = true →
    ring.openText p e.tenantId e.interactionId "replay" = some text

section Opens

variable {ring : PayloadCipher} {e : ReplayRecord} {text : String}

theorem Opens.of_subset (h : Opens ring e text s) (hinv : s'.RetentionInv)
    (hentries : s'.replayEntries ⊆ s.replayEntries) (hpayloads : s'.payloads ⊆ s.payloads) :
    Opens ring e text s' :=
  ⟨hinv, fun he p hp => h.opens (hentries he) p (hpayloads hp)⟩

/-- A new payload is that of no entry there is. -/
theorem Opens.putPayload (h : Opens ring e text s) {p : EncryptedPayload} (hput : s.putPayload p = .ok s')
    (hinv : s'.RetentionInv) : Opens ring e text s' := by
  obtain ⟨hfresh, rfl⟩ := putPayload_fresh hput
  refine ⟨hinv, fun he q hq hrefers => ?_⟩
  rcases List.mem_append.1 hq with hq | hq
  · exact h.opens he q hq hrefers
  · rw [List.mem_singleton.1 hq, h.inv.keys.fresh hfresh he] at hrefers
    cases hrefers

/-- A text that is encrypted anew is the text it was. -/
theorem Opens.rewrap (h : Opens ring e text s) {sv : Services} {c : PayloadCipher} (huses : sv.Uses c)
    (hwithin : c.Within ring) {k : ℕ} {p : EncryptedPayload}
    (hrow : ∀ q ∈ s.payloads, q.tenantId = p.tenantId → q.reference = p.reference → q = p)
    (hstep : s.rewrap sv k p = .ok s') (hinv : s'.RetentionInv) : Opens ring e text s' := by
  obtain ⟨plain, replacement, hdecrypt, hencrypt, hreplace⟩ := rewrap_eq_ok hstep
  have hs' := replaceCiphertext_eq_ok hreplace
  refine ⟨hinv, fun he q hq hrefers => ?_⟩
  rw [hs'] at he hq
  obtain ⟨q₀, hq₀, rfl⟩ := List.mem_map.1 hq
  by_cases hmatch : q₀.tenantId = p.tenantId ∧ q₀.reference = p.reference
  · obtain rfl := hrow q₀ hq₀ hmatch.1 hmatch.2
    rw [if_pos hmatch] at hrefers ⊢
    have hrefers₀ : e.refersTo q₀ = true := hrefers
    obtain ⟨hid, hfield, -⟩ := h.inv.bound e he q₀ hq₀ hrefers₀
    have htenant : e.tenantId = q₀.tenantId := by
      simp only [ReplayRecord.refersTo, Bool.and_eq_true, decide_eq_true_eq] at hrefers₀
      exact hrefers₀.1
    have hplain : plain = text := by
      rw [huses.decrypt] at hdecrypt
      have hold := h.opens he q₀ hq₀ hrefers₀
      rw [htenant, ← hid, ← hfield, hwithin.openText hdecrypt] at hold
      exact Option.some.inj hold
    have hsame := (huses.binds.encrypt hencrypt).2.2.1
    have hopen := huses.openText hwithin hencrypt
    rw [hplain] at hopen
    rw [htenant, ← hid, ← hfield, ← hopen]
    -- what a payload opens to depends on its ciphertext and its field
    simp only [PayloadCipher.openText, hsame]
  · rw [if_neg hmatch] at hrefers ⊢
    exact h.opens he q₀ hq₀ hrefers

/-- A replay that is put is another one, or has the text. -/
theorem Opens.replay (h : Opens ring e text s) {sv : Services} {c : PayloadCipher} (huses : sv.Uses c)
    (hwithin : c.Within ring) {k capacity : ℕ} {content : String} {e' : ReplayRecord}
    {p : EncryptedPayload} {s₁ : Store}
    (encrypted : sv.encrypt k content e'.tenantId e'.interactionId "replay" e'.expiresAt = .ok p)
    (reference : e'.responseRef = p.reference) (allowed : e' = e → content = text)
    (put : s.putPayload p = .ok s₁) (done : s₁.replaceReplay e' capacity = .ok s')
    (hinv : s'.RetentionInv) : Opens ring e text s' := by
  have hreplaced := replaced_of_ok (h.inv.keys.putPayload put) done
  obtain ⟨hfresh, rfl⟩ := putPayload_fresh put
  refine ⟨hinv, fun he q hq hrefers => ?_⟩
  have hq : q ∈ s.payloads ∨ q = p := by simpa using ((hreplaced.payloads q).1 hq).1
  have he := hreplaced.subset he
  rw [List.mem_append, List.mem_singleton] at he
  rcases he with he | rfl <;> rcases hq with hq | rfl
  · exact h.opens he q hq hrefers
  · rw [h.inv.keys.fresh hfresh he] at hrefers
    cases hrefers
  · have htenant := (huses.binds.encrypt encrypted).1
    simp only [ReplayRecord.refersTo, Bool.and_eq_true, decide_eq_true_eq] at hrefers
    exact absurd ⟨hrefers.1.symm.trans htenant.symm, hrefers.2.symm.trans reference⟩ (hfresh q hq)
  · rw [← allowed rfl]
    exact huses.openText hwithin encrypted

theorem Opens.change (h : Opens ring e text s) (hchange : Change (bringing ring e text) s s') :
    Opens ring e text s' := by
  have hinv : s'.RetentionInv := h.inv.change (by rintro sv ⟨_, huses, _⟩; exact huses.binds) hchange
  have hsame : s'.replayEntries = s.replayEntries → s'.payloads = s.payloads → Opens ring e text s' :=
    fun hentries hpayloads => h.of_subset hinv (hentries ▸ List.Subset.refl _)
      (hpayloads ▸ List.Subset.refl _)
  cases hchange with
  | put tenant record expires counts done =>
    exact hsame (by rw [(put_eq_ok done).2]) (by rw [(put_eq_ok done).2])
  | payload sv _ _ _ _ done => exact h.putPayload done hinv
  | replay sv hsv e' capacity encrypted reference allowed put done =>
    obtain ⟨c, huses, hwithin⟩ := hsv
    exact h.replay huses hwithin encrypted reference allowed put done hinv
  | expire tenant id done =>
    have hcleared := cleared_of_expire done
    refine h.of_subset hinv ?_ ?_
    · rw [hcleared.replayEntries]
      exact List.filter_subset_self _
    · rw [hcleared.payloads]
      exact List.filter_subset_self _
  | expireReplay tenant applicationId requestId done =>
    have hs' := deleteReplay_eq_ok h.inv.keys.unique done
    refine h.of_subset hinv ?_ ?_ <;> rw [hs'] <;> exact List.filter_subset_self _
  | erase tenant id deletion done =>
    refine h.of_subset hinv ?_ ?_ <;> rw [erase_eq_ok done] <;> exact List.filter_subset_self _
  | tombstoneSubject tenant deletion done =>
    exact hsame (by rw [tombstoneSubject_eq_ok done]) (by rw [tombstoneSubject_eq_ok done])
  | rewrap sv hsv k p row done =>
    obtain ⟨c, huses, hwithin⟩ := hsv
    exact h.rewrap huses hwithin row done hinv
  | update | events | outbox => exact hsame rfl rfl

/-- The entry is that of the interaction, with the fingerprint. -/
structure EntryOf (graph : InteractionGraph) (fingerprint : String) (e : ReplayRecord) : Prop where
  tenantId : e.tenantId = graph.interaction.tenantId
  applicationId : e.applicationId = graph.interaction.applicationId
  requestId : e.requestId = graph.interaction.requestId
  interactionId : e.interactionId = graph.interaction.interactionId
  fingerprint_eq : e.fingerprint = fingerprint

/-- A save that returns a replay has stored the graph with it. -/
theorem save_eq_some {sv : Services} {graph : InteractionGraph} {response : Option InferenceResponse}
    {content : PersistenceContent} {fingerprint : String} {reservedAt : ℤ} {i : Interaction}
    (h : s.save sv graph response content fingerprint reservedAt = ((i, some e), s')) :
    EntryOf graph fingerprint e ∧ ∃ g expires events, s.saveGraph sv g expires events = .ok s' ∧
      g.replay = some e ∧ g.graph.interaction.tenantId = e.tenantId ∧
      g.graph.interaction.interactionId = e.interactionId := by
  unfold save at h
  dsimp only at h
  split at h
  · cases h
  rename_i g t htry
  obtain ⟨g, hg, htry⟩ := Except.bind_eq_ok.1 htry
  obtain ⟨t, hgraph, htry⟩ := Except.bind_eq_ok.1 htry
  cases htry
  simp only [Prod.mk.injEq] at h
  obtain ⟨⟨-, hreplay⟩, rfl⟩ := h
  have hsealed := Services.sealGraph_eq_ok hg
  obtain ⟨input, hinteraction⟩ := hsealed.interaction
  obtain ⟨_, -, ⟨-, hnone⟩ | ⟨output, r, p, e', -, -, -, hsome, hseals⟩⟩ := hsealed.blobs
  · rw [hnone] at hreplay
    cases hreplay
  obtain rfl : e' = e := Option.some.inj (hsome.symm.trans hreplay)
  have hentry := hseals.entry
  subst hentry
  exact ⟨⟨rfl, rfl, rfl, rfl, rfl⟩, g, _, _, hgraph, hreplay, by rw [hinteraction], by rw [hinteraction]⟩

/-- A save whose replay is stored stores a new interaction with it. -/
theorem save_row {sv : Services} {graph : InteractionGraph} {response : Option InferenceResponse}
    {content : PersistenceContent} {fingerprint : String} {reservedAt : ℤ} {i : Interaction}
    (h : s.save sv graph response content fingerprint reservedAt = ((i, some e), s')) :
    s.interactionRow e.tenantId e.interactionId = none ∧
      (s'.interactionRow e.tenantId e.interactionId).isSome = true := by
  obtain ⟨-, g, expires, events, hgraph, hreplay, htenant, hid⟩ := save_eq_some h
  rw [← htenant, ← hid]
  obtain ⟨s₁, hrecords, hgraph⟩ := Except.bind_eq_ok.1 hgraph
  obtain ⟨s₂, hblobs, hgraph⟩ := Except.bind_eq_ok.1 hgraph
  obtain ⟨s₃, hsaved, hgraph⟩ := Except.bind_eq_ok.1 hgraph
  cases hgraph
  obtain ⟨s₀, hput, hrest⟩ := Except.bind_eq_ok.1 hrecords
  refine ⟨put_fresh hput, ?_⟩
  -- the rows that are put after it, and what follows, leave its row
  have hrow := (@putAll_changes {} s₀ s₁ _ _ _ (fun _ _ => trivial) hrest).2 _ _ _ (put_expiresAt hput)
  have hkept : s₃.records = s₁.records := by
    rw [hreplay] at hsaved
    obtain ⟨t, hdelete, hputReplay⟩ := Except.bind_eq_ok.1 hsaved
    exact ((onlyPayloads_of_putReplay hputReplay).rest.1.trans
      (onlyPayloads_of_deleteReplay hdelete).rest.1).trans (putPayloads_records hblobs)
  obtain ⟨row, hrow, -⟩ := Option.map_eq_some_iff.1 (keepsExpiry_of_records hkept _ _ _ hrow)
  exact Option.isSome_iff_exists.2 ⟨row, hrow⟩

/-- What a save leaves of the entry that it stores. -/
theorem save_opens (hinv : s.RetentionInv) (hkeys : s.PayloadKeys) {sv : Services}
    {c : PayloadCipher} (huses : sv.Uses c)
    (hwithin : c.Within ring) {graph : InteractionGraph} {response : InferenceResponse}
    {content : PersistenceContent} {output fingerprint : String} {reservedAt : ℤ} {i : Interaction}
    (houtput : content.output = some output)
    (h : s.save sv graph (some response) content fingerprint reservedAt = ((i, some e), s')) :
    Opens ring e (sv.dumps { response with content := output }.toJson) s' ∧ s'.PayloadKeys := by
  have hstart : Opens ring e (sv.dumps { response with content := output }.toJson) s := by
    -- the interaction is new, so the entry is
    refine ⟨hinv, fun he => ?_⟩
    obtain ⟨p, hp, hrefers⟩ := hinv.keys.stored e he
    have hactive := hinv.active p hp
    rw [(hinv.bound e he p hp hrefers).1] at hactive
    simp only [ReplayRecord.refersTo, Bool.and_eq_true, decide_eq_true_eq] at hrefers
    rw [← hrefers.1, stateOf, (save_row h).1] at hactive
    cases hactive
  have hchanges := @save_changes (bringing ring e (sv.dumps { response with content := output }.toJson))
    s sv ⟨c, huses, hwithin⟩ graph (some response) content trivial fingerprint reservedAt
    (fun _ output' r e' houtput' hresponse _ _ _ _ => by
      obtain rfl : output' = output := Option.some.inj (houtput'.symm.trans houtput)
      obtain rfl : r = response := (Option.some.inj hresponse).symm
      rfl)
  rw [h] at hchanges
  have hkeep : ∀ a b, Opens ring e (sv.dumps { response with content := output }.toJson) a ∧ a.PayloadKeys →
      Change (bringing ring e (sv.dumps { response with content := output }.toJson)) a b →
      Opens ring e (sv.dumps { response with content := output }.toJson) b ∧ b.PayloadKeys :=
    fun _ _ ha hchange => ⟨ha.1.change hchange, hchange.payloadKeys ha.2⟩
  exact Runs.reflTransGen_of_invariant hkeep ⟨hstart, hkeys⟩ hchanges

/-- What any operations leave of it. -/
theorem Opens.performAll {ops : List Operation} (h : Opens ring e text s)
    (hrow : (s.interactionRow e.tenantId e.interactionId).isSome = true) (hkeys : s.PayloadKeys)
    (hservices : ∀ op ∈ ops, ∀ sv, op.services = some sv → ∃ c, sv.Uses c ∧ c.Within ring) :
    Opens ring e text (s.performAll ops) ∧ (s.performAll ops).PayloadKeys := by
  have hkey : (RecordKind.interactions, e.tenantId, e.interactionId) ∈ s.records.map (·.key) := by
    obtain ⟨row, hrow⟩ := Option.isSome_iff_exists.1 hrow
    obtain ⟨hmem, hkind, htenant, hid⟩ := interactionRow_eq_some hrow
    exact List.mem_map.2 ⟨row, hmem, by rw [RecordRow.key, hkind, htenant, hid]⟩
  have hend := @performAll_of_changes (bringing ring e text) s (fun t => Opens ring e text t ∧
    (RecordKind.interactions, e.tenantId, e.interactionId) ∈ t.records.map (·.key)) ops hservices
    (fun _ _ => trivial) ?_ ?_ ⟨h, hkey⟩ hkeys
  · exact ⟨hend.1.1, hend.2⟩
  · rintro t ⟨-, hkey⟩ e' text' hnone rfl
    obtain ⟨row, hrow, hkey⟩ := List.mem_map.1 hkey
    simp only [RecordRow.key, Prod.mk.injEq] at hkey
    have hmiss := List.find?_eq_none.1 hnone row hrow
    simp [hkey] at hmiss
  · rintro t t' ⟨hopens, hkey⟩ - hchange
    exact ⟨hopens.change hchange, (Change.remembers hchange).keys hkey⟩

theorem find?_of_unique {α : Type} {p : α → Bool} {a : α} {l : List α} (ha : a ∈ l) (hp : p a = true)
    (hunique : ∀ b ∈ l, p b = true → b = a) : l.find? p = some a := by
  cases hfind : l.find? p with
  | none => exact absurd hp (List.find?_eq_none.1 hfind a ha)
  | some b => rw [hunique b (List.mem_of_find?_eq_some hfind) (List.find?_some hfind)]

/-- The entry that is there and has not expired is the one that is found, -/
theorem getReplay_of_mem (hkeys : s.ReplayKeys) (he : e ∈ s.replayEntries) {now : ℤ}
    (hnow : now < e.expiresAt) : s.getReplay e.tenantId e.applicationId e.requestId now = some e := by
  refine find?_of_unique he (by simp [hnow]) fun e' he' hmatch => ?_
  simp only [Bool.and_eq_true, decide_eq_true_eq] at hmatch
  refine List.inj_on_of_nodup_map hkeys.unique he' he ?_
  rw [ReplayRecord.key, ReplayRecord.key, hmatch.1.1.1, hmatch.1.1.2, hmatch.1.2]

/-- and so is its payload. -/
theorem Opens.getPayload (h : Opens ring e text s) (hkeys : s.PayloadKeys) (he : e ∈ s.replayEntries)
    {now : ℤ} (hnow : now < e.expiresAt) : ∃ p ∈ s.payloads, e.refersTo p = true ∧
      s.getPayload e.tenantId e.responseRef now = some p ∧
      ring.openText p e.tenantId e.interactionId "replay" = some text := by
  obtain ⟨p, hp, hrefers⟩ := h.inv.keys.stored e he
  refine ⟨p, hp, hrefers, ?_, h.opens he p hp hrefers⟩
  have hexpires := (h.inv.bound e he p hp hrefers).2.2
  simp only [ReplayRecord.refersTo, Bool.and_eq_true, decide_eq_true_eq] at hrefers
  refine find?_of_unique hp (by simp [hrefers, hexpires, hnow]) fun q hq hmatch => ?_
  simp only [Bool.and_eq_true, decide_eq_true_eq] at hmatch
  refine List.inj_on_of_nodup_map hkeys hq hp ?_
  rw [Prod.mk.injEq]
  exact ⟨hmatch.1.1.trans hrefers.1, hmatch.1.2.trans hrefers.2⟩

end Opens

end Store

/-- `model_copy(update={"replayed": True})`. -/
def InferenceResponse.markReplayed (r : InferenceResponse) : InferenceResponse :=
  { r with others := Json.setField "replayed" (.bool true) r.others }

end Stored

namespace Gateway

open Crypto (PayloadCipher)
open Stored Stored.Store

/-! ## `infer`

A request is reserved under its key and fingerprint, then looked up, and only executed when there is
no entry. A stored answer is validated like any response, which is where a text that redaction has
made too long fails. -/

/-- A `GatewayError` that answers a request. -/
structure InferError where
  statusCode : ℕ
  code : String
  deriving DecidableEq, Repr

/-- The error that the client sees. -/
def ReplayError.inferError : ReplayError → InferError
  | .requestIdConflict => ⟨409, "request_id_conflict"⟩
  | .requestInProgress => ⟨409, "request_in_progress"⟩
  | .replayCapacityExceeded => ⟨429, "replay_capacity_exceeded"⟩

/-- The fields of a request that a replay compares or stores. -/
structure InferenceRequest where
  applicationId : String
  requestId : String
  stream : Bool
  /-- `model_dump(mode="json")` -/
  body : Json
  proper : JsonText.Proper body

/-- The bodies differ in the order of fields at most. -/
def InferenceRequest.SameBody (request request' : InferenceRequest) : Prop :=
  JsonText.sortKeys request.body = JsonText.sortKeys request'.body

/-- The `max_length` of `Content`. -/
def maxContent : ℕ := 32000

/-- What the service is made of; a floating-point number, the HMAC and the JSON of a response go
    through other code. -/
structure InferenceService where
  /-- `keyring.fingerprint` -/
  mac : String → String
  floats : JsonText.FloatFormat
  /-- the fields of a response's JSON, each of its type -/
  parse : String → Option InferenceResponse
  replayCapacity : ℕ

/-- The reservations and the store. -/
structure GatewayState where
  replays : List (ReplayKey × String) := []
  store : Store

namespace InferenceService

variable (svc : InferenceService) (sv : Services)

/-- `fingerprint(json.dumps(request.model_dump(mode="json"), sort_keys=True))`. -/
def fingerprint (request : InferenceRequest) : String :=
  svc.mac (String.ofList (JsonText.dump svc.floats .default (JsonText.sortKeys request.body)))

/-- `InferenceResponse.model_validate_json`; `none` is its validation error. -/
def validate (text : String) : Option InferenceResponse :=
  (svc.parse text).filter fun r => r.content.length ≤ maxContent

/-- `Persistence.replay`; an exception in it ends as an internal error. -/
def replay (s : Store) (record : ReplayRecord) : Except InferError (Option InferenceResponse) :=
  match s.getPayload record.tenantId record.responseRef (sv.clock 2) with
  | none => .ok none
  | some blob =>
    match (sv.decrypt blob record.tenantId record.interactionId "replay").bind svc.validate with
    | none => .error ⟨500, "internal_error"⟩
    | some response => .ok (some response.markReplayed)

/-- `_find_replay`. -/
def findReplay (s : Store) (key : ReplayKey) (fingerprint : String) :
    Except InferError (Option InferenceResponse) :=
  match s.getReplay key.tenantId key.applicationId key.requestId (sv.clock 1) with
  | none => .ok none
  | some stored =>
    if stored.fingerprint ≠ fingerprint then .error ⟨409, "request_id_conflict"⟩
    else svc.replay sv s stored

/-- `infer`, where `execute` is the pipeline of a request that has no replay. -/
def infer (execute : GatewayState → Except InferError InferenceResponse × GatewayState)
    (g : GatewayState) (tenantId : String) (applicationIds : List String) (request : InferenceRequest) :
    Except InferError InferenceResponse × GatewayState :=
  if request.applicationId ∉ applicationIds then (.error ⟨403, "application_forbidden"⟩, g)
  else if request.stream then (.error ⟨501, "streaming_not_supported"⟩, g)
  else
    let key : ReplayKey := ⟨tenantId, request.applicationId, request.requestId⟩
    let fingerprint := svc.fingerprint request
    match reservationError g.replays svc.replayCapacity key fingerprint with
    | some error => (.error error.inferError, g)
    | none =>
      let reserved := { g with replays := g.replays ++ [(key, fingerprint)] }
      let (result, g) : Except InferError InferenceResponse × GatewayState :=
        match svc.findReplay sv reserved.store key fingerprint with
        | .error error => (.error error, reserved)
        | .ok (some response) => (.ok response, reserved)
        | .ok none => execute reserved
      (result, { g with replays := g.replays.filter (·.1 ≠ key) })

end InferenceService

/-! ### Fingerprints -/

section Fingerprint

variable {svc : InferenceService} {request request' : InferenceRequest}

/-- Fingerprints tell bodies apart that differ in more than the order of their fields. -/
theorem fingerprint_eq_iff (hmac : Function.Injective svc.mac) :
    svc.fingerprint request = svc.fingerprint request' ↔ request.SameBody request' := by
  unfold InferenceRequest.SameBody
  constructor
  · intro h
    have htext := String.ofList_injective (hmac h)
    have hread := congrArg (JsonText.loads svc.floats) htext
    rwa [JsonText.loads_dump svc.floats .default (JsonText.proper_sortKeys _ request.proper),
      JsonText.loads_dump svc.floats .default (JsonText.proper_sortKeys _ request'.proper),
      Option.some_inj] at hread
  · intro h
    rw [InferenceService.fingerprint, h, InferenceService.fingerprint]

end Fingerprint

/-! ## The law

A run is a save that stored a replay, with any operations before and after it. What `infer` does for
a later request is followed from the look-up of the key to the answer, with the failing branches
named. -/

/-- A run in which a request completed and its replay was stored: what came before the save of its
    response, and what came after. -/
structure ReplayRun (svc : InferenceService) (ring : PayloadCipher) where
  before : List Operation
  sv : Services
  graph : InteractionGraph
  response : InferenceResponse
  content : PersistenceContent
  /-- the redacted content of the response -/
  output : String
  redacted : content.output = some output
  request : InferenceRequest
  applicationId_eq : graph.interaction.applicationId = request.applicationId
  requestId_eq : graph.interaction.requestId = request.requestId
  reservedAt : ℤ
  interaction : Interaction
  entry : ReplayRecord
  saved : Store
  save_eq : (({} : Store).performAll before).save sv graph (some response) content
    (svc.fingerprint request) reservedAt = ((interaction, some entry), saved)
  after : List Operation
  uses : ∃ c, sv.Uses c ∧ c.Within ring
  services : ∀ op ∈ before ++ after, ∀ sv', op.services = some sv' → ∃ c, sv'.Uses c ∧ c.Within ring
  /-- what is written of a response is read back -/
  parse_dumps : svc.parse (sv.dumps { response with content := output }.toJson) =
    some { response with content := output }

namespace ReplayRun

variable {svc : InferenceService} {ring : PayloadCipher} (run : ReplayRun svc ring)

/-- The stored response. -/
def stored : InferenceResponse := { run.response with content := run.output }

/-- Where the run ends. -/
def store : Store := run.saved.performAll run.after

/-- The tenant of the interaction. -/
def tenantId : String := run.graph.interaction.tenantId

/-- A later request with its key. -/
def SameKey (request : InferenceRequest) : Prop :=
  request.applicationId = run.request.applicationId ∧ request.requestId = run.request.requestId

theorem entryOf : EntryOf run.graph (svc.fingerprint run.request) run.entry := (save_eq_some run.save_eq).1

/-- The payload of the entry opens to the stored response. -/
theorem opens : Opens ring run.entry (run.sv.dumps run.stored.toJson) run.store ∧
    run.store.PayloadKeys := by
  obtain ⟨c, huses, hwithin⟩ := run.uses
  have hkeys : PayloadKeys {} := List.nodup_nil
  obtain ⟨hinv, hkeys⟩ := @performAll_of_changes { used := fun sv => ∃ c, sv.Uses c ∧ c.Within ring }
    {} RetentionInv run.before (fun op hop => run.services op (List.mem_append_left _ hop))
    (fun _ _ => trivial) (fun _ _ _ _ _ => trivial)
    (fun _ _ hinv _ hchange => hinv.change (by rintro sv ⟨_, huses, _⟩; exact huses.binds) hchange)
    .init hkeys
  obtain ⟨hopens, hkeys⟩ := save_opens hinv hkeys huses hwithin run.redacted run.save_eq
  exact hopens.performAll (save_row run.save_eq).2 hkeys
    fun op hop => run.services op (List.mem_append_right _ hop)

/-- What a call with its key is to answer, and leave. -/
structure Faithful (request : InferenceRequest) (g : GatewayState)
    (answer : Except InferError InferenceResponse × GatewayState) : Prop where
  same : request.SameBody run.request → answer = (.ok run.stored.markReplayed, g)
  different : ¬request.SameBody run.request → answer = (.error ⟨409, "request_id_conflict"⟩, g)

section Later

variable {run} {sv : Services} {c : PayloadCipher}

theorem validate_stored : svc.validate (run.sv.dumps run.stored.toJson) =
    if run.output.length ≤ maxContent then some run.stored else none := by
  rw [InferenceService.validate, stored, run.parse_dumps]
  by_cases h : run.output.length ≤ maxContent <;> simp [h, Option.filter]

/-- What is found while the entry is there. -/
theorem findReplay_eq (huses : sv.Uses c) (hwithin : c.Within ring)
    (hpresent : run.entry ∈ run.store.replayEntries)
    (hring : ∀ p ∈ run.store.payloads, run.entry.refersTo p = true → (c.ciphers p.keyVersion).isSome)
    (hclock : ∀ k, sv.clock k < run.entry.expiresAt) (fingerprint : String) :
    svc.findReplay sv run.store ⟨run.tenantId, run.request.applicationId, run.request.requestId⟩
      fingerprint =
    if svc.fingerprint run.request ≠ fingerprint then .error ⟨409, "request_id_conflict"⟩
    else if run.output.length ≤ maxContent then .ok (some run.stored.markReplayed)
    else .error ⟨500, "internal_error"⟩ := by
  obtain ⟨hopens, hkeys⟩ := run.opens
  have hentry := run.entryOf
  have hfound := getReplay_of_mem hopens.inv.keys hpresent (hclock 1)
  obtain ⟨p, hp, hrefers, hget, hopen⟩ := hopens.getPayload hkeys hpresent (hclock 2)
  rw [hentry.tenantId, hentry.applicationId, hentry.requestId, run.applicationId_eq, run.requestId_eq]
    at hfound
  rw [← hwithin.openText_eq (hring p hp hrefers), ← huses.decrypt] at hopen
  unfold InferenceService.findReplay
  dsimp only
  rw [tenantId, hfound]
  dsimp only
  rw [hentry.fingerprint_eq]
  refine if_congr Iff.rfl rfl ?_
  unfold InferenceService.replay
  rw [hget]
  dsimp only
  rw [hopen, Option.bind_some, validate_stored]
  by_cases h : run.output.length ≤ maxContent <;> simp [h]

end Later

end ReplayRun

section Infer

variable {svc : InferenceService} {sv : Services} {g : GatewayState}
  {execute : GatewayState → Except InferError InferenceResponse × GatewayState} {tenantId : String}
  {applicationIds : List String} {request : InferenceRequest}

/-- An admitted call that finds a replay, or fails to, gives its reservation back. -/
theorem infer_of_found (hallowed : request.applicationId ∈ applicationIds)
    (hstream : request.stream = false)
    (hidle : ⟨tenantId, request.applicationId, request.requestId⟩ ∉ g.replays.map (·.1))
    (hroom : g.replays.length < svc.replayCapacity) {answer : Except InferError InferenceResponse}
    (hfound : svc.findReplay sv g.store ⟨tenantId, request.applicationId, request.requestId⟩
      (svc.fingerprint request) = answer.map some) :
    svc.infer sv execute g tenantId applicationIds request = (answer, g) := by
  have hothers : ∀ r ∈ g.replays, r.1 ≠ ⟨tenantId, request.applicationId, request.requestId⟩ :=
    fun r hr hkey => hidle (List.mem_map.2 ⟨r, hr, hkey⟩)
  have hlookup : g.replays.lookup ⟨tenantId, request.applicationId, request.requestId⟩ = none :=
    List.lookup_eq_none_iff.2 fun r hr => bne_iff_ne.2 (hothers r hr).symm
  have hadmitted : reservationError g.replays svc.replayCapacity
      ⟨tenantId, request.applicationId, request.requestId⟩ (svc.fingerprint request) = none := by
    rw [reservationError, hlookup]
    exact if_neg (by omega)
  have hrestored : (g.replays ++ [((⟨tenantId, request.applicationId, request.requestId⟩ : ReplayKey),
      svc.fingerprint request)]).filter
        (·.1 ≠ (⟨tenantId, request.applicationId, request.requestId⟩ : ReplayKey)) = g.replays := by
    rw [List.filter_append, List.filter_eq_self.2 (by simpa using hothers)]
    simp
  unfold InferenceService.infer
  rw [if_neg (by simpa using hallowed), if_neg (by simp [hstream])]
  dsimp only
  rw [hadmitted]
  dsimp only
  rw [hfound]
  cases answer with
  | error e =>
    simp only [Except.map]
    rw [hrestored]
  | ok r =>
    simp only [Except.map]
    rw [hrestored]

end Infer

/-- **Fidelity.** After any run that stored a replay, while its entry is there and has not expired, and
    the ring has the key of its payload, a call with its key answers as it is to if and only if it is
    one that forms a key, and the redacted content of a response it is to repeat fits the contract. -/
theorem replay_fidelity {svc : InferenceService} (hmac : Function.Injective svc.mac) {ring : PayloadCipher}
    (run : ReplayRun svc ring) {sv : Services} {c : PayloadCipher} (huses : sv.Uses c)
    (hwithin : c.Within ring) {g : GatewayState} (hstore : g.store = run.store)
    (hpresent : run.entry ∈ g.store.replayEntries)
    (hring : ∀ p ∈ g.store.payloads, run.entry.refersTo p = true → (c.ciphers p.keyVersion).isSome)
    (hclock : ∀ k, sv.clock k < run.entry.expiresAt)
    (hidle : ⟨run.tenantId, run.request.applicationId, run.request.requestId⟩ ∉ g.replays.map (·.1))
    (hroom : g.replays.length < svc.replayCapacity)
    (execute : GatewayState → Except InferError InferenceResponse × GatewayState)
    (applicationIds : List String) (request : InferenceRequest) (hkey : run.SameKey request) :
    run.Faithful request g (svc.infer sv execute g run.tenantId applicationIds request) ↔
      request.applicationId ∈ applicationIds ∧ request.stream = false ∧
        (request.SameBody run.request → run.output.length ≤ maxContent) := by
  obtain ⟨happlication, hrequest⟩ := hkey
  rw [hstore] at hpresent hring
  -- any other error is neither answer
  have hrefused : ∀ e : InferError, e ≠ ⟨409, "request_id_conflict"⟩ →
      svc.infer sv execute g run.tenantId applicationIds request = (.error e, g) →
      ¬run.Faithful request g (svc.infer sv execute g run.tenantId applicationIds request) := by
    intro e he hanswer hfaithful
    rw [hanswer] at hfaithful
    by_cases hsame : request.SameBody run.request
    · cases congrArg Prod.fst (hfaithful.same hsame)
    · exact he (Except.error.inj (congrArg Prod.fst (hfaithful.different hsame)))
  by_cases hallowed : request.applicationId ∈ applicationIds
  swap
  · exact iff_of_false (hrefused ⟨403, "application_forbidden"⟩ (by decide) (if_pos hallowed))
      fun h => hallowed h.1
  by_cases hstream : request.stream = true
  · refine iff_of_false (hrefused ⟨501, "streaming_not_supported"⟩ (by decide) ?_) fun h =>
      by rw [hstream] at h; cases h.2.1
    unfold InferenceService.infer
    rw [if_neg (by simpa using hallowed), if_pos hstream]
  rw [Bool.not_eq_true] at hstream
  have hfind := ReplayRun.findReplay_eq huses hwithin hpresent hring hclock (svc.fingerprint request)
  rw [← hstore, ← happlication, ← hrequest] at hfind
  rw [← happlication, ← hrequest] at hidle
  by_cases hsame : request.SameBody run.request
  · rw [if_neg (by rw [(fingerprint_eq_iff hmac).2 hsame]; simp)] at hfind
    by_cases hlength : run.output.length ≤ maxContent
    · rw [if_pos hlength] at hfind
      have hanswer := @infer_of_found svc sv g execute run.tenantId applicationIds request hallowed hstream
        hidle hroom (.ok run.stored.markReplayed) hfind
      exact iff_of_true ⟨fun _ => hanswer, fun hdiffer => absurd hsame hdiffer⟩
        ⟨hallowed, hstream, fun _ => hlength⟩
    · rw [if_neg hlength] at hfind
      have hanswer := @infer_of_found svc sv g execute run.tenantId applicationIds request hallowed hstream
        hidle hroom (.error ⟨500, "internal_error"⟩) hfind
      exact iff_of_false (hrefused _ (by decide) hanswer) fun h => hlength (h.2.2 hsame)
  · rw [if_pos fun hprint => hsame ((fingerprint_eq_iff hmac).1 hprint.symm)] at hfind
    have hanswer := @infer_of_found svc sv g execute run.tenantId applicationIds request hallowed hstream
      hidle hroom (.error ⟨409, "request_id_conflict"⟩) hfind
    exact iff_of_true ⟨fun h => absurd h hsame, fun _ => hanswer⟩
      ⟨hallowed, hstream, fun h => absurd h hsame⟩

/-! A response that is saved, swept over and asked for again. -/

namespace ReplayedStore

open Datasets.Distilled (aead floats)
open SupportStore (graph)

/-- A cipher with one key. -/
def ring : PayloadCipher :=
  { ciphers := fun version => if version = "k1" then some aead else none
    keyVersion := "k1"
    current := rfl }

theorem length_nonce (k : ℕ) : (UInt8.ofNat k :: List.replicate 11 0).length = 12 := rfl

/-- A nonce that begins with `k`. -/
def nonce (k : ℕ) : Crypto.Nonce := ⟨UInt8.ofNat k :: List.replicate 11 0, length_nonce k⟩

/-- Services of the store that seal with this cipher. -/
def services (n : ℕ) : Services :=
  { SupportStore.services n with
    encrypt := fun k => ring.sealText (nonce (n + k)) ("0123456789".toList.getD (n + k) '-').toString
    decrypt := ring.openText
    dumps := fun j => String.ofList (JsonText.dump floats .compact j) }

theorem services_uses (n : ℕ) : (services n).Uses ring :=
  ⟨fun _ => ⟨_, _, fun _ _ _ _ _ => rfl⟩, fun _ _ _ _ => rfl⟩

/-- A service whose texts are the three of the runs below. -/
def service : InferenceService :=
  { mac := id
    floats
    parse := fun text =>
      match JsonText.loads floats text.toList with
      | some (.obj (("content", .str content) :: others)) => some ⟨content, others⟩
      | _ => none
    replayCapacity := 10000 }

/-- The fields of the answer beside its content. -/
def others : Fields :=
  [("interaction_id", .str "i1"), ("finish_reason", .str "stop"), ("replayed", .bool false)]

/-- The request that is repeated. -/
def request : InferenceRequest :=
  { applicationId := "desk"
    requestId := "r1"
    stream := false
    body := .obj [("request_id", .str "r1"), ("application_id", .str "desk"),
      ("messages", .arr [.obj [("role", .str "user"), ("content", .str "hi")]])]
    proper := by simp [JsonText.Proper, JsonText.ProperFields, JsonText.ProperItems] }

/-- What is sealed of the interaction. -/
def content (output : String) : PersistenceContent :=
  { messagesJson := some "messages", query := some "query", output := some output }

/-- The save of the first answer. -/
def saves (original output : String) : (Interaction × Option ReplayRecord) × Store :=
  ({} : Store).save (services 0) graph (some ⟨original, others⟩) (content output)
    (service.fingerprint request) 0

theorem parse_dumps (output : String) :
    service.parse ((services 0).dumps (InferenceResponse.toJson ⟨output, others⟩)) =
      some ⟨output, others⟩ := by
  have hproper : JsonText.Proper (InferenceResponse.toJson ⟨output, others⟩) := by
    simp [InferenceResponse.toJson, others, JsonText.Proper, JsonText.ProperFields]
  simp only [service, services, String.toList_ofList, JsonText.loads_dump floats .compact hproper]
  rfl

theorem saves_eq {original output : String} (h : (saves original output).1.2.isSome = true) :
    (({} : Store).performAll []).save (services 0) graph (some ⟨original, others⟩) (content output)
      (service.fingerprint request) 0 =
    (((saves original output).1.1, some ((saves original output).1.2.get h)),
        (saves original output).2) := by
  rw [Store.performAll_nil]
  unfold saves at h ⊢
  generalize Store.save _ _ _ _ _ _ _ = result at *
  rw [Option.some_get]

/-- A run of which the first answer was `original` and the stored one `output`. -/
def run (original output : String) (h : (saves original output).1.2.isSome = true) :
    ReplayRun service ring where
  before := []
  sv := services 0
  graph := graph
  response := ⟨original, others⟩
  content := content output
  output := output
  redacted := rfl
  request := request
  applicationId_eq := rfl
  requestId_eq := rfl
  reservedAt := 0
  interaction := (saves original output).1.1
  entry := (saves original output).1.2.get h
  saved := (saves original output).2
  save_eq := saves_eq h
  after := [.sweep (services 7) "acme"]
  uses := ⟨ring, services_uses 0, fun _ _ h => h⟩
  services op hop sv hsv := by
    obtain rfl := List.mem_singleton.1 hop
    cases hsv
    exact ⟨ring, services_uses 7, fun _ _ h => h⟩
  parse_dumps := by
    dsimp only
    exact parse_dumps output

/-- No request of the sample runs the pipeline. -/
def execute (g : GatewayState) : Except InferError InferenceResponse × GatewayState :=
  (.error ⟨502, "provider_unavailable"⟩, g)

theorem saves_hello : (saves "hello" "hello").1.2.isSome = true := by decide +kernel

/-- The run of a short answer. -/
def short : ReplayRun service ring := run "hello" "hello" saves_hello

theorem length_hello : short.output.length ≤ maxContent := by
  rw [show short.output = "hello" from rfl]
  decide

theorem expires_hello : 5 < short.entry.expiresAt := by decide +kernel

/-- A response near the limit, with an address that is shorter than what stands for it. -/
def original : String := String.ofList (List.replicate 31990 ' ') ++ " a@b.co"

/-- The long answer with its address replaced. -/
def redacted : String := String.ofList (List.replicate 31990 ' ') ++ " [REDACTED]"

theorem length_near (text : String) :
    (String.ofList (List.replicate 31990 ' ') ++ text).length = 31990 + text.length := by
  rw [String.length_append, String.length_ofList, List.length_replicate]

theorem length_original : original.length ≤ maxContent := by
  have hlength : original.length = 31990 + 7 := length_near " a@b.co"
  unfold maxContent
  omega

theorem length_redacted : ¬redacted.length ≤ maxContent := by
  have hlength : redacted.length = 31990 + 11 := length_near " [REDACTED]"
  unfold maxContent
  omega

theorem saves_redacted : (saves original redacted).1.2.isSome = true := by decide +kernel

/-- The run of the long answer. -/
def long : ReplayRun service ring := run original redacted saves_redacted

theorem expires_redacted : 5 < long.entry.expiresAt := by decide +kernel

end ReplayedStore

open ReplayedStore in
theorem hello_replayed : short.Faithful request ⟨[], short.store⟩
    (service.infer (services 9) execute ⟨[], short.store⟩ "acme" ["desk"] request) :=
  (@replay_fidelity service Function.injective_id ring short (services 9) ring (services_uses 9)
    (fun _ _ h => h) ⟨[], short.store⟩ rfl (by decide +kernel) (by decide +kernel)
    (fun _ => expires_hello) List.not_mem_nil (by decide) execute ["desk"] request ⟨rfl, rfl⟩).2
      ⟨List.mem_singleton_self _, rfl, fun _ => length_hello⟩

open ReplayedStore in
/-- The response fits the contract and the redacted one does not, so that the call fails. -/
theorem long_not_replayed : original.length ≤ maxContent ∧
    (long.entry ∈ long.store.replayEntries ∧ ∀ k, (services 9).clock k < long.entry.expiresAt) ∧
    service.infer (services 9) execute ⟨[], long.store⟩ "acme" ["desk"] request =
      (.error ⟨500, "internal_error"⟩, ⟨[], long.store⟩) ∧
    ¬long.Faithful request ⟨[], long.store⟩
      (service.infer (services 9) execute ⟨[], long.store⟩ "acme" ["desk"] request) := by
  have hpresent : long.entry ∈ long.store.replayEntries := by decide +kernel
  have hclock : ∀ k, (services 9).clock k < long.entry.expiresAt := fun _ => expires_redacted
  have hlength : ¬long.output.length ≤ maxContent := length_redacted
  have hfind := ReplayRun.findReplay_eq (services_uses 9) (fun _ _ h => h) hpresent
    (by decide +kernel) hclock (service.fingerprint request)
  rw [show service.fingerprint long.request = service.fingerprint request from rfl, if_neg (not_not.2 rfl),
    if_neg hlength] at hfind
  have hanswer := @infer_of_found service (services 9) ⟨[], long.store⟩ execute "acme" ["desk"] request
    (List.mem_singleton_self _) rfl List.not_mem_nil (by decide) (.error ⟨500, "internal_error"⟩) hfind
  refine ⟨length_original, ⟨hpresent, hclock⟩, hanswer, fun hfaithful => ?_⟩
  have hsame := hfaithful.same rfl
  rw [hanswer] at hsame
  cases congrArg Prod.fst hsame

end Gateway

end AdaptiveLlm
