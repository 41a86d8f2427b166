import AdaptiveLlm.Storage.Sealing

set_option autoImplicit false

/-! # Retention

A sweep goes by the expiry of interactions and of replays. The payloads of an interaction expire with
it, that of a replay with its entry, and both go with them. A shadow output expires by the policy its
attempt was made under, which may be earlier than its interaction, and the sweep does not look at it.

`RetentionInv` has the expiry of every payload in terms of what it belongs to, and is kept by every
change of any operation. The sweep's queries are then exact for all payloads but one kind. The
theorem names that kind in its condition, which is about the store before the sweep: no shadow
output of the tenant has expired while its interaction has not. -/

namespace AdaptiveLlm

namespace Stored

open Store

/-! ## The invariant -/

namespace Store

/-- What the tables say of each other. -/
structure RetentionInv (s : Store) : Prop where
  keys : s.ReplayKeys
  ids : ∀ row ∈ s.records, row.kind = .interactions → row.interactionId = row.recordId
  /-- an entry and its payload are of one interaction and expire together -/
  bound : ∀ e ∈ s.replayEntries, ∀ p ∈ s.payloads, e.refersTo p = true →
    p.interactionId = e.interactionId ∧ p.field = "replay" ∧ p.expiresAt = e.expiresAt
  active : ∀ p ∈ s.payloads, s.stateOf p.tenantId p.interactionId = some .active
  expiry : ∀ p ∈ s.payloads, isShadow p.field = false → p.field ≠ "replay" →
    s.expiresAt p.tenantId p.interactionId = some p.expiresAt
  replays : ∀ p ∈ s.payloads, p.field = "replay" → ∃ e ∈ s.replayEntries, e.refersTo p = true

variable {s s' : Store} {tenant id : String}

theorem RetentionInv.init : RetentionInv {} := by
  refine ⟨⟨List.nodup_nil, ?_⟩, ?_, ?_, ?_, ?_, ?_⟩ <;> simp

/-- Every interaction of `s` has a row in `s'` of the same state and expiry. -/
def KeepsRows (s s' : Store) : Prop :=
  ∀ tenant id row, s.interactionRow tenant id = some row →
    ∃ row', s'.interactionRow tenant id = some row' ∧ row'.state = row.state ∧
      row'.expiresAt = row.expiresAt

theorem KeepsRows.stateOf (h : KeepsRows s s') {state : RowState}
    (hstate : s.stateOf tenant id = some state) : s'.stateOf tenant id = some state := by
  obtain ⟨row, hrow, rfl⟩ := Option.map_eq_some_iff.1 hstate
  obtain ⟨row', hrow', hsame, -⟩ := h tenant id row hrow
  exact Option.map_eq_some_iff.2 ⟨row', hrow', hsame⟩

theorem KeepsRows.expiresAt (h : KeepsRows s s') {expires : ℤ}
    (hexpires : s.expiresAt tenant id = some expires) : s'.expiresAt tenant id = some expires := by
  obtain ⟨row, hrow, rfl⟩ := Option.map_eq_some_iff.1 hexpires
  obtain ⟨row', hrow', -, hsame⟩ := h tenant id row hrow
  exact Option.map_eq_some_iff.2 ⟨row', hrow', hsame⟩

theorem keepsRows_of_records (h : s'.records = s.records) : KeepsRows s s' := by
  intro tenant id row hrow
  refine ⟨row, ?_, rfl, rfl⟩
  unfold interactionRow at *
  rwa [h]

/-- Rows that are changed in place, with their keys. -/
theorem interactionRow_map {f : RecordRow → RecordRow} (hkey : ∀ row, (f row).key = row.key) :
    ({ s with records := s.records.map f } : Store).interactionRow tenant id =
      (s.interactionRow tenant id).map f := by
  unfold interactionRow
  rw [List.find?_map]
  congr 2
  funext row
  have := hkey row
  simp only [RecordRow.key, Prod.mk.injEq] at this
  simp [this]

/-- The tables of payloads and replays are the same. -/
theorem RetentionInv.of_rows (h : s.RetentionInv) (hrows : KeepsRows s s')
    (hids : ∀ row ∈ s'.records, row.kind = .interactions → row.interactionId = row.recordId)
    (hpayloads : s'.payloads = s.payloads) (hentries : s'.replayEntries = s.replayEntries) :
    s'.RetentionInv where
  keys := by
    refine ⟨?_, ?_⟩
    · rw [hentries]
      exact h.keys.unique
    · rw [hentries, hpayloads]
      exact h.keys.stored
  ids := hids
  bound := by
    rw [hentries, hpayloads]
    exact h.bound
  active p hp := hrows.stateOf (h.active p (hpayloads ▸ hp))
  expiry p hp hshadow hreplay := hrows.expiresAt (h.expiry p (hpayloads ▸ hp) hshadow hreplay)
  replays := by
    rw [hentries, hpayloads]
    exact h.replays

theorem RetentionInv.put (h : s.RetentionInv) {record : StoredRecord} {expires : ℤ}
    (hput : s.put tenant record expires = .ok s') : s'.RetentionInv := by
  rw [(put_eq_ok hput).2]
  refine h.of_rows (fun _ _ row hrow => ⟨row, interactionRow_append hrow, rfl, rfl⟩) ?_ rfl rfl
  intro row hrow hkind
  rcases List.mem_append.1 hrow with hrow | hrow
  · exact h.ids row hrow hkind
  · obtain rfl := List.mem_singleton.1 hrow
    cases record with
    | interaction => rfl
    | _ => cases hkind

theorem RetentionInv.update (h : s.RetentionInv) (i : Interaction) :
    (s.updateInteraction tenant id i).RetentionInv := by
  let f (row : RecordRow) : RecordRow :=
    if row.kind = .interactions && row.tenantId = tenant && row.recordId = id then
      { row with data := i.toJson }
    else row
  have hfixed (row : RecordRow) : (f row).key = row.key ∧ (f row).interactionId = row.interactionId ∧
      (f row).state = row.state ∧ (f row).expiresAt = row.expiresAt := by
    simp only [f]
    split <;> exact ⟨rfl, rfl, rfl, rfl⟩
  refine h.of_rows (fun tenant' id' row hrow => ⟨f row, ?_, (hfixed row).2.2⟩) ?_ rfl rfl
  · have hmap := @interactionRow_map s tenant' id' f fun row => (hfixed row).1
    exact hmap.trans (congrArg (Option.map f) hrow)
  · intro row hrow hkind
    obtain ⟨row₀, hrow₀, rfl⟩ := List.mem_map.1 hrow
    obtain ⟨hkey, hid, -⟩ := hfixed row₀
    simp only [RecordRow.key, Prod.mk.injEq] at hkey
    exact (hid.trans (h.ids row₀ hrow₀ (hkey.1.symm.trans hkind))).trans hkey.2.2.symm

/-- A payload is put for an active interaction. -/
theorem putPayload_active {p : EncryptedPayload} (h : s.putPayload p = .ok s') :
    s.stateOf p.tenantId p.interactionId = some .active := by
  obtain ⟨_, hwritable, h⟩ := Except.bind_eq_ok.1 h
  obtain ⟨_, -, h⟩ := Except.bind_eq_ok.1 h
  obtain ⟨_, hrow, -⟩ := Except.bind_eq_ok.1 h
  obtain ⟨_, -, hstate⟩ := Except.bind_eq_ok.1 hwritable
  rw [check_eq_ok] at hrow hstate
  obtain ⟨row, hrow⟩ := Option.isSome_iff_exists.1 hrow
  simpa [stateOf, hrow] using hstate

/-- No entry refers to a payload that is new. -/
theorem ReplayKeys.fresh (hkeys : s.ReplayKeys) {p : EncryptedPayload}
    (hfresh : ∀ q ∈ s.payloads, ¬(q.tenantId = p.tenantId ∧ q.reference = p.reference))
    {e : ReplayRecord} (he : e ∈ s.replayEntries) : e.refersTo p = false := by
  obtain ⟨q, hq, hrefers⟩ := hkeys.stored e he
  by_contra hsame
  simp only [ReplayRecord.refersTo, Bool.not_eq_false, Bool.and_eq_true, decide_eq_true_eq]
    at hrefers hsame
  exact hfresh q hq ⟨hrefers.1.symm.trans hsame.1, hrefers.2.symm.trans hsame.2⟩

theorem ReplayKeys.putPayload (hkeys : s.ReplayKeys) {p : EncryptedPayload}
    (h : s.putPayload p = .ok s') : s'.ReplayKeys := by
  obtain ⟨-, rfl⟩ := putPayload_fresh h
  refine ⟨hkeys.unique, fun e he => ?_⟩
  obtain ⟨q, hq, hrefers⟩ := hkeys.stored e he
  exact ⟨q, List.mem_append_left _ hq, hrefers⟩

/-- What is said of all payloads, once one is put. -/
theorem RetentionInv.payload (h : s.RetentionInv) {sv : Services} (hsv : sv.Binds) {k : ℕ}
    {content field : String} {expiry : ℤ} {p : EncryptedPayload}
    (encrypted : sv.encrypt k content tenant id field expiry = .ok p) (hreplay : field ≠ "replay")
    (hexpires : isShadow field = false → s.expiresAt tenant id = some expiry)
    (hput : s.putPayload p = .ok s') : s'.RetentionInv := by
  have hactive := putPayload_active hput
  have hkeys := h.keys.putPayload hput
  obtain ⟨hfresh, rfl⟩ := putPayload_fresh hput
  obtain ⟨rfl, rfl, rfl, rfl⟩ := hsv.encrypt encrypted
  have hnew : ∀ q ∈ s.payloads ++ [p], q ∈ s.payloads ∨ q = p := by simp
  constructor
  case keys => exact hkeys
  case ids => exact h.ids
  case bound =>
    intro e he q hq hrefers
    rcases hnew q hq with hq | rfl
    · exact h.bound e he q hq hrefers
    · rw [h.keys.fresh hfresh he] at hrefers
      cases hrefers
  case active =>
    intro q hq
    rcases hnew q hq with hq | rfl
    · exact h.active q hq
    · exact hactive
  case expiry =>
    intro q hq hshadow hfield
    rcases hnew q hq with hq | rfl
    · exact h.expiry q hq hshadow hfield
    · exact hexpires hshadow
  case replays =>
    intro q hq hfield
    rcases hnew q hq with hq | rfl
    · exact h.replays q hq hfield
    · exact absurd hfield hreplay

/-- The entries after a replacement. -/
theorem Replaced.subset {e : ReplayRecord} {capacity : ℕ} (h : s.Replaced e capacity s') :
    s'.replayEntries ⊆ s.replayEntries ++ [e] := by
  intro e' he'
  by_cases htenant : e'.tenantId = e.tenantId
  · have hmem : e' ∈ s'.replayEntries.filter (·.tenantId = e.tenantId) := by simp [he', htenant]
    rw [h.kept] at hmem
    have hcandidate := List.mem_of_mem_filter hmem
    rw [candidates, List.mem_append] at hcandidate
    exact List.mem_append.2 (hcandidate.imp_left List.mem_of_mem_filter)
  · have hmem : e' ∈ s'.replayEntries.filter (·.tenantId ≠ e.tenantId) := by simp [he', htenant]
    rw [h.others] at hmem
    exact List.mem_append_left _ (List.mem_of_mem_filter hmem)

theorem RetentionInv.replay (h : s.RetentionInv) {sv : Services} (hsv : sv.Binds) {k capacity : ℕ}
    {content : String} {e : ReplayRecord} {p : EncryptedPayload} {s₁ : Store}
    (encrypted : sv.encrypt k content e.tenantId e.interactionId "replay" e.expiresAt = .ok p)
    (reference : e.responseRef = p.reference) (put : s.putPayload p = .ok s₁)
    (done : s₁.replaceReplay e capacity = .ok s') : s'.RetentionInv := by
  have hactive := putPayload_active put
  have hkeys := h.keys.putPayload put
  obtain ⟨hfresh, rfl⟩ := putPayload_fresh put
  obtain ⟨htenant, hid, hfield, hexpiry⟩ := hsv.encrypt encrypted
  have hreplaced := replaced_of_ok hkeys done
  have hsub : ∀ q ∈ s'.payloads, q ∈ s.payloads ∨ q = p := by
    intro q hq
    simpa using ((hreplaced.payloads q).1 hq).1
  have hrows : KeepsRows s s' := keepsRows_of_records (by rw [hreplaced.rest])
  have hrefersNew : e.refersTo p = true := by simp [ReplayRecord.refersTo, htenant, reference]
  constructor
  case keys => exact hreplaced.keys
  case ids =>
    rw [hreplaced.rest]
    exact h.ids
  case bound =>
    intro e' he' q hq hrefers
    have he' := hreplaced.subset he'
    rw [List.mem_append, List.mem_singleton] at he'
    rcases he' with he' | rfl <;> rcases hsub q hq with hq | rfl
    · exact h.bound e' he' q hq hrefers
    · rw [h.keys.fresh hfresh he'] at hrefers
      cases hrefers
    · simp only [ReplayRecord.refersTo, Bool.and_eq_true, decide_eq_true_eq] at hrefers
      exact absurd ⟨hrefers.1.symm.trans htenant.symm, hrefers.2.symm.trans reference⟩ (hfresh q hq)
    · exact ⟨hid, hfield, hexpiry⟩
  case active =>
    intro q hq
    rcases hsub q hq with hq | rfl
    · exact hrows.stateOf (h.active q hq)
    · exact hrows.stateOf hactive
  case expiry =>
    intro q hq hshadow hreplay
    rcases hsub q hq with hq | rfl
    · exact hrows.expiresAt (h.expiry q hq hshadow hreplay)
    · exact absurd hfield hreplay
  case replays =>
    intro q hq hreplay
    have hrefers : ∃ e' ∈ s.replayEntries ++ [e], e'.refersTo q = true := by
      rcases hsub q hq with hq | rfl
      · obtain ⟨e', he', hrefers⟩ := h.replays q hq hreplay
        exact ⟨e', List.mem_append_left _ he', hrefers⟩
      · exact ⟨e, by simp, hrefersNew⟩
    obtain ⟨e', he', hrefers⟩ := hrefers
    -- a payload that stays is that of no entry that goes
    by_contra hnone
    push Not at hnone
    refine ((hreplaced.payloads q).1 hq).2 ⟨e', ⟨he', fun hstays => ?_⟩, hrefers⟩
    exact hnone e' hstays hrefers

/-! ## Interactions that are cleared -/

/-- `clear_refs` and `delete_interaction` for an interaction. -/
structure Cleared (s : Store) (tenant id : String) (state : RowState) (s' : Store) : Prop where
  records : s'.records = s.records.map fun row =>
    if row.tenantId = tenant ∧ row.interactionId = id then row.clear state else row
  payloads : s'.payloads = s.payloads.filter fun p => !(p.tenantId = tenant && p.interactionId = id)
  replayEntries : s'.replayEntries = s.replayEntries.filter fun e =>
    !(e.tenantId = tenant && e.interactionId = id)

theorem cleared_of_expire (h : (s.clearRefs tenant id .expired).deleteInteraction tenant id = .ok s') :
    s.Cleared tenant id .expired s' := by
  have hs' := deletePayloads_eq_ok h
  refine ⟨?_, by rw [hs']; rfl, by rw [hs']; rfl⟩
  rw [hs']
  exact List.map_congr_left fun row _ => by simp [RecordRow.clear]

theorem cleared_of_erase {deletion : DeletionRequest} (h : s.erase tenant id deletion = .ok s') :
    s.Cleared tenant id .deleted s' := by
  rw [erase_eq_ok h]
  exact ⟨rfl, rfl, rfl⟩

namespace Cleared

variable {state : RowState}

/-- The row of another interaction stays. -/
theorem interactionRow (h : s.Cleared tenant id state s')
    (hids : ∀ row ∈ s.records, row.kind = .interactions → row.interactionId = row.recordId)
    {tenant' id' : String} (hother : ¬(tenant' = tenant ∧ id' = id)) {row : RecordRow}
    (hrow : s.interactionRow tenant' id' = some row) : s'.interactionRow tenant' id' = some row := by
  have hmap := @interactionRow_map s tenant' id' (fun row =>
    if row.tenantId = tenant ∧ row.interactionId = id then row.clear state else row)
    (fun row => by split <;> rfl)
  have hs' : s'.interactionRow tenant' id' = ({ s with
      records := s.records.map fun row =>
        if row.tenantId = tenant ∧ row.interactionId = id then row.clear state else row } : Store
      ).interactionRow tenant' id' := by
    unfold Store.interactionRow
    rw [h.records]
  obtain ⟨hmem, hkind, htenant, hid⟩ := interactionRow_eq_some hrow
  rw [hs', hmap, hrow, Option.map_some, if_neg]
  rintro ⟨rfl, rfl⟩
  exact hother ⟨htenant.symm, hid.symm.trans (hids row hmem hkind).symm⟩

theorem retentionInv (h : s.Cleared tenant id state s') (hinv : s.RetentionInv) :
    s'.RetentionInv := by
  have hpayload : ∀ {p : EncryptedPayload}, p ∈ s'.payloads ↔ p ∈ s.payloads ∧
      ¬(p.tenantId = tenant ∧ p.interactionId = id) := by simp [h.payloads, imp_iff_not_or]
  have hentry : ∀ {e : ReplayRecord}, e ∈ s'.replayEntries ↔ e ∈ s.replayEntries ∧
      ¬(e.tenantId = tenant ∧ e.interactionId = id) := by simp [h.replayEntries, imp_iff_not_or]
  have htenant : ∀ {e : ReplayRecord} {p : EncryptedPayload}, e.refersTo p = true →
      e.tenantId = p.tenantId := by
    intro e p hrefers
    simp only [ReplayRecord.refersTo, Bool.and_eq_true, decide_eq_true_eq] at hrefers
    exact hrefers.1
  constructor
  case keys =>
    refine ⟨?_, fun e he => ?_⟩
    · rw [h.replayEntries]
      exact hinv.keys.unique.sublist (List.filter_sublist.map _)
    · -- the payload of an entry is of the entry's interaction
      obtain ⟨he, hother⟩ := hentry.1 he
      obtain ⟨p, hp, hrefers⟩ := hinv.keys.stored e he
      refine ⟨p, hpayload.2 ⟨hp, fun hgone => hother ?_⟩, hrefers⟩
      exact ⟨(htenant hrefers).trans hgone.1, (hinv.bound e he p hp hrefers).1.symm.trans hgone.2⟩
  case ids =>
    intro row hrow hkind
    rw [h.records] at hrow
    obtain ⟨row₀, hrow₀, rfl⟩ := List.mem_map.1 hrow
    have hsame := hinv.ids row₀ hrow₀
    split at hkind <;> split <;> exact hsame hkind
  case bound =>
    intro e he p hp hrefers
    exact hinv.bound e (hentry.1 he).1 p (hpayload.1 hp).1 hrefers
  case active =>
    intro p hp
    obtain ⟨hp, hother⟩ := hpayload.1 hp
    obtain ⟨row, hrow, hstate⟩ := Option.map_eq_some_iff.1 (hinv.active p hp)
    exact Option.map_eq_some_iff.2 ⟨row, h.interactionRow hinv.ids hother hrow, hstate⟩
  case expiry =>
    intro p hp hshadow hfield
    obtain ⟨hp, hother⟩ := hpayload.1 hp
    obtain ⟨row, hrow, hexpires⟩ := Option.map_eq_some_iff.1 (hinv.expiry p hp hshadow hfield)
    exact Option.map_eq_some_iff.2 ⟨row, h.interactionRow hinv.ids hother hrow, hexpires⟩
  case replays =>
    intro p hp hfield
    obtain ⟨hp, hother⟩ := hpayload.1 hp
    obtain ⟨e, he, hrefers⟩ := hinv.replays p hp hfield
    refine ⟨e, hentry.2 ⟨he, fun hgone => hother ?_⟩, hrefers⟩
    exact ⟨(htenant hrefers).symm.trans hgone.1, (hinv.bound e he p hp hrefers).1.trans hgone.2⟩

end Cleared

/-- `delete_replay`. -/
theorem RetentionInv.deleteReplay (h : s.RetentionInv) {applicationId requestId : String}
    (done : s.deleteReplay tenant applicationId requestId = .ok s') : s'.RetentionInv := by
  have hs' := deleteReplay_eq_ok h.keys.unique done
  have hkeys := deleteReplay_stored h.keys done
  have hpayload : ∀ {p : EncryptedPayload}, p ∈ s'.payloads ↔ p ∈ s.payloads ∧
      ∀ e ∈ s.replayEntries, ¬(e.key = (tenant, applicationId, requestId) ∧ e.refersTo p = true) := by
    simp [hs', -not_and]
  have hentry : ∀ {e : ReplayRecord}, e ∈ s'.replayEntries ↔ e ∈ s.replayEntries ∧
      e.key ≠ (tenant, applicationId, requestId) := by simp [hs']
  have hrows : KeepsRows s s' := keepsRows_of_records (by rw [hs'])
  constructor
  case keys => exact hkeys
  case ids =>
    rw [hs']
    exact h.ids
  case bound =>
    intro e he p hp hrefers
    exact h.bound e (hentry.1 he).1 p (hpayload.1 hp).1 hrefers
  case active =>
    intro p hp
    exact hrows.stateOf (h.active p (hpayload.1 hp).1)
  case expiry =>
    intro p hp hshadow hfield
    exact hrows.expiresAt (h.expiry p (hpayload.1 hp).1 hshadow hfield)
  case replays =>
    intro p hp hfield
    obtain ⟨hp, hnone⟩ := hpayload.1 hp
    obtain ⟨e, he, hrefers⟩ := h.replays p hp hfield
    exact ⟨e, hentry.2 ⟨he, fun hkey => hnone e he ⟨hkey, hrefers⟩⟩, hrefers⟩

/-- A payload that is encrypted anew keeps what it is bound to. -/
theorem RetentionInv.replaceCiphertext (h : s.RetentionInv) {p replacement : EncryptedPayload}
    (done : s.replaceCiphertext p replacement = .ok s') : s'.RetentionInv := by
  have hs' := replaceCiphertext_eq_ok done
  have hsame : ∀ q ∈ s'.payloads, ∃ q₀ ∈ s.payloads, q.tenantId = q₀.tenantId ∧
      q.interactionId = q₀.interactionId ∧ q.field = q₀.field ∧ q.expiresAt = q₀.expiresAt ∧
      q.reference = q₀.reference := by
    intro q hq
    rw [hs'] at hq
    obtain ⟨q₀, hq₀, rfl⟩ := List.mem_map.1 hq
    refine ⟨q₀, hq₀, ?_⟩
    split <;> exact ⟨rfl, rfl, rfl, rfl, rfl⟩
  have hrefers {e : ReplayRecord} {q q₀ : EncryptedPayload} (htenant : q.tenantId = q₀.tenantId)
      (href : q.reference = q₀.reference) : e.refersTo q = e.refersTo q₀ := by
    rw [ReplayRecord.refersTo, ReplayRecord.refersTo, htenant, href]
  have hrows : KeepsRows s s' := keepsRows_of_records (by rw [hs'])
  have hentries : s'.replayEntries = s.replayEntries := by rw [hs']
  constructor
  case keys =>
    refine ⟨hentries ▸ h.keys.unique, fun e he => ?_⟩
    obtain ⟨q, hq, hr⟩ := h.keys.stored e (hentries ▸ he)
    rw [hs']
    refine ⟨_, List.mem_map_of_mem hq, ?_⟩
    split <;> exact hr
  case ids =>
    rw [hs']
    exact h.ids
  case bound =>
    intro e he q hq hr
    obtain ⟨q₀, hq₀, htenant, hid, hfield, hexpiry, href⟩ := hsame q hq
    rw [hrefers htenant href] at hr
    rw [hid, hfield, hexpiry]
    exact h.bound e (hentries ▸ he) q₀ hq₀ hr
  case active =>
    intro q hq
    obtain ⟨q₀, hq₀, htenant, hid, -⟩ := hsame q hq
    rw [htenant, hid]
    exact hrows.stateOf (h.active q₀ hq₀)
  case expiry =>
    intro q hq hshadow hreplay
    obtain ⟨q₀, hq₀, htenant, hid, hfield, hexpiry, -⟩ := hsame q hq
    rw [htenant, hid, hexpiry]
    exact hrows.expiresAt (h.expiry q₀ hq₀ (hfield ▸ hshadow) (hfield ▸ hreplay))
  case replays =>
    intro q hq hreplay
    obtain ⟨q₀, hq₀, htenant, -, hfield, -, href⟩ := hsame q hq
    obtain ⟨e, he, hr⟩ := h.replays q₀ hq₀ (hfield ▸ hreplay)
    exact ⟨e, hentries ▸ he, (hrefers htenant href).trans hr⟩

/-- **Every change keeps the invariant.** -/
theorem RetentionInv.change (h : s.RetentionInv) {b : Brought}
    (hbinds : ∀ sv, b.used sv → sv.Binds) (hchange : Change b s s') : s'.RetentionInv := by
  cases hchange with
  | put tenant record expires _ done => exact h.put done
  | update tenant id old new _ _ => exact h.update new
  | payload sv hsv encrypted notReplay expires done =>
    exact h.payload (hbinds sv hsv) encrypted notReplay expires done
  | replay sv hsv e capacity encrypted reference _ put done =>
    exact h.replay (hbinds sv hsv) encrypted reference put done
  | expire tenant id done => exact (cleared_of_expire done).retentionInv h
  | expireReplay tenant applicationId requestId done => exact h.deleteReplay done
  | erase tenant id deletion done => exact (cleared_of_erase done).retentionInv h
  | tombstoneSubject tenant deletion done =>
    rw [tombstoneSubject_eq_ok done]
    exact h.of_rows (keepsRows_of_records rfl) h.ids rfl rfl
  | rewrap sv _ k p _ done =>
    obtain ⟨_, _, -, -, hreplace⟩ := rewrap_eq_ok done
    exact h.replaceCiphertext hreplace
  | events | outbox => exact h.of_rows (keepsRows_of_records rfl) h.ids rfl rfl

/-! ## The sweep

What a sweep is to leave is stated by the expiry times alone: nothing that has expired, and all the
rest as it was. The sweep looks at interactions and replays, so the rest of the proof is about what
belongs to them. -/

/-- The interaction is stored, and expires later. -/
def unexpired (s : Store) (now : ℤ) (tenant id : String) : Bool :=
  (s.expiresAt tenant id).any fun expires => now < expires

/-- What a sweep of a tenant is to leave. -/
structure Swept (s : Store) (tenant : String) (now : ℤ) (s' : Store) : Prop where
  payloads : ∀ p ∈ s'.payloads, p.tenantId = tenant → now < p.expiresAt
  replays : ∀ e ∈ s'.replayEntries, e.tenantId = tenant → now < e.expiresAt
  interactions : ∀ row ∈ s'.records, row.kind = .interactions → row.tenantId = tenant →
    row.state = .active → now < row.expiresAt
  /-- the later records, payloads and replays of interactions that have not expired -/
  keptRecords : (s'.records.filter fun row => row.tenantId = tenant && now < row.expiresAt &&
      s.unexpired now tenant row.interactionId) =
    s.records.filter fun row => row.tenantId = tenant && now < row.expiresAt &&
      s.unexpired now tenant row.interactionId
  keptPayloads : (s'.payloads.filter fun p => p.tenantId = tenant && now < p.expiresAt &&
      s.unexpired now tenant p.interactionId) =
    s.payloads.filter fun p => p.tenantId = tenant && now < p.expiresAt &&
      s.unexpired now tenant p.interactionId
  keptReplays : (s'.replayEntries.filter fun e => e.tenantId = tenant && now < e.expiresAt &&
      s.unexpired now tenant e.interactionId) =
    s.replayEntries.filter fun e => e.tenantId = tenant && now < e.expiresAt &&
      s.unexpired now tenant e.interactionId
  others : ∀ other, other ≠ tenant → s'.rowsOf other = s.rowsOf other
  rest : s'.deletionTombstones = s.deletionTombstones ∧ s'.subjectTombstones = s.subjectTombstones ∧
    s'.outbox = s.outbox

/-- No shadow output expires before its interaction and has done so. -/
def ShadowsOutlive (s : Store) (tenant : String) (now : ℤ) : Prop :=
  ∀ p ∈ s.payloads, p.tenantId = tenant → isShadow p.field = true → p.expiresAt ≤ now →
    s.unexpired now tenant p.interactionId = false

/-- What the steps of a sweep of `s` keep: everything of the interactions that have not expired, but
    replays that have, and when the interactions expire. -/
structure SweepKeeps (s : Store) (tenant : String) (now : ℤ) (t : Store) : Prop where
  inv : t.RetentionInv
  records : (t.records.filter fun row => row.tenantId = tenant &&
      s.unexpired now tenant row.interactionId) =
    s.records.filter fun row => row.tenantId = tenant && s.unexpired now tenant row.interactionId
  payloads : (t.payloads.filter fun p => p.tenantId = tenant &&
      s.unexpired now tenant p.interactionId && (p.field ≠ "replay" || now < p.expiresAt)) =
    s.payloads.filter fun p => p.tenantId = tenant && s.unexpired now tenant p.interactionId &&
      (p.field ≠ "replay" || now < p.expiresAt)
  replayEntries : (t.replayEntries.filter fun e => e.tenantId = tenant &&
      s.unexpired now tenant e.interactionId && now < e.expiresAt) =
    s.replayEntries.filter fun e => e.tenantId = tenant && s.unexpired now tenant e.interactionId &&
      now < e.expiresAt
  expiresAt : ∀ tenant id, t.expiresAt tenant id = s.expiresAt tenant id
  rest : t.deletionTombstones = s.deletionTombstones ∧ t.subjectTombstones = s.subjectTombstones ∧
    t.outbox = s.outbox

theorem SweepKeeps.refl (h : s.RetentionInv) (now : ℤ) : s.SweepKeeps tenant now s :=
  ⟨h, rfl, rfl, rfl, fun _ _ => rfl, rfl, rfl, rfl⟩

theorem Cleared.expiresAt {state : RowState} (h : s.Cleared tenant id state s') (tenant' id' : String) :
    s'.expiresAt tenant' id' = s.expiresAt tenant' id' := by
  have hmap := @interactionRow_map s tenant' id' (fun row =>
    if row.tenantId = tenant ∧ row.interactionId = id then row.clear state else row)
    (fun row => by split <;> rfl)
  unfold Store.expiresAt Store.interactionRow at *
  rw [h.records, hmap, Option.map_map]
  congr 1
  funext row
  simp only [Function.comp_apply]
  split <;> rfl

/-- An interaction that has expired is cleared. -/
theorem SweepKeeps.clear {now : ℤ} {t t' : Store} (h : s.SweepKeeps tenant now t)
    (hexpired : s.unexpired now tenant id = false)
    (hstep : (t.clearRefs tenant id .expired).deleteInteraction tenant id = .ok t') :
    s.SweepKeeps tenant now t' := by
  have hcleared := cleared_of_expire hstep
  have hother : ∀ {tenant' id' : String}, (tenant' = tenant && s.unexpired now tenant id') = true →
      ¬(tenant' = tenant ∧ id' = id) := by
    rintro tenant' id' hkept ⟨-, rfl⟩
    simp [hexpired] at hkept
  constructor
  case inv => exact hcleared.retentionInv h.inv
  case records =>
    rw [hcleared.records, ← h.records]
    refine filter_map_of_fixed _ (fun row => ?_) (fun row hkept => if_neg (hother hkept))
    split <;> rfl
  case payloads =>
    rw [hcleared.payloads, ← h.payloads]
    refine filter_filter_of_imp _ fun p hkept => ?_
    rw [Bool.and_eq_true] at hkept
    simpa [imp_iff_not_or] using hother hkept.1
  case replayEntries =>
    rw [hcleared.replayEntries, ← h.replayEntries]
    refine filter_filter_of_imp _ fun e hkept => ?_
    rw [Bool.and_eq_true] at hkept
    simpa [imp_iff_not_or] using hother hkept.1
  case expiresAt =>
    intro tenant' id'
    exact (hcleared.expiresAt tenant' id').trans (h.expiresAt tenant' id')
  case rest =>
    rw [deletePayloads_eq_ok hstep]
    exact h.rest

/-- A replay that has expired goes, with its payload. -/
theorem SweepKeeps.deleteReplay {now : ℤ} {t t' : Store} (h : s.SweepKeeps tenant now t)
    {applicationId requestId : String}
    (hexpired : ∀ e ∈ t.replayEntries, e.key = (tenant, applicationId, requestId) → e.expiresAt ≤ now)
    (hstep : t.deleteReplay tenant applicationId requestId = .ok t') :
    s.SweepKeeps tenant now t' := by
  have ht' := deleteReplay_eq_ok h.inv.keys.unique hstep
  constructor
  case inv => exact h.inv.deleteReplay hstep
  case records =>
    rw [ht', ← h.records]
  case payloads =>
    rw [ht', ← h.payloads, List.filter_filter]
    refine List.filter_congr fun p hp => ?_
    rw [Bool.and_eq_left_iff_imp]
    intro hkept
    rw [Bool.not_eq_true', List.any_eq_false]
    intro e he hgone
    -- it is a replay that expires with the entry
    simp only [Bool.and_eq_true, Bool.or_eq_true, decide_eq_true_eq] at hgone hkept
    obtain ⟨-, hfield, hexpiry⟩ := h.inv.bound e he p hp hgone.2
    have hlate := hkept.2.resolve_left (not_not_intro hfield)
    rw [hexpiry] at hlate
    exact absurd (hexpired e he hgone.1) (not_le.2 hlate)
  case replayEntries =>
    rw [ht', ← h.replayEntries, List.filter_filter]
    refine List.filter_congr fun e he => ?_
    rw [Bool.and_eq_left_iff_imp]
    intro hkept
    simp only [Bool.and_eq_true, decide_eq_true_eq] at hkept ⊢
    exact fun hkey => absurd (hexpired e he hkey) (not_le.2 hkept.2)
  case expiresAt =>
    intro tenant' id'
    rw [ht']
    exact h.expiresAt tenant' id'
  case rest =>
    rw [ht']
    exact h.rest

/-- The first loop of a sweep. -/
theorem clearExpired_keeps {now : ℤ} (hinv : s.RetentionInv) {interactions : List Interaction}
    (hexpired : ∀ i ∈ interactions, s.unexpired now tenant i.interactionId = false)
    (hall : ∀ row ∈ s.records, row.kind = .interactions → row.tenantId = tenant →
      row.state = .active → row.expiresAt ≤ now → ∃ i ∈ interactions, i.interactionId = row.recordId)
    (h : interactions.foldlM (fun (s : Store) interaction =>
      (s.clearRefs tenant interaction.interactionId .expired).deleteInteraction tenant
        interaction.interactionId) s = .ok s') :
    s.SweepKeeps tenant now s' ∧ ∀ row ∈ s'.records, row.kind = .interactions →
      row.tenantId = tenant → row.state = .active → now < row.expiresAt := by
  have hend := Except.foldlM_of_invariant (fun rest t => s.SweepKeeps tenant now t ∧
    (∀ i ∈ rest, s.unexpired now tenant i.interactionId = false) ∧
    ∀ row ∈ t.records, row.kind = .interactions → row.tenantId = tenant → row.state = .active →
      row.expiresAt ≤ now → ∃ i ∈ rest, i.interactionId = row.recordId)
    ?_ interactions ⟨.refl hinv now, hexpired, hall⟩ h
  · obtain ⟨hkeeps, -, hleft⟩ := hend
    refine ⟨hkeeps, fun row hrow hkind htenant hactive => ?_⟩
    by_contra hearly
    obtain ⟨i, hi, -⟩ := hleft row hrow hkind htenant hactive (not_lt.1 hearly)
    cases hi
  · rintro i rest t t' ⟨hkeeps, hexpired, hleft⟩ hstep
    obtain ⟨hi, hexpired⟩ := List.forall_mem_cons.1 hexpired
    refine ⟨hkeeps.clear hi hstep, hexpired, ?_⟩
    intro row hrow hkind htenant hactive hearly
    rw [(cleared_of_expire hstep).records] at hrow
    obtain ⟨row₀, hrow₀, rfl⟩ := List.mem_map.1 hrow
    split at hactive
    · cases hactive
    rename_i hother
    rw [if_neg hother] at hkind htenant hearly ⊢
    obtain ⟨j, hj, hid⟩ := hleft row₀ hrow₀ hkind htenant hactive hearly
    rcases List.mem_cons.1 hj with rfl | hj
    · exact absurd ⟨htenant, (hkeeps.inv.ids row₀ hrow₀ hkind).trans hid.symm⟩ hother
    · exact ⟨j, hj, hid⟩

/-- The second loop. -/
theorem expireReplays_keeps {now : ℤ} {t : Store} (hkeeps : s.SweepKeeps tenant now t)
    (h : t.expireReplays tenant now = .ok s') :
    s.SweepKeeps tenant now s' ∧ s'.records = t.records ∧
      ∀ e ∈ s'.replayEntries, e.tenantId = tenant → now < e.expiresAt := by
  have hloop := Except.foldlM_of_invariant (fun rest u => s.SweepKeeps tenant now u ∧
    u.records = t.records ∧ u.replayEntries ⊆ t.replayEntries ∧
    (∀ e ∈ rest, e ∈ t.replayEntries ∧ e.tenantId = tenant ∧ e.expiresAt ≤ now) ∧
    ∀ e ∈ u.replayEntries, e.tenantId = tenant → e.expiresAt ≤ now → e ∈ rest)
    ?_ _ ⟨hkeeps, rfl, fun _ he => he, fun e he => ?_, fun e he htenant hearly => ?_⟩ h
  · obtain ⟨hkeeps, hrecords, -, -, hleft⟩ := hloop
    refine ⟨hkeeps, hrecords, fun e he htenant => ?_⟩
    by_contra hearly
    cases hleft e he htenant (not_lt.1 hearly)
  · rintro e rest u u' ⟨hkeeps', hrecords, hsub, hrest, hleft⟩ hstep
    obtain ⟨⟨he, htenant, hearly⟩, hrest⟩ := List.forall_mem_cons.1 hrest
    have hu' := deleteReplay_eq_ok hkeeps'.inv.keys.unique hstep
    -- the key is that of `e` alone
    have hkey : ∀ e' ∈ t.replayEntries, e'.key = (tenant, e.applicationId, e.requestId) → e' = e :=
      fun e' he' hsame => List.inj_on_of_nodup_map hkeeps.inv.keys.unique he' he
        (hsame.trans (by rw [ReplayRecord.key, htenant]))
    refine ⟨hkeeps'.deleteReplay (fun e' he' hsame => hkey e' (hsub he') hsame ▸ hearly) hstep, ?_, ?_,
      hrest, ?_⟩
    · rw [hu']
      exact hrecords
    · rw [hu']
      exact fun e' he' => hsub (List.mem_of_mem_filter he')
    · intro e' he' htenant' hearly'
      rw [hu', List.mem_filter] at he'
      refine (List.mem_cons.1 (hleft e' he'.1 htenant' hearly')).resolve_left ?_
      rintro rfl
      simp [ReplayRecord.key, htenant'] at he'
  · simpa using he
  · simpa using ⟨he, htenant, hearly⟩

/-- The interactions of a sweep are those that have expired. -/
theorem expired_eq_ok (hprivacy : PrivacyInv s) {now : ℤ} {interactions : List Interaction}
    (h : s.expired tenant now = .ok interactions) :
    (∀ i ∈ interactions, s.unexpired now tenant i.interactionId = false) ∧
      ∀ row ∈ s.records, row.kind = .interactions → row.tenantId = tenant → row.state = .active →
        row.expiresAt ≤ now → ∃ i ∈ interactions, i.interactionId = row.recordId := by
  obtain ⟨hforward, hback⟩ := parseAll_eq_ok h
  constructor
  · intro i hi
    obtain ⟨row, hrow, hparse⟩ := hback i hi
    simp only [List.mem_filter, Bool.and_eq_true, decide_eq_true_eq] at hrow
    obtain ⟨hrow, ⟨⟨hkind, rfl⟩, hearly⟩, -⟩ := hrow
    obtain ⟨hid, -⟩ := hprivacy.ofJson_row hrow hkind hparse
    rw [← hid, unexpired, expiresAt, interactionRow_of_mem hprivacy hrow hkind]
    simpa using hearly
  · intro row hrow hkind htenant hactive hearly
    obtain ⟨i, hi, hparse⟩ := hforward row (by simp [*])
    exact ⟨i, hi, (hprivacy.ofJson_row hrow hkind hparse).1.symm⟩

/-- A payload expires with what the sweep goes by, unless it is a shadow output. -/
theorem RetentionInv.later (h : s.RetentionInv) {now : ℤ}
    (hinteractions : ∀ row ∈ s.records, row.kind = .interactions → row.tenantId = tenant →
      row.state = .active → now < row.expiresAt)
    (hentries : ∀ e ∈ s.replayEntries, e.tenantId = tenant → now < e.expiresAt)
    {p : EncryptedPayload} (hp : p ∈ s.payloads) (htenant : p.tenantId = tenant) :
    s.unexpired now tenant p.interactionId = true ∧ (isShadow p.field = false → now < p.expiresAt) := by
  subst htenant
  obtain ⟨row, hrow, hactive⟩ := Option.map_eq_some_iff.1 (h.active p hp)
  obtain ⟨hmem, hkind, hrowTenant, -⟩ := interactionRow_eq_some hrow
  have hlate := hinteractions row hmem hkind hrowTenant hactive
  constructor
  · simpa [unexpired, Store.expiresAt, hrow] using hlate
  intro hshadow
  by_cases hreplay : p.field = "replay"
  · obtain ⟨e, he, hrefers⟩ := h.replays p hp hreplay
    rw [(h.bound e he p hp hrefers).2.2]
    refine hentries e he ?_
    simp only [ReplayRecord.refersTo, Bool.and_eq_true, decide_eq_true_eq] at hrefers
    exact hrefers.1
  · have hexpires := h.expiry p hp hshadow hreplay
    simp only [Store.expiresAt, hrow, Option.map_some, Option.some_inj] at hexpires
    exact hexpires ▸ hlate

/-- A filter that keeps less of two lists with the same of what it keeps. -/
theorem filter_eq_of_imp {α : Type} {p q : α → Bool} {as bs : List α}
    (h : as.filter q = bs.filter q) (himp : ∀ a, p a = true → q a = true) :
    as.filter p = bs.filter p := by
  rw [← filter_filter_of_imp as himp, h, filter_filter_of_imp bs himp]

/-- **What a sweep leaves.** In a store of the invariants, a sweep that succeeds leaves what it is to
    leave if and only if no shadow output has expired before its interaction. -/
theorem swept_iff (hinv : s.RetentionInv) (hprivacy : PrivacyInv s) {sv : Services} {expired : ℕ}
    (h : s.sweep sv tenant = .ok (expired, s')) :
    s.Swept tenant (sv.clock 0) s' ↔ s.ShadowsOutlive tenant (sv.clock 0) := by
  have hothers : ∀ other, other ≠ tenant → s'.rowsOf other = s.rowsOf other :=
    fun _ hother => (sweep_writes hprivacy h).rowsOf hother
  obtain ⟨interactions, hexpired, h⟩ := Except.bind_eq_ok.1 h
  obtain ⟨s₁, hloop, h⟩ := Except.bind_eq_ok.1 h
  obtain ⟨s₂, hreplays, h⟩ := Except.bind_eq_ok.1 h
  cases h
  obtain ⟨hgone, hall⟩ := expired_eq_ok hprivacy hexpired
  obtain ⟨hfirst, hinteractions⟩ := clearExpired_keeps hinv hgone hall hloop
  obtain ⟨hkeeps, hrecords, hentries⟩ := expireReplays_keeps hfirst hreplays
  rw [← hrecords] at hinteractions
  have hsame : ∀ id, s'.unexpired (sv.clock 0) tenant id = s.unexpired (sv.clock 0) tenant id :=
    fun id => by rw [unexpired, hkeeps.expiresAt, unexpired]
  constructor
  · -- a shadow output of an interaction that has not expired is kept, however late it is
    intro hswept p hp htenant hshadow hearly
    by_contra hunexpired
    rw [Bool.not_eq_false] at hunexpired
    have hfield := ne_replay_of_isShadow hshadow
    have hkept : p ∈ s'.payloads := by
      refine List.mem_of_mem_filter (hkeeps.payloads ▸ List.mem_filter.2 ⟨hp, ?_⟩)
      simp [htenant, hunexpired, hfield]
    exact absurd (hswept.payloads p hkept htenant) (not_lt.2 hearly)
  · intro houtlive
    constructor
    case payloads =>
      intro p hp htenant
      obtain ⟨hunexpired, hlater⟩ := hkeeps.inv.later hinteractions hentries hp htenant
      by_contra hearly
      cases hshadow : isShadow p.field with
      | false => exact hearly (hlater hshadow)
      | true =>
        -- it was there before, when its interaction had not expired
        have hfield := ne_replay_of_isShadow hshadow
        have hkept : p ∈ s'.payloads.filter fun p => p.tenantId = tenant &&
            s.unexpired (sv.clock 0) tenant p.interactionId &&
            (p.field ≠ "replay" || sv.clock 0 < p.expiresAt) := by
          simp [hp, htenant, ← hsame, hunexpired, hfield]
        rw [hkeeps.payloads] at hkept
        have hexpired := houtlive p (List.mem_of_mem_filter hkept) htenant hshadow (not_lt.1 hearly)
        rw [← hsame, hunexpired] at hexpired
        cases hexpired
    case replays => exact hentries
    case interactions => exact hinteractions
    case keptRecords =>
      refine filter_eq_of_imp hkeeps.records fun row hkept => ?_
      simp only [Bool.and_eq_true] at hkept ⊢
      exact ⟨hkept.1.1, hkept.2⟩
    case keptPayloads =>
      refine filter_eq_of_imp hkeeps.payloads fun p hkept => ?_
      simp only [Bool.and_eq_true, Bool.or_eq_true] at hkept ⊢
      exact ⟨⟨hkept.1.1, hkept.2⟩, .inr hkept.1.2⟩
    case keptReplays =>
      refine filter_eq_of_imp hkeeps.replayEntries fun e hkept => ?_
      simp only [Bool.and_eq_true] at hkept ⊢
      exact ⟨⟨hkept.1.1, hkept.2⟩, hkept.1.2⟩
    case others => exact hothers
    case rest => exact hkeeps.rest

/-- **Retention.** After any operations from an empty store, a sweep of a tenant that succeeds leaves
    what it is to leave if and only if no shadow output of the tenant has expired before its
    interaction. -/
theorem retention_sweep {ops : List Operation}
    (hbinds : ∀ op ∈ ops, ∀ sv, op.services = some sv → sv.Binds) {sv : Services} {expired : ℕ}
    (h : (({} : Store).performAll ops).sweep sv tenant = .ok (expired, s')) :
    (({} : Store).performAll ops).Swept tenant (sv.clock 0) s' ↔
      (({} : Store).performAll ops).ShadowsOutlive tenant (sv.clock 0) := by
  have hkeys : PayloadKeys {} := List.nodup_nil
  obtain ⟨hinv, -⟩ := @performAll_of_changes { used := Services.Binds } {} RetentionInv ops
    hbinds (fun _ _ => trivial) (fun _ _ _ _ _ => trivial)
    (fun _ _ hinv _ hchange => hinv.change (fun _ hsv => hsv) hchange) .init hkeys
  exact swept_iff hinv (PrivacyInv.init.performAll ops) h

end Store

/-! A shadow output that is kept for a minute, of an interaction that is kept for an hour. -/

namespace ShadowStore

open SupportStore

/-- A shadow output that is kept for a minute only. -/
def shadow : Operation :=
  .saveShadow (services 5) interaction { attemptId := "a2", interactionId := "i1" } (some "hi")
    { policy with retentionSeconds := 60 } false

/-- It is saved behind its interaction, which is kept for an hour. -/
def saved : List Operation :=
  [.save (services 0) graph (some ⟨"hello", []⟩)
    { messagesJson := some "messages", query := some "query", output := some "hello" } "print" 0,
    shadow]

/-- Services of a sweep so many seconds later. -/
def after (n : ℕ) : Services := { services 0 with clock := fun _ => seconds n }

theorem services_binds (n : ℕ) : (services n).Binds where
  encrypt h := by
    cases h
    exact ⟨rfl, rfl, rfl, rfl⟩

theorem saved_binds : ∀ op ∈ saved, ∀ sv, op.services = some sv → sv.Binds := by
  intro op hop sv hsv
  simp only [saved, shadow, List.mem_cons, List.not_mem_nil, or_false] at hop
  rcases hop with rfl | rfl <;> cases hsv <;> exact services_binds _

end ShadowStore

open ShadowStore in
/-- Two hours later everything goes. -/
theorem saved_swept : ∃ r, (({} : Store).performAll saved).sweep (after 7200) "acme" = .ok r ∧
    (({} : Store).performAll saved).Swept "acme" (seconds 7200) r.2 := by
  cases h : (({} : Store).performAll saved).sweep (after 7200) "acme" with
  | error e =>
    have hok : ((({} : Store).performAll saved).sweep (after 7200) "acme").toOption.isSome = true := by
      decide +kernel
    rw [h] at hok
    cases hok
  | ok r =>
    refine ⟨r, rfl, (Store.retention_sweep saved_binds h).2 ?_⟩
    unfold Store.ShadowsOutlive
    decide +kernel

open ShadowStore in
/-- Two minutes later the shadow output has expired, and the sweep leaves it. -/
theorem expired_shadow_kept : (∀ op ∈ saved, ∀ sv, op.services = some sv → sv.Binds) ∧
    ∃ r, (({} : Store).performAll saved).sweep (after 120) "acme" = .ok r ∧
      (∃ p ∈ r.2.payloads, p.tenantId = "acme" ∧ p.expiresAt ≤ seconds 120) ∧
      ¬(({} : Store).performAll saved).Swept "acme" (seconds 120) r.2 := by
  have hleft : ((({} : Store).performAll saved).sweep (after 120) "acme").toOption.any (fun r =>
      r.2.payloads.any fun p => p.tenantId = "acme" && p.expiresAt ≤ seconds 120) = true := by
    decide +kernel
  cases h : (({} : Store).performAll saved).sweep (after 120) "acme" with
  | error e =>
    rw [h] at hleft
    cases hleft
  | ok r =>
    rw [h] at hleft
    have hany : (r.2.payloads.any fun p => p.tenantId = "acme" && p.expiresAt ≤ seconds 120) = true :=
      hleft
    simp only [List.any_eq_true, Bool.and_eq_true, decide_eq_true_eq] at hany
    obtain ⟨p, hp, htenant, hearly⟩ := hany
    exact ⟨saved_binds, r, rfl, ⟨p, hp, htenant, hearly⟩, fun hswept =>
      absurd (hswept.payloads p hp htenant) (not_lt.2 hearly)⟩

end Stored

end AdaptiveLlm
