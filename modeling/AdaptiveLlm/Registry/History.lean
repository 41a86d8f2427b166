import AdaptiveLlm.Registry.Runs
import Mathlib.Data.List.Chain

set_option autoImplicit false

/-! # Lifecycle histories

A model's history, its rows of `lifecycle_transitions` and its `deployment.changed` events are
written together. `HistoryInv` says that they agree, that the history is a path of allowed steps, and
that a path beyond `evaluating` has the evidence of a stored report behind it.

The evidence for a use beyond evaluation is a stored report that passed; it was there when the
transition was made, and reports are never removed. The three records of one change are written in
one transaction, so they agree entry by entry. All of it is one invariant with one step lemma, for
`HistoryInv.move` is stated for the small moves of `Registry/Runs.lean` and not for each method
again. -/

namespace AdaptiveLlm

/-! ## Paths -/

/-- A step of the lifecycle: an allowed edge, or a rollback's way back into production. -/
def LifecycleStep (s t : LifecycleState) : Prop :=
  (s, t) ∈ allowedEdges ∨ s = .deprecated ∧ t = .production

/-- A history that ends in a state. -/
structure LifecyclePath (history : List LifecycleTransition) (state : LifecycleState) : Prop where
  first : ∃ entry rest, history = entry :: rest ∧ entry.fromState = none ∧
    entry.toState = .candidate
  chain : history.IsChain fun a b => b.fromState = some a.toState ∧ LifecycleStep a.toState b.toState
  last : history.getLast?.map (·.toState) = some state
  noted : ∀ entry ∈ history, entry.actor ≠ "" ∧ Python.isBlank entry.reason = false

theorem LifecyclePath.append {history : List LifecycleTransition} {state : LifecycleState}
    (h : LifecyclePath history state) {entry : LifecycleTransition}
    (hfrom : entry.fromState = some state) (hstep : LifecycleStep state entry.toState)
    (hnoted : entry.actor ≠ "" ∧ Python.isBlank entry.reason = false) :
    LifecyclePath (history ++ [entry]) entry.toState := by
  obtain ⟨first, rest, hhistory, hfirst⟩ := h.first
  refine ⟨⟨first, rest ++ [entry], by simp [hhistory], hfirst⟩, ?_, by simp, ?_⟩
  · rw [List.isChain_append]
    refine ⟨h.chain, List.isChain_singleton entry, ?_⟩
    intro last hlast e he
    obtain rfl : entry = e := by simpa using he
    have hstate : last.toState = state := by
      have hend := h.last
      rw [Option.mem_def.1 hlast] at hend
      simpa using hend
    rw [hstate]
    exact ⟨hfrom, hstep⟩
  · intro e he
    rcases List.mem_append.1 he with he | he
    · exact h.noted e he
    · obtain rfl : e = entry := by simpa using he
      exact hnoted

/-- The states that only an approved model enters. -/
def LifecycleState.approvedUse (s : LifecycleState) : Bool :=
  s = .approved || s = .shadow || s = .canary || s = .production

/-- The states that lead to a use of an approved model, other than by its approval. -/
theorem approvedUse_of_step {s t : LifecycleState} (hstep : LifecycleStep s t)
    (ht : t.approvedUse = true) :
    s = .evaluating ∧ t = .approved ∨ s.approvedUse = true ∨ s = .deprecated ∧ t = .production := by
  rcases hstep with hedge | hrollback
  · cases s <;> cases t <;>
      first
      | exact absurd hedge (by decide)
      | exact absurd ht (by decide)
      | exact .inl ⟨rfl, rfl⟩
      | exact .inr (.inl rfl)
  · exact .inr (.inr hrollback)

/-! ## Rows and events

One transaction writes the entry into the manifest's history, the row of the transition and the
events. They are written from the same data, so each list can be read off the other two. -/

/-- The model that an event is about. -/
def ControlData.changedVersion : ControlData → Option String
  | .deploymentChanged _ version .. => some version
  | _ => none

/-- The data of the event of an entry. -/
def ModelManifest.changed (m : ModelManifest) (entry : LifecycleTransition) : ControlData :=
  .deploymentChanged m.registryId m.version entry.fromState entry.toState entry.actor entry.reason
    entry.evaluationId

/-- The events of an entry, one for each tenant. -/
def ModelManifest.changes (m : ModelManifest) (entry : LifecycleTransition) :
    List (String × ControlData) :=
  (m.tenantIds.insertionSort (· ≤ ·)).map fun tenant => (tenant, m.changed entry)

namespace Registry

variable {checks : RegistryChecks} {identity : Identity} {r r' : Registry}

/-- The entries of the version's rows in `lifecycle_transitions`. -/
def transitionsOf (r : Registry) (version : String) : List LifecycleTransition :=
  (r.lifecycleTransitions.filter (·.modelVersion = version)).map (·.data)

/-- An event is a `deployment.changed` about the version. -/
def isChange (version : String) (e : Event ℕ ControlData) : Bool :=
  e.eventType = .deploymentChanged && e.data.changedVersion = some version

/-- The tenants and the data of the version's `deployment.changed` events. -/
def changesOf (r : Registry) (version : String) : List (String × ControlData) :=
  ((r.outbox.map (·.event)).filter (isChange version)).map fun e => (e.tenantId, e.data)

theorem changesOf_append {events : List (Event ℕ ControlData)}
    (houtbox : r'.outbox.map (·.event) = r.outbox.map (·.event) ++ events) (version : String) :
    r'.changesOf version = r.changesOf version ++
      (events.filter (isChange version)).map fun e => (e.tenantId, e.data) := by
  unfold changesOf
  rw [houtbox, List.filter_append, List.map_append]

/-- The events in the outbox carry ids that were handed out. -/
def FreshIds (r : Registry) : Prop := ∀ row ∈ r.outbox, row.event.eventId < r.nextUid

/-- Events that cannot be dropped are all stored. -/
theorem emit_outbox (h : r.FreshIds) {tenants : List String} {data : ControlData}
    (hdata : data.eventType.isOptional = false) :
    (r.emit checks tenants data).outbox.map (·.event) =
      r.outbox.map (·.event) ++ r.events tenants data := by
  unfold emit
  rw [enqueue_fresh]
  · simp [Function.comp_def]
  · intro e he
    rw [(r.of_mem_events he).1]
    exact hdata
  · intro e he hold
    obtain ⟨row, hrow, heq⟩ := List.mem_map.1 hold
    have hlt := h row hrow
    have hgt := (r.of_mem_events he).2.2.1
    omega
  · exact r.events_nodup tenants data

theorem FreshIds.of_append {events : List (Event ℕ ControlData)} (h : r.FreshIds)
    (houtbox : r'.outbox.map (·.event) = r.outbox.map (·.event) ++ events)
    (hle : r.nextUid ≤ r'.nextUid) (hnew : ∀ e ∈ events, e.eventId < r'.nextUid) :
    r'.FreshIds := by
  intro row hrow
  have hmem : row.event ∈ r.outbox.map (·.event) ++ events := houtbox ▸ List.mem_map_of_mem hrow
  rcases List.mem_append.1 hmem with hold | hnew'
  · obtain ⟨old, hold, heq⟩ := List.mem_map.1 hold
    rw [← heq]
    exact (h old hold).trans_le hle
  · exact hnew _ hnew'

/-- The events of an entry, as they are emitted. -/
theorem events_changes (r : Registry) (m : ModelManifest) (entry : LifecycleTransition) (v : String) :
    ((r.events m.tenantIds (m.changed entry)).filter (isChange v)).map (fun e => (e.tenantId, e.data)) =
      if m.version = v then m.changes entry else [] := by
  by_cases hv : m.version = v
  · have hall : ∀ e ∈ r.events m.tenantIds (m.changed entry), isChange v e = true := by
      intro e he
      obtain ⟨htype, hdata, -⟩ := r.of_mem_events he
      simp [isChange, htype, hdata, ModelManifest.changed, ControlData.eventType,
        ControlData.changedVersion, hv]
    rw [if_pos hv, List.filter_eq_self.2 hall, ModelManifest.changes,
      ← r.events_tenants m.tenantIds (m.changed entry), List.map_map]
    refine List.map_congr_left fun e he => ?_
    simp [(r.of_mem_events he).2.1]
  · have hnone : ∀ e ∈ r.events m.tenantIds (m.changed entry), ¬isChange v e = true := by
      intro e he
      obtain ⟨-, hdata, -⟩ := r.of_mem_events he
      simp [isChange, hdata, ModelManifest.changed, ControlData.changedVersion, hv]
    rw [if_neg hv, List.filter_eq_nil_iff.2 hnone, List.map_nil]

variable (checks) in
/-- The transition row of `record`, and its events. -/
theorem record_effect (h : r.FreshIds) (m : ModelManifest) (entry : LifecycleTransition) :
    (r.record checks m entry).FreshIds ∧
      (∀ v, (r.record checks m entry).transitionsOf v =
        r.transitionsOf v ++ if m.version = v then [entry] else []) ∧
      ∀ v, (r.record checks m entry).changesOf v =
        r.changesOf v ++ if m.version = v then m.changes entry else [] := by
  -- the registry between the row and the events
  let r₁ : Registry := { r with
    lifecycleTransitions := r.lifecycleTransitions ++ [⟨r.nextUid, m.version, entry⟩]
    nextUid := r.nextUid + 1 }
  have h₁ : r₁.FreshIds := fun row hrow => Nat.lt_succ_of_lt (h row hrow)
  have houtbox : (r.record checks m entry).outbox.map (·.event) =
      r.outbox.map (·.event) ++ r₁.events m.tenantIds (m.changed entry) := emit_outbox h₁ rfl
  refine ⟨h.of_append houtbox ?_ fun e he => (r₁.of_mem_events he).2.2.2, fun v => ?_, fun v => ?_⟩
  · show r.nextUid ≤ r.nextUid + 1 + 1 + m.tenantIds.length
    omega
  · show r₁.transitionsOf v = _
    by_cases hv : m.version = v <;> simp [transitionsOf, r₁, List.filter_append, hv]
  · rw [changesOf_append houtbox, events_changes]

end Registry

/-! ## The invariant

`ModelInv` is about one model: its history is a path to its state, with the evidence its state
needs. `HistoryInv` adds that rows and events are those of the histories. -/

/-- What holds of a stored model. -/
structure ModelInv (r : Registry) (m : ModelManifest) : Prop where
  path : LifecyclePath m.lifecycleHistory m.state
  rows : r.transitionsOf m.version = m.lifecycleHistory
  events : r.changesOf m.version = m.lifecycleHistory.flatMap m.changes
  evidenced : (∃ entry ∈ m.lifecycleHistory, entry.toState.approvedUse = true) →
    ∃ entry ∈ m.lifecycleHistory, entry.fromState = some .evaluating ∧ entry.toState = .approved ∧
      ∃ id, entry.evaluationId = some id ∧ r.Evidence m id

/-- What holds of manifests, transitions and events after every call. -/
structure HistoryInv (r : Registry) : Prop where
  fresh : r.FreshIds
  unknown : ∀ v, r.modelVersions v = none → r.transitionsOf v = [] ∧ r.changesOf v = []
  models : ∀ v m, r.modelVersions v = some m → ModelInv r m

theorem Registry.Evidence.mono {r r' : Registry} {m m' : ModelManifest} {id : String}
    (h : r.Evidence m id)
    (hreports : ∀ id stored, r.evaluationReports id = some stored →
      r'.evaluationReports id = some stored)
    (hversion : m'.version = m.version) (hdigest : m'.artifactDigest = m.artifactDigest) :
    r'.Evidence m' id := by
  obtain ⟨tenants, report, hstored, hpassed, hcandidate, hartifact⟩ := h
  exact ⟨tenants, report, hreports id _ hstored, hpassed, hversion ▸ hcandidate,
    hdigest ▸ hartifact⟩

section Moves

variable {checks : RegistryChecks} {identity : Identity} {r r' : Registry}

/-- A model keeps its invariant where its rows, its events and the stored reports stay. -/
theorem ModelInv.frame {m : ModelManifest} (h : ModelInv r m)
    (hrows : r'.transitionsOf m.version = r.transitionsOf m.version)
    (hevents : r'.changesOf m.version = r.changesOf m.version)
    (hreports : ∀ id stored, r.evaluationReports id = some stored →
      r'.evaluationReports id = some stored) : ModelInv r' m := by
  refine ⟨h.path, hrows.trans h.rows, hevents.trans h.events, fun hused => ?_⟩
  obtain ⟨entry, hentry, hfrom, hto, id, hid, hevidence⟩ := h.evidenced hused
  exact ⟨entry, hentry, hfrom, hto, id, hid, hevidence.mono hreports rfl rfl⟩

/-- A change of one model, its rows and its events. -/
theorem HistoryInv.set (h : HistoryInv r) (hkeyed : r.Keyed) {m : ModelManifest}
    (hmodels : r'.modelVersions = Function.update r.modelVersions m.version (some m))
    (hfresh : r'.FreshIds)
    (hrows : ∀ v, v ≠ m.version → r'.transitionsOf v = r.transitionsOf v)
    (hevents : ∀ v, v ≠ m.version → r'.changesOf v = r.changesOf v)
    (hreports : ∀ id stored, r.evaluationReports id = some stored →
      r'.evaluationReports id = some stored)
    (hm : ModelInv r' m) : HistoryInv r' := by
  refine ⟨hfresh, fun v hv => ?_, fun v m' hm' => ?_⟩
  · have hne : v ≠ m.version := by
      rintro rfl
      simp [hmodels] at hv
    rw [hmodels, Function.update_of_ne hne] at hv
    rw [hrows v hne, hevents v hne]
    exact h.unknown v hv
  · by_cases heq : v = m.version
    · obtain rfl : m = m' := by simpa [hmodels, heq] using hm'
      exact hm
    · rw [hmodels, Function.update_of_ne heq] at hm'
      obtain rfl : m'.version = v := (hkeyed v m' hm').1
      exact (h.models _ m' hm').frame (hrows _ heq) (hevents _ heq) hreports

/-- A change that leaves models, rows and events where they are. -/
theorem HistoryInv.frame (h : HistoryInv r) (hmodels : r'.modelVersions = r.modelVersions)
    (hfresh : r'.FreshIds) (hrows : ∀ v, r'.transitionsOf v = r.transitionsOf v)
    (hevents : ∀ v, r'.changesOf v = r.changesOf v)
    (hreports : ∀ id stored, r.evaluationReports id = some stored →
      r'.evaluationReports id = some stored) : HistoryInv r' := by
  refine ⟨hfresh, fun v hv => ?_, fun v m hm => ?_⟩
  · rw [hrows, hevents]
    exact h.unknown v (hmodels ▸ hv)
  · exact (h.models v m (hmodels ▸ hm)).frame (hrows _) (hevents _) hreports

theorem ModelInv.registered {m : ModelManifest} {entry : LifecycleTransition}
    (hfirst : FirstEntry m entry) (hrows : r.transitionsOf m.version = [entry])
    (hevents : r.changesOf m.version = m.changes entry) : ModelInv r m := by
  refine ⟨⟨⟨entry, [], hfirst.history, hfirst.fromState, hfirst.toState⟩, ?_, ?_, ?_⟩, ?_, ?_, ?_⟩
  · rw [hfirst.history]
    exact List.isChain_singleton entry
  · rw [hfirst.history, hfirst.state, ← hfirst.toState]
    rfl
  · intro e he
    obtain rfl : e = entry := by simpa [hfirst.history] using he
    exact ⟨hfirst.actor, hfirst.reason⟩
  · rw [hrows, hfirst.history]
  · rw [hevents, hfirst.history, List.flatMap_singleton]
  · rintro ⟨e, he, hused⟩
    obtain rfl : e = entry := by simpa [hfirst.history] using he
    rw [hfirst.toState] at hused
    cases hused

/-- What a transition rests on: the approval it makes, or one that is in the history already. -/
theorem Registry.Transitioned.evidence {m updated : ModelManifest} {request : PromotionRequest}
    {rollback : Bool} {entry : LifecycleTransition} (h : ModelInv r m)
    (hrollback : rollback = true → request.targetState ≠ .approved)
    (hmoved : Transitioned checks identity r m request rollback entry updated r')
    (hused : entry.toState.approvedUse = true) :
    (m.state = .evaluating ∧ entry.toState = .approved ∧
        ∃ id, entry.evaluationId = some id ∧ r.Evidence m id) ∨
      ∃ entry ∈ m.lifecycleHistory, entry.toState.approvedUse = true := by
  obtain ⟨passed, hpassed, hvalid⟩ := hmoved.valid
  rw [hmoved.toState] at hused ⊢
  have hstep : LifecycleStep m.state request.targetState :=
    (edgeAllowed_iff.1 hvalid.edge).imp_right fun h => ⟨h.2.2.1, h.2.2.2⟩
  rcases approvedUse_of_step hstep hused with ⟨hfrom, hto⟩ | hbefore | ⟨hfrom, hto⟩
  · left
    cases hback : rollback with
    | true => exact absurd hto (hrollback hback)
    | false =>
      subst hback
      obtain rfl : passed = true := hvalid.approved hto
      obtain ⟨id, hid, hevidence⟩ := passed_eq_true hpassed
      exact ⟨hfrom, hto, id, hmoved.evaluationId.trans hid, hevidence⟩
  · right
    obtain ⟨last, hlast, hstate⟩ := Option.map_eq_some_iff.1 h.path.last
    exact ⟨last, List.mem_of_getLast? hlast, hstate ▸ hbefore⟩
  · -- the way back of a rollback, which asks for the approval in the history
    right
    rcases edgeAllowed_iff.1 hvalid.edge with hedge | ⟨hback, hpassed', -⟩
    · rw [hfrom, hto] at hedge
      exact absurd hedge (by decide)
    · subst hback hpassed'
      have happroval : (approval m).isSome = true := by
        simpa [transitionPassed] using hpassed
      obtain ⟨approved, happroved⟩ := Option.isSome_iff_exists.1 happroval
      have hto' := List.find?_some happroved
      simp only [Bool.and_eq_true, decide_eq_true_eq] at hto'
      exact ⟨approved, List.mem_reverse.1 (List.mem_of_find?_eq_some happroved), by
        rw [hto'.2]; rfl⟩

/-- A transition writes one entry, with its row and its events. -/
theorem ModelInv.transitioned {m updated : ModelManifest} {request : PromotionRequest}
    {rollback : Bool} {entry : LifecycleTransition} (h : ModelInv r m)
    (hrollback : rollback = true → request.targetState ≠ .approved)
    (hmoved : Registry.Transitioned checks identity r m request rollback entry updated r')
    (hrows : r'.transitionsOf m.version = r.transitionsOf m.version ++ [entry])
    (hevents : r'.changesOf m.version = r.changesOf m.version ++ m.changes entry)
    (hreports : r'.evaluationReports = r.evaluationReports) : ModelInv r' updated := by
  have hevidence := hmoved.evidence h hrollback
  have hmono : ∀ id stored, r.evaluationReports id = some stored →
      r'.evaluationReports id = some stored := fun id stored hid => hreports ▸ hid
  obtain ⟨passed, -, hvalid⟩ := hmoved.valid
  have hstep : LifecycleStep m.state entry.toState := by
    rw [hmoved.toState]
    exact (edgeAllowed_iff.1 hvalid.edge).imp_right fun h => ⟨h.2.2.1, h.2.2.2⟩
  have hnoted : entry.actor ≠ "" ∧ Python.isBlank entry.reason = false := by
    rw [hmoved.actor, hmoved.reason]
    exact ⟨hvalid.actor, hvalid.reason⟩
  have hpath := h.path.append hmoved.fromState hstep hnoted
  rw [hmoved.toState] at hpath
  have hfrom := hmoved.fromState
  obtain ⟨reports, rfl⟩ := hmoved.manifest
  refine ⟨hpath, ?_, ?_, ?_⟩
  · show r'.transitionsOf m.version = m.lifecycleHistory ++ [entry]
    rw [hrows, h.rows]
  · show r'.changesOf m.version = (m.lifecycleHistory ++ [entry]).flatMap m.changes
    rw [hevents, h.events, List.flatMap_append, List.flatMap_singleton]
  · rintro ⟨e, he, hused⟩
    have hbefore : (∃ e ∈ m.lifecycleHistory, e.toState.approvedUse = true) ∨
        (m.state = .evaluating ∧ entry.toState = .approved ∧
          ∃ id, entry.evaluationId = some id ∧ r.Evidence m id) := by
      rcases List.mem_append.1 he with he | he
      · exact .inl ⟨e, he, hused⟩
      · obtain rfl : e = entry := by simpa using he
        exact (hevidence hused).symm
    rcases hbefore with hbefore | ⟨hevaluating, hto, id, hid, hstored⟩
    · obtain ⟨a, ha, hfrom, hto, id, hid, hstored⟩ := h.evidenced hbefore
      exact ⟨a, List.mem_append_left _ ha, hfrom, hto, id, hid, hstored.mono hmono rfl rfl⟩
    · exact ⟨entry, by simp, hevaluating ▸ hfrom, hto, id, hid, hstored.mono hmono rfl rfl⟩

/-- **Step lemma.** Every move keeps the invariant. -/
theorem HistoryInv.move (hkeyed : r.Keyed) (h : HistoryInv r) (hmove : RegistryMove r r') :
    HistoryInv r' := by
  cases hmove with
  | register hfirst hdatasets hnew =>
    rename_i checks m entry
    obtain ⟨hfresh, hrows, hevents⟩ :=
      Registry.record_effect checks (r := r.setModel m) h.fresh m entry
    obtain ⟨hnorows, hnoevents⟩ := h.unknown m.version hnew
    refine h.set hkeyed rfl hfresh (fun v hv => ?_) (fun v hv => ?_) (fun _ _ h => h)
      (.registered hfirst ?_ ?_)
    · rw [hrows, if_neg hv.symm, List.append_nil]
      rfl
    · rw [hevents, if_neg hv.symm, List.append_nil]
      rfl
    · rw [hrows, if_pos rfl, show (r.setModel m).transitionsOf m.version = [] from hnorows]
      rfl
    · rw [hevents, if_pos rfl, show (r.setModel m).changesOf m.version = [] from hnoevents]
      rfl
  | transition hfound hrollback hmoved =>
    rename_i checks identity m updated request rollback entry
    have hversion : updated.version = m.version := by
      obtain ⟨reports, rfl⟩ := hmoved.manifest
      rfl
    have hchanges : updated.changes = m.changes := by
      obtain ⟨reports, rfl⟩ := hmoved.manifest
      rfl
    have hinv := h.models _ _ hfound
    obtain ⟨hfresh, hrows, hevents⟩ :=
      Registry.record_effect checks (r := r.setModel updated) h.fresh updated entry
    rw [← hmoved.registry] at hfresh hrows hevents
    refine h.set hkeyed (by rw [hmoved.registry]; rfl) hfresh (fun v hv => ?_) (fun v hv => ?_)
      (fun id stored hid => by rw [hmoved.registry]; exact hid)
      (hinv.transitioned hrollback hmoved ?_ ?_ (by rw [hmoved.registry]; rfl))
    · rw [hrows, if_neg hv.symm, List.append_nil]
      rfl
    · rw [hevents, if_neg hv.symm, List.append_nil]
      rfl
    · rw [hrows, if_pos hversion]
      rfl
    · rw [hevents, if_pos hversion, hchanges]
      rfl
  | annotate hfound =>
    rename_i m reports
    have hinv := h.models _ _ hfound
    exact h.set hkeyed rfl h.fresh (fun _ _ => rfl) (fun _ _ => rfl) (fun _ _ h => h)
      ⟨hinv.path, hinv.rows, hinv.events, hinv.evidenced⟩
  | point => exact h.frame rfl h.fresh (fun _ => rfl) (fun _ => rfl) (fun _ _ h => h)
  | unrelated hother =>
    obtain ⟨events, houtbox, hnew⟩ := hother.outbox
    refine h.frame hother.modelVersions
      (h.fresh.of_append houtbox hother.nextUid fun e he => (hnew e he).2) (fun v => ?_)
      (fun v => ?_) hother.evaluationReports
    · unfold Registry.transitionsOf
      rw [hother.lifecycleTransitions]
    · have hnone : ∀ e ∈ events, ¬Registry.isChange v e = true := fun e he => by
        simp [Registry.isChange, (hnew e he).1]
      rw [Registry.changesOf_append houtbox, List.filter_eq_nil_iff.2 hnone, List.map_nil,
        List.append_nil]

end Moves

theorem HistoryInv.empty : HistoryInv {} := by
  refine ⟨?_, ?_, ?_⟩
  · intro row hrow
    cases hrow
  · intro v _
    exact ⟨rfl, rfl⟩
  · intro v m hm
    cases hm

/-- **Lifecycle histories.** In every reachable registry the history of a model is a path of allowed
    steps and rollbacks from its registration to its state, each with an actor and a reason; its rows
    and its events are those of the history, entry by entry and tenant by tenant; and a model that
    was ever approved or in use was approved on a stored report that passed it with its artifact. -/
theorem lifecycle_history {r : Registry} (hr : r.Reachable) {v : String} {m : ModelManifest}
    (hm : r.modelVersions v = some m) :
    LifecyclePath m.lifecycleHistory m.state ∧
    r.transitionsOf v = m.lifecycleHistory ∧
    r.changesOf v = m.lifecycleHistory.flatMap m.changes ∧
    ((∃ entry ∈ m.lifecycleHistory, entry.toState ∈
        [LifecycleState.approved, .shadow, .canary, .production]) →
      ∃ entry ∈ m.lifecycleHistory, entry.fromState = some .evaluating ∧
        entry.toState = .approved ∧
        ∃ id, entry.evaluationId = some id ∧ r.Evidence m id) := by
  obtain ⟨hkeyed, hinv⟩ := hr.of_moves HistoryInv.empty fun _ _ hkeyed h hmove => h.move hkeyed hmove
  obtain rfl : m.version = v := (hkeyed v m hm).1
  have hmodel := hinv.models _ m hm
  refine ⟨hmodel.path, hmodel.rows, hmodel.events, ?_⟩
  rintro ⟨entry, hentry, hused⟩
  refine hmodel.evidenced ⟨entry, hentry, ?_⟩
  simpa [LifecycleState.approvedUse, or_assoc] using hused

open SupportModels in
theorem released_v1_history :
    ∃ m, released.modelVersions "v1" = some m ∧ m.state = .production ∧
      LifecyclePath m.lifecycleHistory m.state := by
  obtain ⟨m, hm, hstate⟩ : ∃ m, released.modelVersions "v1" = some m ∧ m.state = .production := by
    have h : (released.modelVersions "v1").any (fun m => m.state = .production) = true := by
      decide +kernel
    simpa [Option.any_eq_true] using h
  exact ⟨m, hm, hstate, (lifecycle_history released_reachable hm).1⟩

end AdaptiveLlm
