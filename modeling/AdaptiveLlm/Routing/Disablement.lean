import AdaptiveLlm.Routing.Control
import AdaptiveLlm.Lib.LastWrite
import Mathlib.Data.List.Dedup

set_option autoImplicit false

/-! # Last-writer semantics of disablement

The switches, the automatic disablements and the activations all rewrite the one row of
`route_policy_active`. Seen as a register file over the scopes a switch can name, a call writes its
own scope or nothing, so after any run a scope is disabled as its last writer left it.

Which scopes a call writes is read off its arguments and the row it meets: an operator's switch
writes the one scope it names, an automatic disablement that has an effect the version it is about,
and an activation nothing, as it keeps the disabled scopes of the row. Then the last-write rule of
`Lib/LastWrite.lean` gives the result for any run, with no reasoning about single calls left. -/

namespace AdaptiveLlm

namespace RouteControl

open LastWrite (last apply along)

/-- What a switch disables or enables. -/
inductive Scope where
  | environment
  | tenant (id : String)
  | task (id : String)
  | specialist (version : String)
  deriving DecidableEq, Repr

/-- The scope a note names. -/
def scopeOf (note : RouteControlNote) : Scope :=
  match note.tenantId, note.task, note.specialistVersion with
  | some tenant, _, _ => .tenant tenant
  | none, some task, _ => .task task
  | none, none, some version => .specialist version
  | none, none, none => .environment

/-- The stored disablements, scope by scope. -/
def ActiveRow.disabled (row : ActiveRow) : Scope → Bool
  | .environment => row.killSwitch
  | .tenant id => id ∈ row.disabledTenants
  | .task id => id ∈ row.disabledTasks
  | .specialist version => version ∈ row.disabledSpecialists

/-- What is disabled, by the row that is in force. -/
def ControlState.disabled (s : ControlState) : Scope → Bool := s.pointer.disabled

/-! ## Calls -/

namespace ControlState

variable (cfg : ControlSettings)

/-- One call: its transaction commits, or is rolled back when it raises. -/
def serve (s : ControlState) (call : ControlServices × ControlCall) : ControlState :=
  match call.2.transact cfg call.1 s with
  | .ok (_, s') => s'
  | .error _ => s

/-- What a call that commits disables or enables: an operator's switch its scope, an effective
    automatic disablement its version. -/
def writes (s : ControlState) (call : ControlServices × ControlCall) : List (Scope × Bool) :=
  match call.2, call.2.transact cfg call.1 s with
  | .switch disabled _ note, .ok _ => [(scopeOf note, disabled)]
  | .automaticDisable _ version _ _, .ok (.invalidate, _) => [(.specialist version, true)]
  | _, _ => []

end ControlState

/-! ## What each operation does to the row -/

theorem check_eq_ok {c : Bool} {e : ControlError} {u : Unit} : check c e = .ok u ↔ c = true := by
  cases c <;> simp [check]

theorem mem_updateValues (disabled : Bool) (value v : String) (values : List String) :
    v ∈ ControlState.updateValues disabled value values ↔
      if v = value then disabled = true else v ∈ values := by
  unfold ControlState.updateValues
  simp only [List.mem_insertionSort]
  cases disabled with
  | true =>
    by_cases hmem : value ∈ values.dedup
    · rw [if_pos rfl, if_pos hmem, List.mem_dedup]
      by_cases hv : v = value
      · subst hv
        simpa using hmem
      · rw [if_neg hv]
    · rw [if_pos rfl, if_neg hmem, List.mem_cons, List.mem_dedup]
      by_cases hv : v = value <;> simp [hv]
  | false =>
    by_cases hv : v = value <;> simp [hv]

/-- An update of one column is a write of one scope. -/
theorem eq_update_of_column {f g : Scope → Bool} {column : String → Scope} {values : List String}
    {disabled : Bool} {value : String} (hinj : Function.Injective column)
    (hf : ∀ v, f (column v) = decide (v ∈ values))
    (hg : ∀ v, g (column v) = decide (v ∈ ControlState.updateValues disabled value values))
    (hother : ∀ scope, (∀ v, scope ≠ column v) → g scope = f scope) :
    g = Function.update f (column value) disabled := by
  funext scope
  by_cases hscope : ∃ v, scope = column v
  · obtain ⟨v, rfl⟩ := hscope
    rw [hg, Function.update_apply, hf]
    by_cases hv : v = value
    · subst hv
      simp [mem_updateValues]
    · rw [if_neg fun h => hv (hinj h)]
      simp [mem_updateValues, hv]
  · push Not at hscope
    rw [hother scope hscope, Function.update_of_ne (hscope value)]

theorem ActiveRow.disabled_tenants (row : ActiveRow) (disabled : Bool) (id : String) :
    { row with disabledTenants :=
        ControlState.updateValues disabled id row.disabledTenants }.disabled =
      Function.update row.disabled (.tenant id) disabled := by
  refine eq_update_of_column (fun _ _ => Scope.tenant.inj) (fun _ => rfl) (fun _ => rfl)
    fun scope hscope => ?_
  cases scope with
  | tenant id => exact absurd rfl (hscope id)
  | _ => rfl

theorem ActiveRow.disabled_tasks (row : ActiveRow) (disabled : Bool) (id : String) :
    { row with disabledTasks :=
        ControlState.updateValues disabled id row.disabledTasks }.disabled =
      Function.update row.disabled (.task id) disabled := by
  refine eq_update_of_column (fun _ _ => Scope.task.inj) (fun _ => rfl) (fun _ => rfl)
    fun scope hscope => ?_
  cases scope with
  | task id => exact absurd rfl (hscope id)
  | _ => rfl

theorem ActiveRow.disabled_specialists (row : ActiveRow) (disabled : Bool) (version : String) :
    { row with disabledSpecialists :=
        ControlState.updateValues disabled version row.disabledSpecialists }.disabled =
      Function.update row.disabled (.specialist version) disabled := by
  refine eq_update_of_column (fun _ _ => Scope.specialist.inj) (fun _ => rfl) (fun _ => rfl)
    fun scope hscope => ?_
  cases scope with
  | specialist version => exact absurd rfl (hscope version)
  | _ => rfl

theorem ActiveRow.disabled_environment (row : ActiveRow) (disabled : Bool) :
    { row with killSwitch := disabled }.disabled =
      Function.update row.disabled .environment disabled := by
  funext scope
  cases scope <;> rfl

namespace ControlState

variable {cfg : ControlSettings} {sv : ControlServices} {s s' : ControlState}

theorem audit_active {identity : ControlIdentity} {note : RouteControlNote}
    {policyId : Option String} {action : String} {state : RouteState}
    (h : s.audit cfg sv identity note policyId action state = .ok s') : s'.active = s.active := by
  unfold audit at h
  cases hactor : identity.subjectIdPseudonymous with
  | none =>
    rw [hactor] at h
    cases h
  | some actor =>
    rw [hactor] at h
    cases h
    rfl

theorem switchColumn_eq_ok {disabled : Bool} {value : String} {values values' : List String}
    (h : switchColumn disabled value values = .ok values') :
    values' = updateValues disabled value values := by
  obtain ⟨_, _, h⟩ := Except.bind_eq_ok.1 h
  cases h
  rfl

theorem switchRow_disabled {row row' : ActiveRow} {disabled : Bool} {note : RouteControlNote}
    (h : switchRow row disabled note = .ok row') :
    row'.disabled = Function.update row.disabled (scopeOf note) disabled := by
  unfold switchRow at h
  unfold scopeOf
  cases htenant : note.tenantId with
  | some tenant =>
    simp only [htenant] at h ⊢
    obtain ⟨values, hvalues, h⟩ := Except.bind_eq_ok.1 h
    cases h
    rw [switchColumn_eq_ok hvalues, row.disabled_tenants]
  | none =>
    cases htask : note.task with
    | some task =>
      simp only [htenant, htask] at h ⊢
      obtain ⟨values, hvalues, h⟩ := Except.bind_eq_ok.1 h
      cases h
      rw [switchColumn_eq_ok hvalues, row.disabled_tasks]
    | none =>
      cases hversion : note.specialistVersion with
      | some version =>
        simp only [htenant, htask, hversion] at h ⊢
        obtain ⟨values, hvalues, h⟩ := Except.bind_eq_ok.1 h
        cases h
        rw [switchColumn_eq_ok hvalues, row.disabled_specialists]
      | none =>
        simp only [htenant, htask, hversion] at h ⊢
        cases h
        exact row.disabled_environment disabled

/-! ## Step and run

Each operation changes the disabled scopes by the writes read off it, and a failed one by none. The
rest is the rule of registers. -/

theorem create_disabled {policy : LivePolicy} {identity : ControlIdentity}
    (h : s.create cfg sv policy identity = .ok s') : s'.disabled = s.disabled := by
  obtain ⟨_, _, h⟩ := Except.bind_eq_ok.1 h
  obtain ⟨_, _, h⟩ := Except.bind_eq_ok.1 h
  cases h
  rfl

theorem activate_disabled {policyId : String} {identity : ControlIdentity} {note : RouteControlNote}
    (h : s.activate cfg sv policyId identity note = .ok s') : s'.disabled = s.disabled := by
  obtain ⟨_, _, h⟩ := Except.bind_eq_ok.1 h
  obtain ⟨_, _, h⟩ := Except.bind_eq_ok.1 h
  obtain ⟨policy, _, h⟩ := Except.bind_eq_ok.1 h
  obtain ⟨_, _, h⟩ := Except.bind_eq_ok.1 h
  have hactive : s'.active = some { s.pointer with policyId := some policyId } := audit_active h
  funext scope
  rw [disabled, disabled, pointer, hactive]
  cases scope <;> rfl

theorem switch_disabled {d : Bool} {identity : ControlIdentity} {note : RouteControlNote}
    (h : s.switch cfg sv d identity note = .ok s') :
    s'.disabled = Function.update s.disabled (scopeOf note) d := by
  obtain ⟨_, _, h⟩ := Except.bind_eq_ok.1 h
  obtain ⟨_, _, h⟩ := Except.bind_eq_ok.1 h
  obtain ⟨row, hrow, h⟩ := Except.bind_eq_ok.1 h
  have hactive : s'.active = some row := audit_active h
  rw [disabled, pointer, hactive]
  exact switchRow_disabled hrow

/-- An automatic disablement that returns early writes nothing, one that does not writes its
    version, which was enabled, and records the measurement. -/
theorem automaticDisable_cases {policyId version : String} {breachReasons : List String}
    {identity : ControlIdentity} {effective : Bool}
    (h : s.automaticDisable cfg sv policyId version breachReasons identity = .ok (effective, s')) :
    (effective = false ∧ s' = s) ∨
      (effective = true ∧ s.disabled (.specialist version) = false ∧
        s'.disabled = Function.update s.disabled (.specialist version) true) := by
  unfold automaticDisable at h
  cases hrow : s.active with
  | none =>
    rw [hrow] at h
    cases h
    exact .inl ⟨rfl, rfl⟩
  | some row =>
    simp only [hrow] at h
    split at h
    · cases h
      exact .inl ⟨rfl, rfl⟩
    · next hguard =>
      obtain ⟨model, _, h⟩ := Except.bind_eq_ok.1 h
      split at h
      · cases h
        exact .inl ⟨rfl, rfl⟩
      · obtain ⟨note, _, h⟩ := Except.bind_eq_ok.1 h
        obtain ⟨s₁, haudit, h⟩ := Except.bind_eq_ok.1 h
        cases h
        have hpointer : s.pointer = row := by rw [pointer, hrow]; rfl
        have hactive := audit_active haudit
        refine .inr ⟨rfl, ?_, ?_⟩
        · rw [disabled, hpointer]
          exact decide_eq_false fun hmem => hguard (.inr (.inr hmem))
        · rw [disabled, disabled, hpointer, pointer, hactive]
          exact row.disabled_specialists true version

/-- A call writes what `writes` says, and no other scope. -/
theorem serve_disabled (cfg : ControlSettings) (s : ControlState)
    (call : ControlServices × ControlCall) :
    (s.serve cfg call).disabled = apply s.disabled (s.writes cfg call) := by
  obtain ⟨sv, call⟩ := call
  unfold serve writes
  cases h : call.transact cfg sv s with
  | error e => cases call <;> rfl
  | ok r =>
    cases call with
    | create policy identity =>
      obtain ⟨s', hcreate, rfl⟩ := Except.map_eq_ok.1 h
      exact create_disabled hcreate
    | activate policyId identity note =>
      obtain ⟨s', hactivate, rfl⟩ := Except.map_eq_ok.1 h
      exact activate_disabled hactivate
    | switch d identity note =>
      obtain ⟨s', hswitch, rfl⟩ := Except.map_eq_ok.1 h
      exact switch_disabled hswitch
    | automaticDisable policyId version breachReasons identity =>
      obtain ⟨⟨effective, s'⟩, hdisable, rfl⟩ := Except.map_eq_ok.1 h
      obtain ⟨rfl, rfl⟩ | ⟨rfl, _, hdisabled⟩ := automaticDisable_cases hdisable
      · rfl
      · exact hdisabled

/-- **Disablement follows its last writer.** After any run of calls a scope is disabled exactly when
    the last call that committed a write of it disabled it, the last of the operators' switches and
    of the effective automatic disablements, or when none did and it was disabled at the start. In
    the fresh store nothing is. To create or to activate a policy, with whatever outcome, leaves
    every scope as it is. -/
theorem disabled_iff_last_write (cfg : ControlSettings) (s : ControlState)
    (calls : List (ControlServices × ControlCall)) :
    (∀ scope, (calls.foldl (serve cfg) s).disabled scope =
      (last (along (serve cfg) (writes cfg) s calls) scope).getD (s.disabled scope)) ∧
    (∀ scope, ({} : ControlState).disabled scope = false) ∧
    (∀ sv policy identity, (s.serve cfg (sv, .create policy identity)).disabled = s.disabled) ∧
    (∀ sv policyId identity note,
      (s.serve cfg (sv, .activate policyId identity note)).disabled = s.disabled) := by
  refine ⟨fun scope => ?_, fun scope => ?_, fun sv policy identity => ?_,
    fun sv policyId identity note => ?_⟩
  · rw [LastWrite.view_foldl (serve_disabled cfg), LastWrite.apply_eq_last]
  · cases scope <;> rfl
  · exact serve_disabled cfg s (sv, .create policy identity)
  · exact serve_disabled cfg s (sv, .activate policyId identity note)

end ControlState

end RouteControl

end AdaptiveLlm
