import AdaptiveLlm.Routing.Disablement

set_option autoImplicit false

/-! # The bound on disablements

`switch` refuses a set of more than a hundred values, and checks the set it would leave whether it adds
a value or removes one. `automatic_disable` adds to the set of specialists without the check, so this
set alone can outgrow the bound, and then a switch that shrinks it is refused as well.

The sizes of the sets are followed through a run. A switch that disables keeps the bound by its own
check. An automatic disablement does not, and a run of them can lead beyond it. From such a row on,
a switch that takes a value away is refused as long as the set it would leave is over the bound,
which the theorem states as a condition on the set before the call. -/

namespace AdaptiveLlm

namespace RouteControl

/-- The set a scope's value is in. -/
def ActiveRow.column (row : ActiveRow) : Scope → List String
  | .environment => []
  | .tenant _ => row.disabledTenants
  | .task _ => row.disabledTasks
  | .specialist _ => row.disabledSpecialists

/-- The row with another set in its place. -/
def ActiveRow.withColumn (row : ActiveRow) (values : List String) : Scope → ActiveRow
  | .environment => row
  | .tenant _ => { row with disabledTenants := values }
  | .task _ => { row with disabledTasks := values }
  | .specialist _ => { row with disabledSpecialists := values }

/-- What a scope names, nothing for the whole environment. -/
def Scope.value : Scope → String
  | .environment => ""
  | .tenant id => id
  | .task id => id
  | .specialist version => version

/-- The tenants a switch asks grants for. -/
def switchTenants (cfg : ControlSettings) (note : RouteControlNote) : List String :=
  match note.tenantId with
  | some tenant => [tenant]
  | none => cfg.tenants

namespace ControlState

/-- The values of the scope's set, but for one that the switch is to enable. -/
def others (s : ControlState) (disabled : Bool) (scope : Scope) : List String :=
  (s.pointer.column scope).filter fun v => disabled || v ≠ scope.value

/-- The switch disables a value that is enabled. -/
def Adds (s : ControlState) (disabled : Bool) (scope : Scope) : Prop :=
  disabled = true ∧ s.disabled scope = false

/-- Size refuses no switch but one that adds a value: to enable a disabled value works and enables
    this one alone, and the limit is met by switches that add one. -/
structure SizeRefusesAdding (cfg : ControlSettings) (sv : ControlServices) (s : ControlState)
    (disabled : Bool) (identity : ControlIdentity) (note : RouteControlNote) : Prop where
  enables : disabled = false → s.disabled (scopeOf note) = true →
    ∃ s', s.switch cfg sv false identity note = .ok s' ∧
      s'.disabled = Function.update s.disabled (scopeOf note) false
  limit : s.switch cfg sv disabled identity note = .error .disablementLimit →
    s.Adds disabled (scopeOf note)

/-! ## Sizes in a run -/

/-- What bounds the sets: the operators' two are checked, no set has a value twice, and only
    configured tenants are disabled. -/
structure SizeInv (cfg : ControlSettings) (s : ControlState) : Prop where
  tenants : s.pointer.disabledTenants.length ≤ 100
  tasks : s.pointer.disabledTasks.length ≤ 100
  nodup : ∀ scope, (s.pointer.column scope).Nodup
  known : ∀ tenant ∈ s.pointer.disabledTenants, tenant ∈ cfg.tenants

theorem nodup_updateValues (disabled : Bool) (value : String) (values : List String) :
    (updateValues disabled value values).Nodup := by
  unfold updateValues
  refine (List.perm_insertionSort _ _).nodup_iff.2 ?_
  have hdedup := List.nodup_dedup values
  cases disabled with
  | true =>
    by_cases hmem : value ∈ values.dedup
    · simpa [hmem] using hdedup
    · simpa [hmem] using hdedup
  | false => simpa using hdedup.filter _

/-- What an update leaves: the other values, and the one it adds. -/
theorem length_updateValues (disabled : Bool) (value : String) {values : List String}
    (hnodup : values.Nodup) :
    (updateValues disabled value values).length =
      (values.filter fun v => disabled || v ≠ value).length +
        if disabled = true ∧ value ∉ values then 1 else 0 := by
  unfold updateValues
  rw [List.length_insertionSort, hnodup.dedup]
  cases disabled with
  | true => by_cases hmem : value ∈ values <;> simp [hmem]
  | false => simp

section Switch

variable {cfg : ControlSettings} {sv : ControlServices} {s s' : ControlState}

theorem switchColumn_cases (disabled : Bool) (value : String) (values : List String) :
    switchColumn disabled value values = .ok (updateValues disabled value values) ∧
        (updateValues disabled value values).length ≤ 100 ∨
      switchColumn disabled value values = .error .disablementLimit ∧
        100 < (updateValues disabled value values).length := by
  unfold switchColumn check
  dsimp only
  by_cases hle : (updateValues disabled value values).length ≤ 100
  · refine .inl ⟨?_, hle⟩
    rw [if_pos (decide_eq_true hle)]
    rfl
  · refine .inr ⟨?_, Nat.lt_of_not_le hle⟩
    rw [if_neg (by simpa using hle)]
    rfl

/-- A switch of a set is an update of it under the bound. -/
theorem switchRow_of_column (row : ActiveRow) (disabled : Bool) {note : RouteControlNote}
    (hscope : scopeOf note ≠ .environment) :
    switchRow row disabled note =
      (switchColumn disabled (scopeOf note).value (row.column (scopeOf note))).map
        fun values => row.withColumn values (scopeOf note) := by
  unfold switchRow
  unfold scopeOf at hscope ⊢
  cases htenant : note.tenantId with
  | some tenant =>
    simp only [Scope.value, ActiveRow.column]
    cases switchColumn disabled tenant row.disabledTenants <;> rfl
  | none =>
    cases htask : note.task with
    | some task =>
      simp only [Scope.value, ActiveRow.column]
      cases switchColumn disabled task row.disabledTasks <;> rfl
    | none =>
      cases hversion : note.specialistVersion with
      | some version =>
        simp only [Scope.value, ActiveRow.column]
        cases switchColumn disabled version row.disabledSpecialists <;> rfl
      | none =>
        rw [htenant, htask, hversion] at hscope
        exact absurd rfl hscope

theorem switchRow_environment (row : ActiveRow) (disabled : Bool) {note : RouteControlNote}
    (hscope : scopeOf note = .environment) :
    switchRow row disabled note = .ok { row with killSwitch := disabled } := by
  unfold scopeOf at hscope
  unfold switchRow
  cases htenant : note.tenantId with
  | some tenant =>
    rw [htenant] at hscope
    cases hscope
  | none =>
    cases htask : note.task with
    | some task =>
      rw [htenant, htask] at hscope
      cases hscope
    | none =>
      cases hversion : note.specialistVersion with
      | some version =>
        rw [htenant, htask, hversion] at hscope
        cases hscope
      | none => rfl

/-- The audit of an authorized caller is written. -/
theorem audit_of_authorize {identity : ControlIdentity} {tenants : List String} {u : Unit}
    (hauth : authorize cfg identity tenants = .ok u) (note : RouteControlNote)
    (policyId : Option String) (action : String) (state : RouteState) :
    ∃ s', s.audit cfg sv identity note policyId action state = .ok s' := by
  obtain ⟨_, _, hauth⟩ := Except.bind_eq_ok.1 hauth
  obtain ⟨_, _, hauth⟩ := Except.bind_eq_ok.1 hauth
  have hsubject := check_eq_ok.1 hauth
  simp only [Bool.and_eq_true] at hsubject
  obtain ⟨actor, hactor⟩ := Option.isSome_iff_exists.1 hsubject.2
  unfold audit
  rw [hactor]
  exact ⟨_, rfl⟩

/-- A switch of an authorized caller ends as its row does. -/
theorem switch_of_authorize {d : Bool} {identity : ControlIdentity} {note : RouteControlNote}
    {u : Unit} (hauth : authorize cfg identity (switchTenants cfg note) = .ok u)
    (hknown : ∀ tenant ∈ note.tenantId, tenant ∈ cfg.tenants) :
    (∃ row s', switchRow s.pointer d note = .ok row ∧ s.switch cfg sv d identity note = .ok s') ∨
      ∃ e, switchRow s.pointer d note = .error e ∧ s.switch cfg sv d identity note = .error e := by
  have hcheck : check (note.tenantId.all (· ∈ cfg.tenants)) .routeTenantUnavailable = .ok () := by
    rw [check_eq_ok]
    cases htenant : note.tenantId with
    | none => rfl
    | some tenant => simpa using hknown tenant htenant
  have hswitch : s.switch cfg sv d identity note = (do
      let row ← switchRow s.pointer d note
      { s with active := some row }.audit cfg sv identity note row.policyId
        (if d then "disable" else "enable") (if d then .disabled else .enabled)) := by
    show (authorize cfg identity (switchTenants cfg note) >>= fun _ => _) = _
    rw [hauth, Except.ok_bind, hcheck, Except.ok_bind]
  rw [hswitch]
  cases hrow : switchRow s.pointer d note with
  | error e => exact .inr ⟨e, rfl, rfl⟩
  | ok row =>
    obtain ⟨s', hs'⟩ := @audit_of_authorize cfg sv { s with active := some row } _ _ _ hauth note
      row.policyId (if d then "disable" else "enable") (if d then .disabled else .enabled)
    exact .inl ⟨row, s', rfl, hs'⟩

/-! ### Step and run -/

/-- What a call does to the sets: nothing, or an update of one, under the bound but for the
    specialists. -/
inductive ColumnStep (cfg : ControlSettings) (row row' : ActiveRow) : Prop
  | same (columns : ∀ scope, row'.column scope = row.column scope)
  | update (disabled : Bool) (scope : Scope)
      (columns : ∀ scope', row'.column scope' =
        (row.withColumn (updateValues disabled scope.value (row.column scope)) scope).column scope')
      (size : (∀ version, scope ≠ .specialist version) →
        (updateValues disabled scope.value (row.column scope)).length ≤ 100)
      (known : ∀ tenant, scope = .tenant tenant → tenant ∈ cfg.tenants)

theorem switchRow_columnStep {row row' : ActiveRow} {disabled : Bool} {note : RouteControlNote}
    (hknown : ∀ tenant ∈ note.tenantId, tenant ∈ cfg.tenants)
    (h : switchRow row disabled note = .ok row') : ColumnStep cfg row row' := by
  by_cases hscope : scopeOf note = .environment
  · rw [switchRow_environment row disabled hscope] at h
    cases h
    exact .same fun scope => by cases scope <;> rfl
  · rw [switchRow_of_column row disabled hscope] at h
    obtain ⟨values, hvalues, rfl⟩ := Except.map_eq_ok.1 h
    rcases switchColumn_cases disabled (scopeOf note).value (row.column (scopeOf note)) with
      ⟨hok, hle⟩ | ⟨herror, _⟩
    · obtain rfl := Except.ok.inj (hok.symm.trans hvalues)
      refine .update disabled (scopeOf note) (fun _ => rfl) (fun _ => hle) fun tenant htenant => ?_
      refine hknown tenant ?_
      unfold scopeOf at htenant
      split at htenant
      · next hnote =>
        cases htenant
        exact hnote
      all_goals cases htenant
    · exact absurd (herror.symm.trans hvalues) (by simp)

theorem automaticDisable_columnStep {policyId version : String} {breachReasons : List String}
    {identity : ControlIdentity} {effective : Bool}
    (h : s.automaticDisable cfg sv policyId version breachReasons identity = .ok (effective, s')) :
    ColumnStep cfg s.pointer s'.pointer := by
  unfold automaticDisable at h
  cases hrow : s.active with
  | none =>
    rw [hrow] at h
    cases h
    exact .same fun _ => rfl
  | some row =>
    simp only [hrow] at h
    split at h
    · cases h
      exact .same fun _ => rfl
    obtain ⟨model, _, h⟩ := Except.bind_eq_ok.1 h
    split at h
    · cases h
      exact .same fun _ => rfl
    obtain ⟨note, _, h⟩ := Except.bind_eq_ok.1 h
    obtain ⟨s₁, haudit, h⟩ := Except.bind_eq_ok.1 h
    cases h
    have hpointer : s.pointer = row := by rw [pointer, hrow]; rfl
    have hpointer' : s'.pointer = { row with
        disabledSpecialists := updateValues true version row.disabledSpecialists } := by
      rw [pointer, audit_active haudit]
      rfl
    rw [hpointer, hpointer']
    exact .update true (.specialist version) (fun scope => by cases scope <;> rfl)
      (fun hne => absurd rfl (hne version)) fun tenant htenant => by cases htenant

theorem serve_columnStep (cfg : ControlSettings) (s : ControlState)
    (call : ControlServices × ControlCall) : ColumnStep cfg s.pointer (s.serve cfg call).pointer := by
  obtain ⟨sv, call⟩ := call
  unfold serve
  cases h : call.transact cfg sv s with
  | error e => exact .same fun _ => rfl
  | ok r =>
    cases call with
    | create policy identity =>
      obtain ⟨s', hcreate, rfl⟩ := Except.map_eq_ok.1 h
      obtain ⟨_, _, hcreate⟩ := Except.bind_eq_ok.1 hcreate
      obtain ⟨_, _, hcreate⟩ := Except.bind_eq_ok.1 hcreate
      cases hcreate
      exact .same fun _ => rfl
    | activate policyId identity note =>
      obtain ⟨s', hactivate, rfl⟩ := Except.map_eq_ok.1 h
      obtain ⟨_, _, hactivate⟩ := Except.bind_eq_ok.1 hactivate
      obtain ⟨_, _, hactivate⟩ := Except.bind_eq_ok.1 hactivate
      obtain ⟨policy, _, hactivate⟩ := Except.bind_eq_ok.1 hactivate
      obtain ⟨_, _, hactivate⟩ := Except.bind_eq_ok.1 hactivate
      have hactive : s'.active = some { s.pointer with policyId := some policyId } :=
        audit_active hactivate
      refine .same fun scope => ?_
      rw [show s'.pointer = { s.pointer with policyId := some policyId } by rw [pointer, hactive]; rfl]
      cases scope <;> rfl
    | switch d identity note =>
      obtain ⟨s', hswitch, rfl⟩ := Except.map_eq_ok.1 h
      obtain ⟨_, _, hswitch⟩ := Except.bind_eq_ok.1 hswitch
      obtain ⟨_, hknown, hswitch⟩ := Except.bind_eq_ok.1 hswitch
      obtain ⟨row, hrow, hswitch⟩ := Except.bind_eq_ok.1 hswitch
      have hactive : s'.active = some row := audit_active hswitch
      rw [show s'.pointer = row by rw [pointer, hactive]; rfl]
      refine switchRow_columnStep (fun tenant htenant => ?_) hrow
      rw [check_eq_ok, Option.mem_def.1 htenant] at hknown
      simpa using hknown
    | automaticDisable policyId version breachReasons identity =>
      obtain ⟨⟨effective, s'⟩, hdisable, rfl⟩ := Except.map_eq_ok.1 h
      exact automaticDisable_columnStep hdisable

/-- The invariant says all it says through the sets. -/
theorem SizeInv.step (h : SizeInv cfg s) (hstep : ColumnStep cfg s.pointer s'.pointer) :
    SizeInv cfg s' := by
  have htenants : ∀ row : ActiveRow, row.disabledTenants = row.column (.tenant "") := fun _ => rfl
  have htasks : ∀ row : ActiveRow, row.disabledTasks = row.column (.task "") := fun _ => rfl
  cases hstep with
  | same columns =>
    refine ⟨?_, ?_, fun scope => columns scope ▸ h.nodup scope, ?_⟩
    · rw [htenants, columns]
      exact h.tenants
    · rw [htasks, columns]
      exact h.tasks
    · rw [htenants, columns]
      exact h.known
  | update disabled scope columns size known =>
    refine ⟨?_, ?_, fun scope' => ?_, ?_⟩
    · rw [htenants, columns]
      cases scope with
      | tenant id => exact size fun version hne => by cases hne
      | _ => exact h.tenants
    · rw [htasks, columns]
      cases scope with
      | task id => exact size fun version hne => by cases hne
      | _ => exact h.tasks
    · rw [columns]
      cases scope <;> cases scope' <;>
        first | exact nodup_updateValues .. | exact h.nodup (.tenant "") | exact h.nodup (.task "")
              | exact h.nodup (.specialist "") | exact List.nodup_nil
    · rw [htenants, columns]
      cases scope with
      | tenant id =>
        intro tenant htenant
        rw [ActiveRow.withColumn, ActiveRow.column, mem_updateValues] at htenant
        split at htenant
        · next heq =>
          subst heq
          exact known tenant rfl
        · exact h.known tenant htenant
      | _ => exact h.known

theorem SizeInv.run (cfg : ControlSettings) (calls : List (ControlServices × ControlCall)) :
    SizeInv cfg (calls.foldl (serve cfg) {}) := by
  have hinit : SizeInv cfg {} :=
    ⟨Nat.zero_le _, Nat.zero_le _, fun scope => by cases scope <;> exact List.nodup_nil, by
      intro tenant htenant
      cases htenant⟩
  induction calls using List.reverseRecOn with
  | nil => exact hinit
  | append_singleton calls call ih =>
    rw [List.foldl_append]
    exact ih.step (serve_columnStep cfg _ call)

/-! ## The bound

For one call the condition is about the set before it: with at most a hundred values besides the one
to enable, size refuses no switch that takes away. -/

theorem disabled_of_column (s : ControlState) {scope : Scope} (hscope : scope ≠ .environment) :
    s.disabled scope = decide (scope.value ∈ s.pointer.column scope) := by
  cases scope with
  | environment => exact absurd rfl hscope
  | _ => rfl

/-- **A switch is refused for size, or adds nothing.** In every run, size refuses none of an
    operator's switches but those that add a value, exactly as long as the set has a hundred values at
    most besides the one to enable. -/
theorem sizeRefusesAdding_iff (cfg : ControlSettings) (calls : List (ControlServices × ControlCall))
    {sv : ControlServices} {d : Bool} {identity : ControlIdentity} {note : RouteControlNote}
    (hauth : authorize cfg identity (switchTenants cfg note) = .ok ()) :
    SizeRefusesAdding cfg sv (calls.foldl (serve cfg) {}) d identity note ↔
      (calls.foldl (serve cfg) {}).Adds d (scopeOf note) ∨
        ((calls.foldl (serve cfg) {}).others d (scopeOf note)).length ≤ 100 := by
  have hinv := SizeInv.run cfg calls
  generalize calls.foldl (serve cfg) {} = s at hinv ⊢
  by_cases hknown : ∀ tenant ∈ note.tenantId, tenant ∈ cfg.tenants
  swap
  · -- a tenant that is not configured is refused before its set is read, and is not disabled
    push Not at hknown
    obtain ⟨tenant, htenant, hnew⟩ := hknown
    have hscope : scopeOf note = .tenant tenant := by rw [scopeOf, Option.mem_def.1 htenant]
    have hrefused : s.switch cfg sv d identity note = .error .routeTenantUnavailable := by
      show (authorize cfg identity (switchTenants cfg note) >>= fun _ => _) = _
      rw [hauth, Except.ok_bind, Option.mem_def.1 htenant]
      simp only [Option.all_some, hnew, decide_false]
      rfl
    have henabled : s.disabled (scopeOf note) = false := by
      rw [hscope]
      exact decide_eq_false fun hmem => hnew (hinv.known tenant hmem)
    refine iff_of_true ⟨fun _ hdisabled => ?_, fun hlimit => ?_⟩ (.inr ?_)
    · rw [henabled] at hdisabled
      cases hdisabled
    · rw [hrefused] at hlimit
      cases hlimit
    · rw [others, hscope]
      exact (List.length_filter_le ..).trans hinv.tenants
  rcases @switch_of_authorize cfg sv s d _ _ _ hauth hknown with
    ⟨row, s', hrow, hswitch⟩ | ⟨e, hrow, hswitch⟩
  · have hholds : SizeRefusesAdding cfg sv s d identity note := by
      refine ⟨?_, fun hlimit => ?_⟩
      · rintro rfl -
        exact ⟨s', hswitch, switch_disabled hswitch⟩
      · rw [hswitch] at hlimit
        cases hlimit
    refine iff_of_true hholds (.inr ?_)
    by_cases hscope : scopeOf note = .environment
    · rw [others, hscope]
      exact Nat.zero_le _
    · rw [switchRow_of_column _ _ hscope] at hrow
      rcases switchColumn_cases d (scopeOf note).value (s.pointer.column (scopeOf note)) with
        ⟨_, hle⟩ | ⟨herror, _⟩
      · rw [length_updateValues _ _ (hinv.nodup _)] at hle
        exact (Nat.le_add_right ..).trans hle
      · rw [herror] at hrow
        cases hrow
  · -- the row is refused: that is the limit, for more than a hundred values
    have hscope : scopeOf note ≠ .environment := by
      intro hscope
      rw [switchRow_environment _ _ hscope] at hrow
      cases hrow
    rw [switchRow_of_column _ _ hscope] at hrow
    rcases switchColumn_cases d (scopeOf note).value (s.pointer.column (scopeOf note)) with
      ⟨hok, _⟩ | ⟨herror, hlt⟩
    · rw [hok] at hrow
      cases hrow
    rw [herror] at hrow
    cases hrow
    rw [length_updateValues _ _ (hinv.nodup _)] at hlt
    have hadds : s.Adds d (scopeOf note) ↔
        d = true ∧ (scopeOf note).value ∉ s.pointer.column (scopeOf note) := by
      rw [Adds, s.disabled_of_column hscope, decide_eq_false_iff_not]
    constructor
    · exact fun h => .inl (h.limit hswitch)
    · rintro (h | h)
      · refine ⟨fun hd => ?_, fun _ => h⟩
        rw [h.1] at hd
        cases hd
      · -- without a value to add, what the switch leaves is the other values
        by_cases hadd : s.Adds d (scopeOf note)
        · refine ⟨fun hd => ?_, fun _ => hadd⟩
          rw [hadd.1] at hd
          cases hd
        · rw [if_neg (fun hnew => hadd (hadds.2 hnew))] at hlt
          exact absurd h (Nat.not_le.2 hlt)

end Switch

/-! ### A set over the bound -/

section Overfull

/-- The specialists of the run below: the `k`-th has `k` letters. -/
def specialist (k : ℕ) : String := String.ofList (List.replicate k 'v')

theorem specialist_injective : Function.Injective specialist := by
  intro j k h
  have hlists : List.replicate j 'v' = List.replicate k 'v' := String.ofList_injective h
  simpa using congrArg List.length hlists

/-- One tenant. -/
def overfullSettings : ControlSettings :=
  { environment := "prod", foundationId := "f", tenants := ["t"] }

/-- A registry that serves every model in the canary. -/
def overfullServices : ControlServices where
  model version _ := .ok
    { registryId := "m", version, state := .canary, tenantIds := ["t"], datasets := []
      adapterArchitecture := "qwen", trainingJobId := "j", artifactDigest := "a"
      storageLocation := "l", baseModelId := "b" }
  uid := toString

/-- An operator of the tenant. -/
def overfullOperator : ControlIdentity :=
  { keyClass := .operator, subjectIdPseudonymous := some "op", datasetTenants := ["t"],
    tenantId := "t", environment := "prod" }

/-- A policy with the last two specialists. -/
def overfullPolicy : LivePolicy :=
  { policyId := "p", foundationFallback := "f"
    eligibleSpecialistVersions := [specialist 101, specialist 102]
    unique_specialists := by simp [specialist_injective.eq_iff] }

theorem reason_nonblank : Python.isBlank "r" = false := by decide

theorem reason_length_le : "r".length ≤ 2000 := by decide

theorem one_scope_specialist (version : String) :
    [none, none, some version].countP (·.isSome) ≤ 1 := by simp

theorem one_scope_none : ([none, none, none] : List (Option String)).countP (·.isSome) ≤ 1 := by simp

/-- The note of a switch for a specialist. -/
def specialistNote (version : String) : RouteControlNote :=
  { reason := "r", specialistVersion := some version, nonblank := reason_nonblank
    length_le := reason_length_le, one_scope := one_scope_specialist version }

/-- The note of an activation. -/
def activationNote : RouteControlNote :=
  { reason := "r", nonblank := reason_nonblank, length_le := reason_length_le, one_scope := one_scope_none }

/-- The operator creates the policy and activates it. -/
def overfullStart : List (ControlServices × ControlCall) :=
  [(overfullServices, .create overfullPolicy overfullOperator),
    (overfullServices, .activate "p" overfullOperator activationNote)]

/-- Then the operator disables a hundred specialists of other policies and the monitor the two of this
    one. -/
def overfullCalls : List (ControlServices × ControlCall) :=
  overfullStart ++
  (List.range' 1 100).map (fun k =>
    (overfullServices, .switch true overfullOperator (specialistNote (specialist k)))) ++
  (List.range' 101 2).map fun k =>
    (overfullServices, .automaticDisable "p" (specialist k) ["critical_safety_incident"] overfullOperator)

/-- The policy is active and the first specialists are disabled. -/
structure Overfills (k : ℕ) (s : ControlState) : Prop where
  policy : ∃ row, s.active = some row ∧ row.policyId = some "p"
  disabled : s.pointer.disabledSpecialists.Perm ((List.range' 1 k).map specialist)

theorem Overfills.length {k : ℕ} {s : ControlState} (h : Overfills k s) :
    s.pointer.disabledSpecialists.length = k := by
  simpa using h.disabled.length_eq

theorem Overfills.fresh {k : ℕ} {s : ControlState} (h : Overfills k s) :
    specialist (k + 1) ∉ s.pointer.disabledSpecialists := by
  rw [h.disabled.mem_iff, List.mem_map]
  rintro ⟨j, hj, hname⟩
  obtain rfl := specialist_injective hname
  have hlt := (List.mem_range'_1.1 hj).2
  omega

/-- A value that is added to a set is the set's new element. -/
theorem updateValues_perm {value : String} {values : List String} (hnodup : values.Nodup)
    (hfresh : value ∉ values) : (updateValues true value values).Perm (value :: values) := by
  unfold updateValues
  rw [hnodup.dedup]
  simp only [if_true, if_neg hfresh]
  exact List.perm_insertionSort _ _

theorem overfills_succ {k : ℕ} {s s' : ControlState} {row : ActiveRow} (h : Overfills k s)
    (hactive : s'.active = some { row with
      disabledSpecialists := updateValues true (specialist (k + 1)) row.disabledSpecialists })
    (hrow : s.active = some row) : Overfills (k + 1) s' := by
  have hpointer : s.pointer = row := by rw [pointer, hrow]; rfl
  obtain ⟨row', hrow', hpolicy⟩ := h.policy
  obtain rfl := Option.some.inj (hrow.symm.trans hrow')
  have hperm := h.disabled
  have hfresh := h.fresh
  rw [hpointer] at hperm hfresh
  refine ⟨⟨_, hactive, hpolicy⟩, ?_⟩
  rw [pointer, hactive, Option.getD_some, List.range'_1_concat, List.map_append]
  have hnodup : row.disabledSpecialists.Nodup :=
    hperm.nodup_iff.2 ((List.nodup_range' ..).map specialist_injective)
  refine (updateValues_perm hnodup hfresh).trans ?_
  rw [Nat.add_comm 1 k]
  exact (hperm.cons _).trans (List.perm_append_singleton _ _).symm

/-- Below the bound the operator's switch adds its specialist. -/
theorem Overfills.switch {k : ℕ} {s : ControlState} (h : Overfills k s) (hk : k < 100) :
    Overfills (k + 1) (s.serve overfullSettings
      (overfullServices, .switch true overfullOperator (specialistNote (specialist (k + 1))))) := by
  obtain ⟨row, hrow, _⟩ := h.policy
  have hpointer : s.pointer = row := by rw [pointer, hrow]; rfl
  have hnodup : s.pointer.disabledSpecialists.Nodup :=
    h.disabled.nodup_iff.2 ((List.nodup_range' ..).map specialist_injective)
  have hsize : (updateValues true (specialist (k + 1)) s.pointer.disabledSpecialists).length = k + 1 := by
    rw [(updateValues_perm hnodup h.fresh).length_eq, List.length_cons, h.length]
  have hcolumn : switchColumn true (specialist (k + 1)) s.pointer.disabledSpecialists =
      .ok (updateValues true (specialist (k + 1)) s.pointer.disabledSpecialists) := by
    rcases switchColumn_cases true (specialist (k + 1)) s.pointer.disabledSpecialists with
      ⟨hok, _⟩ | ⟨_, hlt⟩
    · exact hok
    · rw [hsize] at hlt
      omega
  have hswitchRow : switchRow s.pointer true (specialistNote (specialist (k + 1))) =
      .ok (s.pointer.withColumn (updateValues true (specialist (k + 1)) s.pointer.disabledSpecialists)
        (.specialist (specialist (k + 1)))) := by
    show (switchColumn true (specialist (k + 1)) s.pointer.disabledSpecialists >>= fun _ => _) = _
    rw [hcolumn]
    rfl
  have hauth : authorize overfullSettings overfullOperator
      (switchTenants overfullSettings (specialistNote (specialist (k + 1)))) = .ok () := rfl
  rcases @switch_of_authorize overfullSettings overfullServices s true _ _ _ hauth
    (fun tenant htenant => by cases htenant) with ⟨row', s', hrow', hs'⟩ | ⟨e, herror, _⟩
  · have hactive : s'.active = some row' := by
      obtain ⟨_, _, hs'⟩ := Except.bind_eq_ok.1 hs'
      obtain ⟨_, _, hs'⟩ := Except.bind_eq_ok.1 hs'
      obtain ⟨row'', hrow'', hs'⟩ := Except.bind_eq_ok.1 hs'
      obtain rfl := Except.ok.inj (hrow'.symm.trans hrow'')
      exact audit_active hs'
    have hserve : s.serve overfullSettings
        (overfullServices, .switch true overfullOperator (specialistNote (specialist (k + 1)))) = s' := by
      simp only [serve, ControlCall.transact, hs']
      rfl
    rw [hswitchRow] at hrow'
    cases hrow'
    rw [hserve]
    rw [hpointer] at hactive
    exact overfills_succ h hactive hrow
  · rw [hswitchRow] at herror
    cases herror

/-- The monitor adds its specialist whatever the size of the set. -/
theorem Overfills.automaticDisable {k : ℕ} {s : ControlState} (h : Overfills k s) :
    Overfills (k + 1) (s.serve overfullSettings
      (overfullServices, .automaticDisable "p" (specialist (k + 1)) ["critical_safety_incident"]
        overfullOperator)) := by
  obtain ⟨row, hrow, hpolicy⟩ := h.policy
  have hpointer : s.pointer = row := by rw [pointer, hrow]; rfl
  have hfresh := h.fresh
  rw [hpointer] at hfresh
  refine overfills_succ h ?_ hrow
  have hnote : ∃ note, rollbackNote (specialist (k + 1)) ["critical_safety_incident"] = .ok note := by
    unfold rollbackNote
    rw [dif_pos (by decide +kernel)]
    exact ⟨_, rfl⟩
  obtain ⟨note, hnote⟩ := hnote
  unfold serve ControlCall.transact ControlState.automaticDisable
  simp only [hrow]
  rw [if_neg (by simp [hpolicy, hfresh])]
  simp only [overfullServices, Except.ok_bind, hnote]
  rfl

theorem overfills_overfullCalls : Overfills 102 (overfullCalls.foldl (serve overfullSettings) {}) := by
  have hactivated : Overfills 0 (overfullStart.foldl (serve overfullSettings) {}) := by
    have hpolicy : (overfullStart.foldl (serve overfullSettings) {}).active.map (·.policyId) =
        some (some "p") := by decide +kernel
    have hnone : (overfullStart.foldl (serve overfullSettings) {}).pointer.disabledSpecialists = [] := by
      decide +kernel
    refine ⟨?_, hnone ▸ List.Perm.refl []⟩
    simpa only [Option.map_eq_some_iff] using hpolicy
  have hswitched : ∀ n ≤ 100, ∀ s, Overfills 0 s → Overfills n
      (((List.range' 1 n).map fun k => ((overfullServices, .switch true overfullOperator
        (specialistNote (specialist k))) : ControlServices × ControlCall)).foldl
          (serve overfullSettings) s) := by
    intro n
    induction n with
    | zero => exact fun _ s h => h
    | succ n ih =>
      intro hn s h
      rw [List.range'_1_concat, List.map_append, List.foldl_append, Nat.add_comm 1 n]
      exact (ih (Nat.le_of_succ_le hn) s h).switch hn
  unfold overfullCalls
  rw [List.foldl_append, List.foldl_append]
  have hautomatic := (hswitched 100 le_rfl _ hactivated).automaticDisable.automaticDisable
  rw [show List.range' 101 2 = [100 + 1, 100 + 1 + 1] from rfl, List.map_cons, List.map_cons,
    List.map_nil, List.foldl_cons, List.foldl_cons, List.foldl_nil]
  exact hautomatic

end Overfull

/-- A reached state whose set of specialists has 102 values: to enable one of them is refused. -/
theorem switch_overfull :
    ¬ ∀ (cfg : ControlSettings) (calls : List (ControlServices × ControlCall)) (sv : ControlServices)
        (d : Bool) (identity : ControlIdentity) (note : RouteControlNote),
      authorize cfg identity (switchTenants cfg note) = .ok () →
        SizeRefusesAdding cfg sv (calls.foldl (serve cfg) {}) d identity note := by
  intro hclaim
  have hoverfull := overfills_overfullCalls
  have hsize := hclaim overfullSettings overfullCalls overfullServices false overfullOperator
    (specialistNote (specialist 1)) rfl
  generalize overfullCalls.foldl (serve overfullSettings) {} = s at hoverfull hsize
  have hmem : specialist 1 ∈ s.pointer.disabledSpecialists :=
    hoverfull.disabled.mem_iff.2 (List.mem_map_of_mem (List.mem_range'_1.2 ⟨le_rfl, by omega⟩))
  obtain ⟨s', hs', _⟩ := hsize.enables rfl (decide_eq_true hmem)
  have hnodup : s.pointer.disabledSpecialists.Nodup :=
    hoverfull.disabled.nodup_iff.2 ((List.nodup_range' ..).map specialist_injective)
  -- 101 values stay
  have hleft : (updateValues false (specialist 1) s.pointer.disabledSpecialists).length = 101 := by
    rw [length_updateValues _ _ hnodup, if_neg (by simp), Nat.add_zero]
    simp only [Bool.false_or, ne_eq]
    rw [show s.pointer.disabledSpecialists.filter (fun v => decide ¬v = specialist 1) =
        s.pointer.disabledSpecialists.erase (specialist 1) by
          rw [hnodup.erase_eq_filter]
          exact List.filter_congr fun v _ => by simp [bne, beq_eq_decide],
      List.length_erase_of_mem hmem, hoverfull.length]
  obtain ⟨_, _, hs'⟩ := Except.bind_eq_ok.1 hs'
  obtain ⟨_, _, hs'⟩ := Except.bind_eq_ok.1 hs'
  obtain ⟨row, hrow, _⟩ := Except.bind_eq_ok.1 hs'
  obtain ⟨values, hvalues, _⟩ := Except.bind_eq_ok.1 hrow
  rcases switchColumn_cases false (specialist 1) s.pointer.disabledSpecialists with
    ⟨_, hle⟩ | ⟨herror, _⟩
  · rw [hleft] at hle
    exact absurd hle (by decide)
  · exact absurd (herror.symm.trans hvalues) (by simp)

/-- The operator disables two specialists. -/
def disablingCalls : List (ControlServices × ControlCall) :=
  overfullStart ++ [(overfullServices, .switch true overfullOperator (specialistNote (specialist 1))),
    (overfullServices, .switch true overfullOperator (specialistNote (specialist 2)))]

/-- The first of them is enabled again, and it alone. -/
theorem specialist_reenabled :
    (disablingCalls.foldl (serve overfullSettings) {}).pointer.disabledSpecialists =
    [specialist 1, specialist 2] ∧
      ∃ s', (disablingCalls.foldl (serve overfullSettings) {}).switch overfullSettings
        overfullServices false
          overfullOperator (specialistNote (specialist 1)) = .ok s' ∧
        s'.disabled = Function.update (disablingCalls.foldl (serve overfullSettings) {}).disabled
          (.specialist (specialist 1)) false :=
  ⟨by decide +kernel,
    ((sizeRefusesAdding_iff overfullSettings disablingCalls rfl).2 (.inr (by decide +kernel))).enables rfl
      (by decide +kernel)⟩

end ControlState

end RouteControl

end AdaptiveLlm
