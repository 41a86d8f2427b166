import AdaptiveLlm.Contracts.Routes
import AdaptiveLlm.Routing.ChainBounds

set_option autoImplicit false

/-! # One shadow request

`ShadowWorker._process` (`routing/shadow.py`): the controls are read, the eligible specialists are tried
in order until one is asked, the controls are read again after its model was loaded, and what it answered
is stored beside the interaction if the caller's policy still allows it.

What a call meets is a `ShadowTurn`: the snapshots, policies, breakers and loaders as they answer when they
are asked, with nothing assumed between one answer and the next. `process` collects its calls.

The calls of `process` are collected with their answers, so a result can speak of the order in which
things were asked: the controls after the load and before the provider, the policy before the store.
A work may end at any point by an exception, which the worker counts as a failure unless it is one
that nobody catches. -/

namespace AdaptiveLlm

namespace Shadow

/-! ## Work -/

/-- `ShadowWork` with what the worker reads of it. -/
structure ShadowWork where
  request : ProviderRequest
  interactionId : String
  applicationId : String
  tenantId : String
  task : String
  /-- the residency of the interaction's policy -/
  residency : String
  policyId : Option String := none
  deriving DecidableEq

/-- A snapshot with `shadow_enabled` of its policy. -/
structure ShadowSnapshot extends RouteSnapshot where
  shadowEnabled : Bool := false

/-- The answers during one call of `_process`; `none` is an exception. -/
structure ShadowTurn where
  snapshot : Option ShadowSnapshot
  decide : Option PolicyDecision
  available : String → Bool
  load : String → Option ExecutionCandidate
  /-- the controls after the model of a version was loaded -/
  latest : String → Option ShadowSnapshot
  acquire : String → Bool
  attempt : String → Turn
  /-- the policy engine after the generation -/
  decideAfter : Option PolicyDecision
  saveShadow : Option Bool
  compare : Option Unit

/-- The reasons of `shadow_drops`. -/
inductive DropReason where
  | disabled
  | circuitOpen
  | queueFull
  | unhealthy
  | shutdown
  deriving DecidableEq, Repr

/-- The calls that a shadow makes on breakers, chain and store. -/
inductive ShadowCall where
  | acquire (version : String) (admitted : Bool)
  | execute (version : String) (candidate : ExecutionCandidate)
  | record (version : String) (error validationFailure : Bool) (latencyMs : ℚ)
  | saveShadow (attempt : GenerationAttempt) (policy : PolicyDecision)
  | compare (attempt : GenerationAttempt)

/-- How `_process` ends: it counts a drop, counts a completion, returns after a save that stored nothing,
    or raises. -/
inductive ShadowEnd where
  | dropped (reason : DropReason)
  | completed
  | refused
  | raised
  deriving DecidableEq, Repr

/-- What `breakers.record` is told of an attempt. -/
def ShadowCall.recordOf (version : String) (attempt : GenerationAttempt) : ShadowCall :=
  .record version (attempt.errorCode ≠ none ∧ attempt.errorCode ≠ some .validationFailed)
    (attempt.validation.any (!·.passed)) attempt.totalLatencyMs

/-- The calls of one `_process`, in order, and how it ended. -/
structure Processed where
  calls : List ShadowCall := []
  ended : ShadowEnd

/-- Calls made before. -/
def Processed.after (calls : List ShadowCall) (p : Processed) : Processed :=
  { p with calls := calls ++ p.calls }

/-! ## Processing -/

section Process

variable (timeoutSeconds : ℚ) (work : ShadowWork) (turn : ShadowTurn)

/-- The policy engine lets the work be processed where its interaction was. -/
def Permits (work : ShadowWork) (policy : PolicyDecision) : Bool :=
  policy.processingAllowed && policy.residency = work.residency

/-- After the generation. -/
def store (attempt : GenerationAttempt) : Processed :=
  match turn.decideAfter with
  | none => { ended := .raised }
  | some policy =>
    if !Permits work policy then { ended := .dropped .disabled }
    else
      match turn.saveShadow with
      | none => { calls := [.saveShadow attempt policy], ended := .raised }
      | some false => { calls := [.saveShadow attempt policy], ended := .refused }
      | some true =>
        { calls := [.saveShadow attempt policy, .compare attempt]
          ended := if turn.compare.isSome then .completed else .raised }

/-- From the admission by the breaker on. -/
def generate (version : String) (candidate : ExecutionCandidate) : Processed :=
  match executeAttempt candidate work.request work.interactionId 0 timeoutSeconds (turn.attempt version)
      none true with
  | none => { calls := [.execute version candidate], ended := .raised }
  | some (_, attempt) =>
    (store work turn attempt).after
      [.execute version candidate, .recordOf version attempt]

/-- The controls have changed since `policy` was read. -/
def Changed (policy : LivePolicy) (version : String) (latest : ShadowSnapshot) : Bool :=
  latest.policy.all (·.policyId ≠ policy.policyId) || !latest.enabled work.tenantId work.task ||
    version ∈ latest.disabledSpecialists

/-- The loop over the eligible versions. -/
def tryVersions (snapshot : ShadowSnapshot) (policy : LivePolicy) (current : PolicyDecision) :
    List String → Processed
  | [] => { ended := .dropped .unhealthy }
  | version :: versions =>
    if version ∈ snapshot.disabledSpecialists || !turn.available version then
      tryVersions snapshot policy current versions
    else
      match turn.load version with
      | none => tryVersions snapshot policy current versions
      | some candidate =>
        match turn.latest version with
        | none => { ended := .raised }
        | some latest =>
          if Changed work policy version latest then { ended := .dropped .disabled }
          else if candidate.deployment.processingRegion ≠ current.residency then
            tryVersions snapshot policy current versions
          else if !turn.acquire version then
            (tryVersions snapshot policy current versions).after [.acquire version false]
          else (generate timeoutSeconds work turn version candidate).after [.acquire version true]

/-- `_process`. -/
def process : Processed :=
  match turn.snapshot with
  | none => { ended := .raised }
  | some snapshot =>
    match snapshot.policy with
    | none => { ended := .dropped .disabled }
    | some policy =>
      if some policy.policyId ≠ work.policyId || !snapshot.shadowEnabled ||
          !snapshot.enabled work.tenantId work.task then { ended := .dropped .disabled }
      else
        match turn.decide with
        | none => { ended := .raised }
        | some current =>
          if !Permits work current then { ended := .dropped .disabled }
          else tryVersions timeoutSeconds work turn snapshot policy current
            policy.eligibleSpecialistVersions

end Process

/-! ## Who is asked

Versions are tried in the order of the policy. A version is passed over before anything is asked of
its provider, so there is one provider call at most, the last version tried. -/

section Admission

variable (timeoutSeconds : ℚ) (work : ShadowWork) (turn : ShadowTurn)

/-- What the controls, the policy engine, the loader and the breakers said of a version before it was
    asked. -/
structure Admitted (version : String) (candidate : ExecutionCandidate) : Prop where
  policy : ∃ snapshot policy latest, turn.snapshot = some snapshot ∧ snapshot.policy = some policy ∧
    turn.latest version = some latest ∧ snapshot.shadowEnabled = true ∧
    some policy.policyId = work.policyId ∧ version ∈ policy.eligibleSpecialistVersions ∧
    (∃ policy' ∈ latest.policy, policy'.policyId = policy.policyId) ∧
    ∀ s ∈ [snapshot, latest], s.enabled work.tenantId work.task = true ∧ version ∉ s.disabledSpecialists
  caller : ∃ current, turn.decide = some current ∧ Permits work current = true
  loaded : turn.load version = some candidate
  residency : candidate.deployment.processingRegion = work.residency
  breaker : turn.available version = true ∧ turn.acquire version = true

/-- The calls from the generation on. -/
inductive Stored (attempt : GenerationAttempt) : List ShadowCall → ShadowEnd → Prop
  | undecided (undecided : turn.decideAfter = none) : Stored attempt [] .raised
  | denied {policy : PolicyDecision} (decided : turn.decideAfter = some policy)
      (denied : Permits work policy = false) : Stored attempt [] (.dropped .disabled)
  | unsaved {policy : PolicyDecision} {ended : ShadowEnd} (decided : turn.decideAfter = some policy)
      (permits : Permits work policy = true) (unsaved : turn.saveShadow ≠ some true)
      (ended_ne : ended ≠ .completed) : Stored attempt [.saveShadow attempt policy] ended
  | saved {policy : PolicyDecision} (decided : turn.decideAfter = some policy)
      (permits : Permits work policy = true) (saved : turn.saveShadow = some true) :
      Stored attempt [.saveShadow attempt policy, .compare attempt]
        (if turn.compare.isSome then .completed else .raised)

/-- The calls from the first admission by a breaker on. -/
inductive Asked : List ShadowCall → ShadowEnd → Prop
  | nobody {ended : ShadowEnd} (ended_ne : ended ≠ .completed) : Asked [] ended
  | escaped {version : String} {candidate : ExecutionCandidate}
      (admitted : Admitted work turn version candidate)
      (escaped : executeAttempt candidate work.request work.interactionId 0 timeoutSeconds
        (turn.attempt version) none true = none) :
      Asked [.acquire version true, .execute version candidate] .raised
  | answered {version : String} {candidate : ExecutionCandidate} {result : Option ProviderResult}
      {attempt : GenerationAttempt} {calls : List ShadowCall} {ended : ShadowEnd}
      (admitted : Admitted work turn version candidate)
      (answered : executeAttempt candidate work.request work.interactionId 0 timeoutSeconds
        (turn.attempt version) none true = some (result, attempt))
      (stored : Stored work turn attempt calls ended) :
      Asked (.acquire version true :: .execute version candidate :: .recordOf version attempt :: calls)
        ended

variable {timeoutSeconds work turn}

theorem store_stored (attempt : GenerationAttempt) :
    Stored work turn attempt (store work turn attempt).calls (store work turn attempt).ended := by
  unfold store
  split
  · rename_i hdecide
    exact .undecided hdecide
  · rename_i policy hdecide
    by_cases hpermits : Permits work policy = true
    · rw [if_neg (by simp [hpermits])]
      split
      · rename_i hsave
        exact .unsaved hdecide hpermits (by simp [hsave]) (by simp)
      · rename_i hsave
        exact .unsaved hdecide hpermits (by simp [hsave]) (by simp)
      · rename_i hsave
        exact .saved hdecide hpermits hsave
    · rw [if_pos (by simpa using hpermits)]
      exact .denied hdecide (by simpa using hpermits)

theorem generate_asked {version : String} {candidate : ExecutionCandidate}
    (h : Admitted work turn version candidate) :
    Asked timeoutSeconds work turn
      (.acquire version true :: (generate timeoutSeconds work turn version candidate).calls)
      (generate timeoutSeconds work turn version candidate).ended := by
  unfold generate
  split
  · rename_i hnone
    exact .escaped h hnone
  · rename_i result attempt hsome
    exact .answered h hsome (store_stored attempt)

/-- The loop passes over versions, some of which a breaker refuses, and asks one of the others, or none. -/
theorem tryVersions_cases {snapshot : ShadowSnapshot} {policy : LivePolicy} {current : PolicyDecision}
    (hsnapshot : turn.snapshot = some snapshot) (hpolicy : snapshot.policy = some policy)
    (hid : some policy.policyId = work.policyId) (hshadow : snapshot.shadowEnabled = true)
    (henabled : snapshot.enabled work.tenantId work.task = true)
    (hdecide : turn.decide = some current) (hpermits : Permits work current = true)
    {versions : List String} (hversions : versions ⊆ policy.eligibleSpecialistVersions) :
    ∃ (refused : List String) (calls : List ShadowCall),
      (tryVersions timeoutSeconds work turn snapshot policy current versions).calls =
        refused.map (.acquire · false) ++ calls ∧
      Asked timeoutSeconds work turn calls
        (tryVersions timeoutSeconds work turn snapshot policy current versions).ended := by
  induction versions with
  | nil => exact ⟨[], [], rfl, .nobody (by simp [tryVersions])⟩
  | cons version versions ih =>
    obtain ⟨hversion, hrest⟩ := List.cons_subset.1 hversions
    obtain ⟨refused, calls, hcalls, hasked⟩ := ih hrest
    unfold tryVersions
    by_cases hskip : (decide (version ∈ snapshot.disabledSpecialists) || !turn.available version) = true
    · rw [if_pos hskip]
      exact ⟨refused, calls, hcalls, hasked⟩
    rw [if_neg hskip]
    obtain ⟨hdisabled, havailable⟩ : version ∉ snapshot.disabledSpecialists ∧
        turn.available version = true := by simpa using hskip
    split
    · exact ⟨refused, calls, hcalls, hasked⟩
    rename_i candidate hload
    split
    · exact ⟨[], [], rfl, .nobody (by simp)⟩
    rename_i latest hlatest
    by_cases hchanged : Changed work policy version latest = true
    · rw [if_pos hchanged]
      exact ⟨[], [], rfl, .nobody (by simp)⟩
    rw [if_neg hchanged]
    by_cases hregion : candidate.deployment.processingRegion = current.residency
    · rw [if_neg (not_not.2 hregion)]
      by_cases hacquire : turn.acquire version = true
      · rw [if_neg (by simp [hacquire])]
        simp only [Changed, Bool.or_eq_true, not_or, Bool.not_eq_eq_eq_not, Bool.not_true,
          Bool.not_eq_false, decide_eq_true_eq] at hchanged
        obtain ⟨⟨hsame, hlatestEnabled⟩, hlatestDisabled⟩ := hchanged
        refine ⟨[], _, rfl, generate_asked ⟨⟨snapshot, policy, latest, hsnapshot, hpolicy, hlatest,
          hshadow, hid, hversion, ?_, ?_⟩, ⟨current, hdecide, hpermits⟩, hload, ?_, havailable, hacquire⟩⟩
        · cases hp : latest.policy with
          | none => simp [hp] at hsame
          | some policy' => exact ⟨policy', by simp, by simpa [hp] using hsame⟩
        · simp [henabled, hdisabled, hlatestEnabled, hlatestDisabled]
        · simp only [Permits, Bool.and_eq_true, decide_eq_true_eq] at hpermits
          rw [hregion, hpermits.2]
      · rw [if_pos (by simpa using hacquire)]
        exact ⟨version :: refused, calls, by simp [Processed.after, hcalls], hasked⟩
    · rw [if_pos hregion]
      exact ⟨refused, calls, hcalls, hasked⟩

theorem process_cases : ∃ (refused : List String) (calls : List ShadowCall),
    (process timeoutSeconds work turn).calls = refused.map (.acquire · false) ++ calls ∧
    Asked timeoutSeconds work turn calls (process timeoutSeconds work turn).ended := by
  unfold process
  split
  · exact ⟨[], [], rfl, .nobody (by simp)⟩
  rename_i snapshot hsnapshot
  split
  · exact ⟨[], [], rfl, .nobody (by simp)⟩
  rename_i policy hpolicy
  split_ifs with hskip
  · exact ⟨[], [], rfl, .nobody (by simp)⟩
  simp only [Bool.or_eq_true, decide_eq_true_eq, not_or, not_not, Bool.not_eq_eq_eq_not, Bool.not_true,
    Bool.not_eq_false] at hskip
  obtain ⟨⟨hid, hshadow⟩, henabled⟩ := hskip
  split
  · exact ⟨[], [], rfl, .nobody (by simp)⟩
  rename_i current hdecide
  split_ifs with hpermits
  · exact ⟨[], [], rfl, .nobody (by simp)⟩
  · exact tryVersions_cases hsnapshot hpolicy hid hshadow henabled hdecide (by simpa using hpermits)
      (List.Subset.refl _)

end Admission

/-! ## Shadow attempts -/

section ShadowAttempt

variable {a a' : GenerationAttempt} {code : Option ErrorCode}

theorem caught_shadow {raised : Raised} (h : raised.caught a = some (code, a')) : a'.shadow = a.shadow := by
  cases raised with
  | providerError error =>
    simp only [Raised.caught, Option.some.injEq, Prod.mk.injEq] at h
    obtain ⟨-, rfl⟩ := h
    split_ifs <;> rfl
  | baseException => simp [Raised.caught] at h
  | timeoutError | cancelledError | exception =>
    simp only [Raised.caught, Option.some.injEq, Prod.mk.injEq] at h
    obtain ⟨-, rfl⟩ := h
    rfl

theorem judge_shadow {deployment : Deployment} {request : ProviderRequest} {remaining : ℚ} {turn : Turn}
    {result : ProviderResult} (h : judge deployment request remaining turn a result = some (code, a')) :
    a'.shadow = a.shadow := by
  simp only [judge] at h
  split at h
  · obtain ⟨-, rfl⟩ : _ = code ∧ _ = a' := by simpa using h
    rfl
  split at h
  · obtain ⟨-, rfl⟩ : _ = code ∧ _ = a' := by simpa using h
    rfl
  split at h
  · exact (caught_shadow h :)
  split at h
  · obtain ⟨-, rfl⟩ : _ = code ∧ _ = a' := by simpa using h
    rfl
  · obtain ⟨-, rfl⟩ : _ = code ∧ _ = a' := by simpa using h
    rfl

/-- An attempt is marked as it was asked for. -/
theorem executeAttempt_shadow {candidate : ExecutionCandidate} {request : ProviderRequest}
    {interactionId : String} {number : ℕ} {remaining : ℚ} {turn : Turn} {fallbackReason : Option Reason}
    {shadow : Bool} {result : Option ProviderResult}
    (h : executeAttempt candidate request interactionId number remaining turn fallbackReason shadow =
      some (result, a)) : a.shadow = shadow := by
  unfold executeAttempt at h
  obtain ⟨parameters, -, h⟩ := Option.bind_eq_some_iff.1 h
  obtain ⟨⟨code, attempt⟩, hcode, h⟩ := Option.bind_eq_some_iff.1 h
  obtain ⟨-, rfl⟩ : _ = result ∧ _ = a := by simpa using h
  cases hanswer : turn.generate
      { request with deadlineMs := min request.deadlineMs (remaining * 1000) } with
  | error raised =>
    rw [hanswer] at hcode
    exact caught_shadow hcode
  | ok answer =>
    rw [hanswer] at hcode
    exact judge_shadow hcode

end ShadowAttempt

/-! ## What a shadow request may do -/

/-- The call executes a candidate. -/
def ShadowCall.isExecute : ShadowCall → Bool
  | .execute _ _ => true
  | _ => false

/-- The call is recorded on a breaker. -/
def ShadowCall.isRecord : ShadowCall → Bool
  | .record _ _ _ _ => true
  | _ => false

section Lawful

variable {timeoutSeconds : ℚ} {work : ShadowWork} {turn : ShadowTurn}

/-- What is said of the calls of one work: whom it asks, what it stores of the answer and when it counts. -/
structure Lawful (timeoutSeconds : ℚ) (work : ShadowWork) (turn : ShadowTurn) (p : Processed) : Prop where
  asks_once : p.calls.countP ShadowCall.isExecute ≤ 1
  admitted : ∀ version candidate, .execute version candidate ∈ p.calls →
    Admitted work turn version candidate
  acquired : ∀ version, .acquire version true ∈ p.calls ↔ ∃ candidate, .execute version candidate ∈ p.calls
  /-- exactly once, and about the attempt, unless the generation raised -/
  recorded : ∀ version candidate, .execute version candidate ∈ p.calls →
    p.calls.filter ShadowCall.isRecord =
      ((executeAttempt candidate work.request work.interactionId 0 timeoutSeconds (turn.attempt version)
        none true).map fun answer => ShadowCall.recordOf version answer.2).toList
  unrecorded : (∀ version candidate, .execute version candidate ∉ p.calls) →
    p.calls.filter ShadowCall.isRecord = []
  /-- only where the policy that is read after the generation permits it -/
  stored : ∀ attempt policy, .saveShadow attempt policy ∈ p.calls →
    turn.decideAfter = some policy ∧ Permits work policy = true ∧ attempt.shadow = true ∧
    ∃ version candidate result, .execute version candidate ∈ p.calls ∧
      executeAttempt candidate work.request work.interactionId 0 timeoutSeconds (turn.attempt version)
        none true = some (result, attempt) ∧ attempt.deploymentId = candidate.name
  compared : ∀ attempt, .compare attempt ∈ p.calls →
    turn.saveShadow = some true ∧ ∃ policy, .saveShadow attempt policy ∈ p.calls
  completed : p.ended = .completed ↔ (∃ attempt, .compare attempt ∈ p.calls) ∧ turn.compare.isSome = true

theorem Asked.lawful {calls : List ShadowCall} {ended : ShadowEnd}
    (h : Asked timeoutSeconds work turn calls ended) (refused : List String) :
    Lawful timeoutSeconds work turn ⟨refused.map (.acquire · false) ++ calls, ended⟩ := by
  have hrefused : refused.countP (ShadowCall.isExecute ∘ (ShadowCall.acquire · false)) = 0 := by
    simp [List.countP_eq_zero, ShadowCall.isExecute]
  have hunrecorded : (refused.map (ShadowCall.acquire · false)).filter ShadowCall.isRecord = [] := by
    simp [ShadowCall.isRecord]
  cases h with
  | nobody hended =>
    constructor <;> simp [hrefused, hunrecorded, hended]
  | escaped hadmitted hescaped =>
    constructor <;>
      simp +contextual [List.countP_cons, hrefused, hunrecorded, ShadowCall.isExecute,
        ShadowCall.isRecord, hadmitted, hescaped]
  | answered hadmitted hanswered hstored =>
    have hshadow := executeAttempt_shadow hanswered
    have hname := (executeAttempt_spec hanswered).1.deployment
    cases hstored with
    | undecided | denied =>
      constructor <;>
        simp +contextual [List.countP_cons, List.filter_cons, hrefused, hunrecorded, ShadowCall.recordOf,
          ShadowCall.isExecute, ShadowCall.isRecord, hadmitted, hanswered]
    | unsaved hdecided hpermits _ hended =>
      constructor <;>
        simp +contextual [List.countP_cons, List.filter_cons, hrefused, hunrecorded, ShadowCall.recordOf,
          ShadowCall.isExecute, ShadowCall.isRecord, hadmitted, hanswered, hdecided,
            hpermits, hshadow, hname, hended]
    | saved hdecided hpermits hsaved =>
      cases hcompare : turn.compare <;> constructor <;>
        simp +contextual [List.countP_cons, List.filter_cons, hrefused, hunrecorded, ShadowCall.recordOf,
          ShadowCall.isExecute, ShadowCall.isRecord, hadmitted, hanswered, hdecided,
            hpermits, hshadow, hname, hsaved, hcompare]

/-- **Shadow admission.** Whatever the controls, policies, loaders, breakers and providers answer, a work
    asks one specialist at most, and only one that the policy names, that the controls enable before and
    after its model was loaded, that a breaker admitted, and that runs where the interaction was processed;
    the breaker hears of it. Its attempt is stored, marked as shadow, only where the policy after the
    generation allows that, and the work counts as completed exactly where its comparison was stored too. -/
theorem shadow_admitted (timeoutSeconds : ℚ) (work : ShadowWork) (turn : ShadowTurn) :
    Lawful timeoutSeconds work turn (process timeoutSeconds work turn) := by
  obtain ⟨refused, calls, hcalls, hasked⟩ := @process_cases timeoutSeconds work turn
  have h := hasked.lawful refused
  rwa [← hcalls] at h

end Lawful

end Shadow

end AdaptiveLlm
