import AdaptiveLlm.Routing.Chain

set_option autoImplicit false

/-! # Bounds of the attempt chain

What one round can do is said once, by `visit_cases`; `ChainInv` is what a round keeps. With it a
chain makes a bounded number of attempts, one per deployment, each of them admitted at the cost spent
before it, and returns only what was validated and accepted. The bound on the cost of all attempts
also needs the usage reports to stay within what was asked for: then each attempt costs at most the
estimate it was admitted with.

The bounds are stated on the attempts that a run returns, whichever way it ends. `ChainInv` has a
part for each: the attempts so far are numbered in order and belong to different deployments, the
amount spent is their sum, and each was admitted while the amount before it left room for its
estimate. -/

namespace AdaptiveLlm

/-- The recorded cost of a list of attempts. -/
def totalCost (attempts : List GenerationAttempt) : ℕ :=
  (attempts.map fun a => a.estimatedCostMicros.getD 0).sum

theorem totalCost_concat (attempts : List GenerationAttempt) (a : GenerationAttempt) :
    totalCost (attempts ++ [a]) = totalCost attempts + a.estimatedCostMicros.getD 0 := by
  simp [totalCost]

/-- An attempt that can be served: no error, a validation that passed and an accepted finish. -/
structure GenerationAttempt.Served (a : GenerationAttempt) : Prop where
  noError : a.errorCode = none
  validated : ∃ v, a.validation = some v ∧ v.passed
  accepted : a.finishReason.accepted

/-- The attempt is the given candidate's, under the given number. -/
structure AttemptOf (candidate : ExecutionCandidate) (number : ℕ) (a : GenerationAttempt) : Prop where
  deployment : a.deploymentId = candidate.name
  numbered : a.attemptNumber = number
  cost : a.estimatedCostMicros = a.usage.map fun u =>
    candidate.deployment.priceList.estimate u.inputTokens u.outputTokens

/-! ## One attempt -/

section Attempt

variable {candidate : ExecutionCandidate} {number : ℕ} {a a' : GenerationAttempt}

theorem Raised.caught_spec {raised : Raised} {code : Option ErrorCode}
    (h : raised.caught a = some (code, a')) (ha : AttemptOf candidate number a) :
    AttemptOf candidate number a' ∧ code ≠ none := by
  cases raised with
  | providerError code =>
    simp only [caught, Option.some.injEq, Prod.mk.injEq] at h
    obtain ⟨rfl, rfl⟩ := h
    split_ifs
    · exact ⟨⟨ha.deployment, ha.numbered, ha.cost⟩, by simp⟩
    · exact ⟨ha, by simp⟩
  | baseException => simp [caught] at h
  | timeoutError =>
    simp only [caught, Option.some.injEq, Prod.mk.injEq] at h
    obtain ⟨rfl, rfl⟩ := h
    exact ⟨⟨ha.deployment, ha.numbered, ha.cost⟩, by simp⟩
  | cancelledError =>
    simp only [caught, Option.some.injEq, Prod.mk.injEq] at h
    obtain ⟨rfl, rfl⟩ := h
    exact ⟨⟨ha.deployment, ha.numbered, ha.cost⟩, by simp⟩
  | exception =>
    simp only [caught, Option.some.injEq, Prod.mk.injEq] at h
    obtain ⟨rfl, rfl⟩ := h
    exact ⟨ha, by simp⟩

/-- The attempt after a result: only a validated answer in time has no error code. -/
theorem judge_spec {request : ProviderRequest} {remaining : ℚ} {turn : Turn}
    {result : ProviderResult} {code : Option ErrorCode}
    (h : judge candidate.deployment request remaining turn a result = some (code, a'))
    (ha : AttemptOf candidate number a) :
    AttemptOf candidate number a' ∧
      (code = none → (∃ v, a'.validation = some v ∧ v.passed) ∧ a'.finishReason.accepted) := by
  simp only [judge] at h
  split at h
  · obtain ⟨rfl, rfl⟩ : _ = code ∧ _ = a' := by simpa using h
    exact ⟨⟨ha.deployment, ha.numbered, rfl⟩, by simp⟩
  split at h
  · obtain ⟨rfl, rfl⟩ : _ = code ∧ _ = a' := by simpa using h
    exact ⟨⟨ha.deployment, ha.numbered, rfl⟩, by simp⟩
  rename_i haccepted
  split at h
  · obtain ⟨ha', hcode⟩ : AttemptOf candidate number a' ∧ code ≠ none :=
      Raised.caught_spec h ⟨ha.deployment, ha.numbered, rfl⟩
    exact ⟨ha', fun hnone => absurd hnone hcode⟩
  rename_i validation hvalidation
  split at h
  · obtain ⟨rfl, rfl⟩ : _ = code ∧ _ = a' := by simpa using h
    exact ⟨⟨ha.deployment, ha.numbered, rfl⟩, by simp⟩
  · obtain ⟨rfl, rfl⟩ : _ = code ∧ _ = a' := by simpa using h
    refine ⟨⟨ha.deployment, ha.numbered, rfl⟩, fun hnone => ⟨⟨validation, rfl, ?_⟩, ?_⟩⟩
    · by_contra hfailed
      simp [hfailed] at hnone
    · simpa using haccepted

/-- What `executeAttempt` returns: the candidate's attempt, and a result wherever there is no error
    code. -/
theorem executeAttempt_spec {request : ProviderRequest} {interactionId : String} {remaining : ℚ}
    {turn : Turn} {fallbackReason : Option Reason} {shadow : Bool} {result : Option ProviderResult}
    (h : executeAttempt candidate request interactionId number remaining turn fallbackReason shadow
      = some (result, a)) :
    AttemptOf candidate number a ∧ (a.errorCode = none → a.Served ∧ ∃ r, result = some r) := by
  unfold executeAttempt at h
  obtain ⟨parameters, -, h⟩ := Option.bind_eq_some_iff.1 h
  obtain ⟨⟨code, attempt⟩, hcode, h⟩ := Option.bind_eq_some_iff.1 h
  obtain ⟨rfl, rfl⟩ : _ = result ∧ _ = a := by simpa using h
  cases hanswer : turn.generate
      { request with deadlineMs := min request.deadlineMs (remaining * 1000) } with
  | error raised =>
    rw [hanswer] at hcode
    obtain ⟨ha, herror⟩ : AttemptOf candidate number attempt ∧ code ≠ none :=
      Raised.caught_spec hcode ⟨rfl, rfl, rfl⟩
    exact ⟨⟨ha.deployment, ha.numbered, ha.cost⟩, fun hnone => absurd hnone herror⟩
  | ok r =>
    rw [hanswer] at hcode
    obtain ⟨ha, hserved⟩ := judge_spec hcode
      (⟨rfl, rfl, rfl⟩ : AttemptOf candidate number _)
    refine ⟨⟨ha.deployment, ha.numbered, ha.cost⟩, fun hnone => ?_⟩
    obtain ⟨hvalidated, haccepted⟩ := hserved hnone
    exact ⟨⟨hnone, hvalidated, haccepted⟩, r, rfl⟩

end Attempt

/-! ## One round

`visit_cases` has all that a round can end with: the candidate was passed over for a reason, or
attempted, and then the run goes on, returns or raises. The guards of each case are part of it. -/

section Rounds

variable {plan : ChainPlan} {request : ProviderRequest} {options : RoutingOptions}
  {policy : PolicyDecision} {interactionId : String} {deadline : ℚ}

/-- A round that makes no attempt. -/
structure PassedOver (st st' : ChainState) (control : Control) : Prop where
  attempts : st'.attempts = st.attempts
  spent : st'.spent = st.spent
  visited : st.visited ⊆ st'.visited
  notReturned : ∀ r a, control ≠ .exit (.returned r a)

/-- A round that makes the attempt `a`. -/
structure Attempted (plan : ChainPlan) (request : ProviderRequest) (options : RoutingOptions)
    (policy : PolicyDecision) (candidate : ExecutionCandidate) (a : GenerationAttempt)
    (st st' : ChainState) (control : Control) : Prop where
  fresh : candidate.name ∉ st.visited
  room : st.attempts.length < plan.policy.maxAttempts
  admitted : rejection candidate plan request options policy st.spent = none
  isOf : AttemptOf candidate (st.attempts.length + 1) a
  attempts : st'.attempts = st.attempts ++ [a]
  spent : st'.spent = st.spent + a.estimatedCostMicros.getD 0
  visited : st'.visited = candidate.name :: st.visited
  ends : (a.Served ∧ ∃ r, control = .exit (.returned r a)) ∨
    (a.errorCode ≠ none ∧ ∀ r b, control ≠ .exit (.returned r b))

variable (plan request options policy deadline) in
theorem admission_state (st : ChainState) (candidate : ExecutionCandidate) (turn : Turn) :
    let st' := (admission plan request options policy deadline st candidate turn).2
    st'.attempts = st.attempts ∧ st'.spent = st.spent ∧ st'.visited = st.visited := by
  unfold admission
  split
  · simp
  · split <;> simp

theorem admission_none {st st' : ChainState} {candidate : ExecutionCandidate} {turn : Turn}
    (h : admission plan request options policy deadline st candidate turn = (none, st')) :
    rejection candidate plan request options policy st.spent = none := by
  unfold admission at h
  split at h
  · simp at h
  · assumption

variable (plan) in
/-- What `settle` makes of an attempt. -/
theorem settle_spec (st : ChainState) (candidate : ExecutionCandidate) (turn : Turn)
    {result : Option ProviderResult} {a : GenerationAttempt}
    (ha : a.errorCode = none → a.Served ∧ ∃ r, result = some r) :
    let out := settle plan st candidate turn result a
    out.1.attempts = st.attempts ++ [a] ∧
      out.1.spent = st.spent + a.estimatedCostMicros.getD 0 ∧ out.1.visited = st.visited ∧
      ((a.Served ∧ ∃ r, out.2 = .exit (.returned r a)) ∨
        (a.errorCode ≠ none ∧ ∀ r b, out.2 ≠ .exit (.returned r b))) := by
  cases hcode : a.errorCode with
  | none =>
    obtain ⟨hserved, r, rfl⟩ := ha hcode
    refine ⟨?_, ?_, ?_, .inl ⟨hserved, r, ?_⟩⟩ <;> simp [settle, hcode]
  | some code =>
    have hcases : (settle plan st candidate turn result a).2 ∈
        [Control.exit .cancelled, .next, .stop] ∧
        (settle plan st candidate turn result a).1.attempts = st.attempts ++ [a] ∧
        (settle plan st candidate turn result a).1.spent =
          st.spent + a.estimatedCostMicros.getD 0 ∧
        (settle plan st candidate turn result a).1.visited = st.visited := by
      unfold settle
      cases code <;> simp [hcode, em]
    obtain ⟨hcontrol, hattempts, hspent, hvisited⟩ := hcases
    refine ⟨hattempts, hspent, hvisited, .inr ⟨by simp, fun r b hr => ?_⟩⟩
    rw [hr] at hcontrol
    simp at hcontrol

variable (plan request options policy interactionId deadline) in
/-- A round passes the candidate over or makes one attempt with it. -/
theorem visit_cases (st : ChainState) (candidate : ExecutionCandidate) (turn : Turn) :
    let out := visit plan request options policy interactionId deadline st candidate turn
    PassedOver st out.1 out.2 ∨
      ∃ a, Attempted plan request options policy candidate a st out.1 out.2 := by
  unfold visit
  split
  · exact .inl ⟨rfl, rfl, List.Subset.refl _, by simp⟩
  rename_i hfresh
  dsimp only
  split
  · exact .inl ⟨rfl, rfl, List.subset_cons_self _ _, by simp⟩
  rename_i hroom
  obtain ⟨hattempts, hspent, hvisited⟩ := admission_state plan request options policy deadline
    { st with visited := candidate.name :: st.visited } candidate turn
  split
  · rename_i skip st' hadmission
    rw [hadmission] at hattempts hspent hvisited
    refine .inl ⟨hattempts, hspent, ?_, ?_⟩
    · rw [hvisited]; exact List.subset_cons_self _ _
    · split_ifs <;> simp
  · rename_i st' hadmission
    have hadmitted := admission_none hadmission
    rw [hadmission] at hattempts hspent hvisited
    dsimp only at hattempts hspent hvisited hadmitted
    split
    · refine .inl ⟨hattempts, hspent, ?_, by simp⟩
      rw [hvisited]; exact List.subset_cons_self _ _
    · rename_i result a hattempt
      obtain ⟨hisOf, hserved⟩ := executeAttempt_spec hattempt
      obtain ⟨h₁, h₂, h₃, hends⟩ := settle_spec plan st' candidate turn hserved
      exact .inr ⟨a, hfresh, by omega, hadmitted, hattempts ▸ hisOf, hattempts ▸ h₁, hspent ▸ h₂,
        hvisited ▸ h₃, hends⟩

/-! ## The whole chain

The bounds are kept round by round: each attempt is of a later candidate than the one before and was
admitted with what had been spent until then, and all that were made are in the caller's list
however the chain ends. -/

variable (plan request options policy) in
/-- What every round keeps; `done` are the candidates of the rounds so far, and `log` pairs each
    attempt with its candidate. -/
structure ChainInv (done : List ExecutionCandidate)
    (log : List (ExecutionCandidate × GenerationAttempt)) (st : ChainState) : Prop where
  attempts : log.map (·.2) = st.attempts
  inOrder : (log.map (·.1)).Sublist done
  distinct : (log.map (·.1.name)).Nodup
  visited : ∀ p ∈ log, p.1.name ∈ st.visited
  room : st.attempts.length ≤ plan.policy.maxAttempts
  spent : st.spent = totalCost st.attempts
  admitted : ∀ before c a after, log = before ++ (c, a) :: after →
    AttemptOf c (before.length + 1) a ∧
      rejection c plan request options policy (totalCost (before.map (·.2))) = none

variable (plan request options policy) in
theorem ChainInv.init (breakers : CircuitBreakers) :
    ChainInv plan request options policy [] [] { reason := plan.fallbackReason, breakers } where
  attempts := rfl
  inOrder := .slnil
  distinct := .nil
  visited := by simp
  room := Nat.zero_le _
  spent := rfl
  admitted := by simp

variable {done : List ExecutionCandidate} {log : List (ExecutionCandidate × GenerationAttempt)}
  {st st' : ChainState} {control : Control} {candidate : ExecutionCandidate}

theorem ChainInv.passedOver (h : ChainInv plan request options policy done log st)
    (hp : PassedOver st st' control) (candidate : ExecutionCandidate) :
    ChainInv plan request options policy (done ++ [candidate]) log st' where
  attempts := hp.attempts ▸ h.attempts
  inOrder := h.inOrder.trans (List.sublist_append_left _ _)
  distinct := h.distinct
  visited p hmem := hp.visited (h.visited p hmem)
  room := hp.attempts ▸ h.room
  spent := by rw [hp.spent, hp.attempts]; exact h.spent
  admitted := h.admitted

theorem ChainInv.attempted (h : ChainInv plan request options policy done log st)
    {a : GenerationAttempt} (ha : Attempted plan request options policy candidate a st st' control) :
    ChainInv plan request options policy (done ++ [candidate]) (log ++ [(candidate, a)]) st' where
  attempts := by simp [ha.attempts, h.attempts]
  inOrder := by
    rw [List.map_append]
    exact h.inOrder.append (.refl _)
  distinct := by
    rw [List.map_append, List.nodup_append]
    refine ⟨h.distinct, by simp, fun n hn n' hn' heq => ?_⟩
    obtain ⟨p, hp, hpn⟩ := List.mem_map.1 hn
    have hn' : n' = candidate.name := by simpa using hn'
    exact ha.fresh (hn' ▸ heq ▸ hpn ▸ h.visited p hp)
  visited p hp := by
    rw [ha.visited]
    rcases List.mem_append.1 hp with hp | hp
    · exact List.mem_cons_of_mem _ (h.visited p hp)
    · rw [List.mem_singleton.1 hp]
      exact List.mem_cons_self
  room := by
    have := ha.room
    rw [ha.attempts, List.length_append, List.length_singleton]
    omega
  spent := by rw [ha.spent, ha.attempts, totalCost_concat, h.spent]
  admitted before c b after hsplit := by
    rcases List.eq_nil_or_concat after with rfl | ⟨after, p, rfl⟩
    · -- the new attempt is the last of the log
      obtain ⟨rfl, hlast⟩ := List.append_inj' hsplit rfl
      obtain ⟨rfl, rfl⟩ : candidate = c ∧ a = b := by simpa using hlast
      have hlength : log.length = st.attempts.length := by rw [← h.attempts, List.length_map]
      rw [h.attempts, ← h.spent, hlength]
      exact ⟨ha.isOf, ha.admitted⟩
    · refine h.admitted before c b after ?_
      rw [List.concat_eq_append, ← List.cons_append, ← List.append_assoc] at hsplit
      exact (List.append_inj' hsplit rfl).1

theorem ChainInv.mono (h : ChainInv plan request options policy done log st)
    {done' : List ExecutionCandidate} (hd : done.Sublist done') :
    ChainInv plan request options policy done' log st :=
  { h with inOrder := h.inOrder.trans hd }

variable (interactionId deadline) in
/-- From a state with failed attempts only, the rounds keep the invariant; where they return an
    attempt, it is the last one, it can be served, and those before it have failed. -/
theorem rounds_spec (turns : ℕ → Turn) (i : ℕ) (rest : List ExecutionCandidate)
    (h : ChainInv plan request options policy done log st)
    (hfailed : ∀ a ∈ st.attempts, a.errorCode ≠ none) :
    let out := rounds plan request options policy interactionId deadline turns i rest st
    (∃ log', ChainInv plan request options policy (done ++ rest) log' out.2) ∧
      ∀ r a, out.1 = .returned r a → a.Served ∧ ∃ earlier, out.2.attempts = earlier ++ [a] ∧
        ∀ b ∈ earlier, b.errorCode ≠ none := by
  induction rest generalizing i done log st with
  | nil => exact ⟨⟨log, by simpa [rounds] using h⟩, by simp [rounds]⟩
  | cons candidate rest ih =>
    have hend : (done ++ [candidate]).Sublist (done ++ candidate :: rest) := by simp
    rw [rounds]
    rcases visit_cases plan request options policy interactionId deadline st candidate (turns i) with
      hround | ⟨a, hround⟩
    · have h' := h.passedOver hround candidate
      have hreturn := hround.notReturned
      split
      · rename_i st' hvisit
        rw [hvisit] at h' hround
        have := ih (i + 1) h' (hround.attempts ▸ hfailed)
        simpa using this
      · rename_i st' hvisit
        rw [hvisit] at h'
        exact ⟨⟨log, h'.mono hend⟩, by simp⟩
      · rename_i st' result hvisit
        rw [hvisit] at h' hreturn
        refine ⟨⟨log, h'.mono hend⟩, fun r a hr => ?_⟩
        exact absurd (congrArg Control.exit hr) (hreturn r a)
    · have h' := h.attempted hround
      have hattempts := hround.attempts
      have hcontrol := hround.ends
      split
      · rename_i st' hvisit
        rw [hvisit] at h' hattempts hcontrol
        obtain ⟨-, r, hr⟩ | ⟨herror, -⟩ := hcontrol
        · exact absurd hr (by simp)
        · have := ih (i + 1) h' (by
            intro b hb
            rcases List.mem_append.1 (hattempts ▸ hb) with hb | hb
            · exact hfailed b hb
            · rw [List.mem_singleton.1 hb]; exact herror)
          simpa using this
      · rename_i st' hvisit
        rw [hvisit] at h'
        exact ⟨⟨_, h'.mono hend⟩, by simp⟩
      · rename_i st' result hvisit
        rw [hvisit] at h' hattempts hcontrol
        refine ⟨⟨_, h'.mono hend⟩, fun r b hr => ?_⟩
        obtain ⟨hserved, r', hr'⟩ | ⟨-, hno⟩ := hcontrol
        · obtain rfl : a = b := by
            simp only [Control.exit.injEq] at hr'
            rw [hr'] at hr
            simpa using (ChainResult.returned.inj hr).2
          exact ⟨hserved, st.attempts, hattempts, hfailed⟩
        · exact absurd (congrArg Control.exit hr) (hno r b)

end Rounds

/-! ## The bounds

The amounts of the attempts add up to what was spent, and each attempt was admitted with room for
its estimate. With usage within what was asked for, no attempt costs more than its estimate. -/

/-- With every usage report within what was asked for, the attempts together cost at most the limit
    that each of them was admitted under. -/
theorem ChainInv.totalCost_le {plan : ChainPlan} {request : ProviderRequest}
    {options : RoutingOptions} {policy : PolicyDecision} {done : List ExecutionCandidate}
    {log : List (ExecutionCandidate × GenerationAttempt)} {st : ChainState}
    (h : ChainInv plan request options policy done log st)
    (husage : ∀ a ∈ st.attempts, ∀ u, a.usage = some u →
      u.inputTokens ≤ request.inputTokens ∧ u.outputTokens ≤ request.maxOutputTokens) :
    totalCost st.attempts ≤ options.maxCostMicros := by
  rcases List.eq_nil_or_concat log with rfl | ⟨before, ⟨c, a⟩, rfl⟩
  · rw [← h.attempts]
    exact Nat.zero_le _
  rw [List.concat_eq_append] at h
  -- the last attempt was admitted at the cost of those before it
  obtain ⟨hof, hadmitted⟩ := h.admitted before c a [] rfl
  have hattempts : st.attempts = before.map (·.2) ++ [a] := by rw [← h.attempts]; simp
  have hlast : a.estimatedCostMicros.getD 0 ≤
      c.deployment.priceList.estimate request.inputTokens request.maxOutputTokens := by
    rw [hof.cost]
    cases hu : a.usage with
    | none => exact Nat.zero_le _
    | some u =>
      obtain ⟨hin, hout⟩ := husage a (by rw [hattempts]; simp) u hu
      exact c.deployment.priceList.estimate_mono hin hout
  calc totalCost st.attempts
      = totalCost (before.map (·.2)) + a.estimatedCostMicros.getD 0 := by
        rw [hattempts, totalCost_concat]
    _ ≤ options.maxCostMicros := by
        have := rejection_cost hadmitted
        omega

theorem ChainInv.numbered {plan : ChainPlan} {request : ProviderRequest}
    {options : RoutingOptions} {policy : PolicyDecision} {done : List ExecutionCandidate}
    {log : List (ExecutionCandidate × GenerationAttempt)} {st : ChainState}
    (h : ChainInv plan request options policy done log st) :
    st.attempts.map (·.attemptNumber) = List.range' 1 st.attempts.length := by
  rw [← h.attempts, List.map_map, List.length_map]
  refine List.ext_getElem (by simp) fun i hi _ => ?_
  have hlog : i < log.length := by simpa using hi
  have hsplit : log = log.take i ++ (log[i].1, log[i].2) :: log.drop (i + 1) := by simp
  have hof := (h.admitted _ _ _ _ hsplit).1
  rw [List.length_take, min_eq_left hlog.le] at hof
  simpa [Nat.add_comm] using hof.numbered

/-- **Bounded attempts and cost.** However the clocks, the provider, the validator and the other
    users of the breakers behave, a chain makes at most `maxAttempts` attempts, one per deployment,
    numbered from 1 in the order of the candidates, and each admitted by `rejection` at the cost of
    those before it; their cost keeps to the limit as long as the usage reports keep to the request;
    and a normal return is the last attempt, validated and accepted, after failed ones only. -/
theorem runChain_bounds (plan : ChainPlan) (request : ProviderRequest) (options : RoutingOptions)
    (policy : PolicyDecision) (interactionId : String) (deadline : ℚ) (breakers : CircuitBreakers)
    (turns : ℕ → Turn) :
    let out := runChain plan request options policy interactionId deadline breakers turns
    let attempts := out.2.attempts
    attempts.length ≤ plan.policy.maxAttempts ∧
    (attempts.map (·.deploymentId)).Nodup ∧
    attempts.map (·.attemptNumber) = List.range' 1 attempts.length ∧
    (∃ chosen : List ExecutionCandidate, chosen.Sublist plan.candidates ∧
      attempts.map (·.deploymentId) = chosen.map (·.name) ∧
      ∀ before c after, chosen = before ++ c :: after →
        rejection c plan request options policy (totalCost (attempts.take before.length)) = none) ∧
    ((∀ a ∈ attempts, ∀ u, a.usage = some u →
        u.inputTokens ≤ request.inputTokens ∧ u.outputTokens ≤ request.maxOutputTokens) →
      totalCost attempts ≤ options.maxCostMicros) ∧
    (∀ r a, out.1 = .returned r a → a.Served ∧ ∃ earlier, attempts = earlier ++ [a] ∧
      ∀ b ∈ earlier, b.errorCode ≠ none) := by
  intro out attempts
  obtain ⟨⟨log, h⟩, hreturned⟩ := rounds_spec interactionId deadline turns 0 plan.candidates
    (ChainInv.init plan request options policy breakers) (by simp)
  rw [List.nil_append] at h
  have hattempts : attempts = log.map (·.2) := h.attempts.symm
  have hnames : attempts.map (·.deploymentId) = log.map (·.1.name) := by
    rw [hattempts, List.map_map]
    refine List.map_congr_left fun p hp => ?_
    obtain ⟨before, after, hsplit⟩ := List.append_of_mem hp
    exact (h.admitted before p.1 p.2 after hsplit).1.deployment
  refine ⟨h.room, hnames ▸ h.distinct, h.numbered,
    ⟨log.map (·.1), h.inOrder, by rw [hnames, List.map_map]; rfl, ?_⟩, h.totalCost_le, hreturned⟩
  intro before c after hsplit
  obtain ⟨logBefore, logAfter, rfl, rfl, hafter⟩ := List.map_eq_append_iff.1 hsplit
  obtain ⟨⟨c', a⟩, logAfter, rfl, rfl, rfl⟩ := List.map_eq_cons_iff.1 hafter
  rw [hattempts, List.length_map, List.map_append,
    List.take_append_of_le_length (by simp), List.take_of_length_le (by simp)]
  exact (h.admitted _ _ _ _ rfl).2

end AdaptiveLlm
