import AdaptiveLlm.Lib.Locks
import AdaptiveLlm.Lib.Runs
import AdaptiveLlm.Lib.Serial
import AdaptiveLlm.Registry.Transitions

set_option autoImplicit false

/-! # Publishing evaluations

`SQLiteEvaluationStore.publish` (`evaluation/storage.py`) as `LocalEvaluator` calls it, any number of
calls at once. A call stages the files of its report; then, in one transaction, it compares the baseline
with the one its evaluation began with, writes its rows, runs `record_evaluation` as its hook and
renames the directory. Any of these may raise instead: the transaction is rolled back, and then, with
its lock released, the directories are removed.

A call that is committed is `Registry.publish`; the calls that run at once leave what those that returned
leave one after another.

The system has the state of every call: what it read when its evaluation began, whether it holds the
lock, and which of its effects are in place. The invariant says, for each call by its phase, what it
has in hand and what of it is on disk, and that the committed tables are those of a serial history
(`History`), so that a commit is the next call of that history. The baseline a call compares with is
read inside its transaction; the one that its evaluation began with was read before any lock, which
is why the comparison is needed. -/

namespace AdaptiveLlm

namespace Evaluation

/-! ## Calls -/

/-- A call of `publish`. -/
structure Publication where
  report : EvaluationReport
  tenants : List String
  identity : Identity
  expectedBaseline : Option String
  checks : RegistryChecks
  encoded : String
  mac : String

/-- `locking` of `LocalEvaluator`; an evaluation of a router has no baseline and does not lock. -/
def locking (foundationId : String) (spec : EvaluationSpecification) : Bool :=
  spec.baselineDeploymentId = some spec.candidateDeploymentId &&
    spec.baselineDeploymentId = some foundationId

namespace Publication

variable (foundationId : String) (c : Publication)

/-- The identifier of the report that is published. -/
def evaluationId : String := c.report.specification.evaluationId

/-- Whether the publication fixes the baseline of its dataset. -/
def lockBaseline : Bool := locking foundationId c.report.specification && c.report.passed

/-- The deployment and the dataset version whose baseline the call may write. -/
def key : String × String :=
  (c.report.specification.candidateDeploymentId, c.report.specification.datasetVersion)

/-- The baseline that the call compares. -/
def storedBaseline (r : Registry) : Option String :=
  c.report.specification.baselineDeploymentId.bind fun d =>
    r.baselines (d, c.report.specification.datasetVersion)

/-- The inserted rows. -/
def store (r : Registry) : Registry := r.storeReport c.report c.tenants (c.lockBaseline foundationId)

/-- The events. -/
def announce (r : Registry) : Registry :=
  r.emit c.checks c.tenants (.evaluationCompleted c.evaluationId c.report.candidateManifestVersion
    c.report.baselineManifestVersion c.report.passed)

/-- The hook. -/
def hook (r : Registry) : Result Registry := r.recordEvaluation c.checks c.identity c.report

/-- The whole call on the tables. -/
def publish (r : Registry) : Result Registry :=
  r.publish c.checks c.identity c.report c.tenants (c.lockBaseline foundationId) c.expectedBaseline

/-- The staged files. -/
def files : List (String × String) := [("report.json", c.encoded), ("report.mac", c.mac)]

end Publication

/-! ## The system

Any number of calls publish at once. The database has one write transaction at a time; the
directories are outside of it, so the steps that make, rename and remove them interleave freely, and
an exception may come between any two. -/

/-- Where a call stands; inside its transaction, with the tables as it sees them. -/
inductive Phase where
  | start
  /-- the staging directory is made -/
  | made
  | staged
  | begun (r : Registry)
  | checked (r : Registry)
  | stored (r : Registry)
  | announced (r : Registry)
  | hooked (r : Registry)
  | renamed (r : Registry)
  | returned
  /-- rolled back, with the directories still to be removed -/
  | clearing (published : Bool)
  | clearingDestination
  | raised

namespace Phase

/-- The call holds the lock of the database. -/
def inTransaction : Phase → Bool
  | begun _ | checked _ | stored _ | announced _ | hooked _ | renamed _ => true
  | _ => false

/-- The call can raise. -/
def running : Phase → Bool
  | start | made | staged => true
  | phase => phase.inTransaction

/-- `created` is set. -/
def created : Phase → Bool
  | made | staged => true
  | phase => phase.inTransaction

/-- `published` is set. -/
def published : Phase → Bool
  | renamed _ => true
  | _ => false

/-- The call has found the destination absent, or has made it. -/
def looks : Phase → Bool
  | checked _ | stored _ | announced _ | hooked _ | renamed _ => true
  | returned | clearing true | clearingDestination => true
  | _ => false

/-- The destination is the call's own. -/
def owns : Phase → Bool
  | renamed _ | returned | clearing true | clearingDestination => true
  | _ => false

end Phase

/-- A directory under an evaluation id. `creator` is the call that renamed it there, if any did. -/
structure Directory (τ : Type) where
  creator : Option τ
  files : List (String × String)

/-- The committed registry, the lock, the calls and the directories of the reports. -/
structure System (τ : Type) where
  committed : Registry
  /-- who holds the lock of the database -/
  holder : Option τ := none
  phase : τ → Phase := fun _ => .start
  /-- each call has its own staging directory -/
  staging : τ → Option (List (String × String)) := fun _ => none
  destination : String → Option (Directory τ) := fun _ => none

/-- What other transactions on the database keep. -/
structure Keeps (r r' : Registry) : Prop where
  evaluationReports : r'.evaluationReports = r.evaluationReports
  baselines : r'.baselines = r.baselines

section Step

variable (foundationId : String) {τ : Type} [DecidableEq τ] (calls : τ → Publication)

/-- The call goes on to its next phase. -/
def System.goto (s : System τ) (t : τ) (phase : Phase) : System τ :=
  { s with phase := Function.update s.phase t phase }

/-- A step of one of the calls, or a transaction of someone else. -/
inductive Step : System τ → System τ → Prop
  | mkdir {s : System τ} {t : τ} (start : s.phase t = .start)
      (authorized : Registry.authorize (calls t).identity (calls t).tenants = .ok ()) :
      Step s { s.goto t .made with staging := Function.update s.staging t (some []) }
  | write {s : System τ} {t : τ} (made : s.phase t = .made) :
      Step s { s.goto t .staged with
        staging := Function.update s.staging t (some (calls t).files) }
  | begin_ {s : System τ} {t : τ} (staged : s.phase t = .staged) (free : s.holder = none) :
      Step s { s.goto t (.begun s.committed) with holder := some t }
  | check {s : System τ} {t : τ} {r : Registry} (begun : s.phase t = .begun r)
      (new : r.evaluationReports (calls t).evaluationId = none)
      (absent : s.destination (calls t).evaluationId = none)
      (expected : (calls t).storedBaseline r = (calls t).expectedBaseline) :
      Step s (s.goto t (.checked r))
  | store {s : System τ} {t : τ} {r : Registry} (checked : s.phase t = .checked r) :
      Step s (s.goto t (.stored ((calls t).store foundationId r)))
  | announce {s : System τ} {t : τ} {r : Registry} (stored : s.phase t = .stored r) :
      Step s (s.goto t (.announced ((calls t).announce r)))
  | hook {s : System τ} {t : τ} {r r' : Registry} (announced : s.phase t = .announced r)
      (recorded : (calls t).hook r = .ok r') : Step s (s.goto t (.hooked r'))
  | rename {s : System τ} {t : τ} {r : Registry} {files : List (String × String)}
      (hooked : s.phase t = .hooked r) (staged : s.staging t = some files) :
      Step s { s.goto t (.renamed r) with
        staging := Function.update s.staging t none
        destination :=
          Function.update s.destination (calls t).evaluationId (some ⟨some t, files⟩) }
  | commit {s : System τ} {t : τ} {r : Registry} (renamed : s.phase t = .renamed r) :
      Step s { s.goto t .returned with committed := r, holder := none }
  /-- an exception, at any point: the transaction is rolled back -/
  | fail {s : System τ} {t : τ} (running : (s.phase t).running = true) :
      Step s { s.goto t
          (if (s.phase t).created then .clearing (s.phase t).published else .raised) with
        holder := if (s.phase t).inTransaction then none else s.holder }
  /-- `rmtree` of the staging directory -/
  | clear {s : System τ} {t : τ} {published : Bool} (clearing : s.phase t = .clearing published) :
      Step s { s.goto t (if published then .clearingDestination else .raised) with
        staging := Function.update s.staging t none }
  | clearDestination {s : System τ} {t : τ} (clearing : s.phase t = .clearingDestination) :
      Step s { s.goto t .raised with
        destination := Function.update s.destination (calls t).evaluationId none }
  | other {s : System τ} {r : Registry} (free : s.holder = none) (keeps : Keeps s.committed r) :
      Step s { s with committed := r }

/-- The foreign key of the baselines. -/
def Referenced (r : Registry) : Prop :=
  ∀ k id, r.baselines k = some id → (r.evaluationReports id).isSome

/-- Before any of the calls. -/
structure Initial (s : System τ) : Prop where
  holder : s.holder = none
  phase : ∀ t, s.phase t = .start
  staging : ∀ t, s.staging t = none
  destination : ∀ id d, s.destination id = some d → d.creator = none
  referenced : Referenced s.committed

end Step

/-! ## Whole calls

A call that returns has seen the tables of one moment and written them at the next. Since its
transaction is exclusive, all it did to them can be said at once, as one function of the tables that
it found. -/

section Serial

variable {foundationId : String} {c : Publication} {r r' : Registry}

theorem hook_keeps (h : c.hook r = .ok r') : Keeps r r' := by
  rcases Registry.recordEvaluation_eq_ok h with rfl | ⟨_, _, -, rfl⟩
  · exact ⟨rfl, rfl⟩
  · exact ⟨rfl, rfl⟩

/-- What a committed call has found and what it leaves in the two tables. -/
structure Published (foundationId : String) (c : Publication) (r r' : Registry) : Prop where
  new : r.evaluationReports c.evaluationId = none
  expected : c.storedBaseline r = c.expectedBaseline
  keeps : Keeps (c.store foundationId r) r'

theorem publish_eq_ok : c.publish foundationId r = .ok r' ↔
    Registry.authorize c.identity c.tenants = .ok () ∧
      r.evaluationReports c.evaluationId = none ∧ c.storedBaseline r = c.expectedBaseline ∧
      c.hook (c.announce (c.store foundationId r)) = .ok r' := by
  unfold Publication.publish Registry.publish
  constructor
  · intro h
    obtain ⟨_, hauthorized, h⟩ := Except.bind_eq_ok.1 h
    obtain ⟨_, hnew, h⟩ := Except.bind_eq_ok.1 h
    obtain ⟨_, hexpected, h⟩ := Except.bind_eq_ok.1 h
    exact ⟨hauthorized, Option.isNone_iff_eq_none.1 (require_eq_ok.1 hnew),
      of_decide_eq_true (require_eq_ok.1 hexpected), h⟩
  · rintro ⟨hauthorized, hnew, hexpected, hhook⟩
    exact Except.bind_eq_ok.2 ⟨(), hauthorized,
      Except.bind_eq_ok.2 ⟨(), require_of (Option.isNone_iff_eq_none.2 hnew) _,
        Except.bind_eq_ok.2 ⟨(), require_of (decide_eq_true hexpected) _, hhook⟩⟩⟩

theorem published_of_publish (h : c.publish foundationId r = .ok r') : Published foundationId c r r' := by
  obtain ⟨-, hnew, hexpected, hhook⟩ := publish_eq_ok.1 h
  have hkeeps := hook_keeps hhook
  exact ⟨hnew, hexpected, hkeeps.evaluationReports, hkeeps.baselines⟩

namespace Published

variable (h : Published foundationId c r r')
include h

theorem evaluationReports : r'.evaluationReports = Function.update r.evaluationReports c.evaluationId
    (some (c.tenants.insertionSort (· ≤ ·), c.report)) := h.keeps.evaluationReports

theorem reported : (r'.evaluationReports c.evaluationId).isSome := by
  rw [h.evaluationReports, Function.update_self]
  rfl

theorem reports_kept {id : String} (hid : (r.evaluationReports id).isSome) :
    (r'.evaluationReports id).isSome := by
  have hne : id ≠ c.evaluationId := by
    rintro rfl
    rw [h.new] at hid
    cases hid
  rwa [h.evaluationReports, Function.update_of_ne hne]

/-- A call that does not lock leaves every baseline, and one that locks leaves the others. -/
theorem baselines_of_ne {k : String × String} (hk : c.lockBaseline foundationId = false ∨ k ≠ c.key) :
    r'.baselines k = r.baselines k := by
  rw [h.keeps.baselines, Publication.store, Registry.storeReport]
  dsimp only
  rcases hk with hlock | hne
  · rw [hlock]
    rfl
  · split
    · exact Function.update_of_ne hne _ _
    · rfl

theorem baselines_key (hlock : c.lockBaseline foundationId = true) :
    r'.baselines c.key = some c.evaluationId := by
  rw [h.keeps.baselines, Publication.store, Registry.storeReport]
  dsimp only
  rw [if_pos hlock]
  exact Function.update_self ..

/-- **Compare and swap.** What a call that locks replaces is what it compared: both have the foundation's
    key. -/
theorem baselines_expected (hlock : c.lockBaseline foundationId = true) :
    r.baselines c.key = c.expectedBaseline := by
  obtain ⟨hlocking, -⟩ := Bool.and_eq_true_iff.1 hlock
  obtain ⟨hsame, -⟩ := Bool.and_eq_true_iff.1 hlocking
  rw [← h.expected, Publication.storedBaseline, of_decide_eq_true hsame]
  rfl

theorem referenced (href : Referenced r) : Referenced r' := by
  intro k id hk
  by_cases hkey : c.lockBaseline foundationId = true ∧ k = c.key
  · obtain ⟨hlock, rfl⟩ := hkey
    rw [h.baselines_key hlock, Option.some.injEq] at hk
    exact hk ▸ h.reported
  · rw [h.baselines_of_ne (by simpa [imp_iff_not_or] using hkey)] at hk
    exact h.reports_kept (href k id hk)

end Published

/-! ## Calls one after another

A history is what the tables would be if the committed calls had been made alone, in the order of
their commits, with the changes of other parts of the registry between them. -/

variable (foundationId) {τ : Type} (calls : τ → Publication)

/-- The calls of a list run one after another. -/
def History : Registry → List τ → Registry → Prop :=
  Serial (fun t r r' => (calls t).publish foundationId r = .ok r') Keeps

variable {foundationId} {calls} {ts : List τ}

/-- Reports stay, and a baseline that changes is set to a new report. -/
theorem History.baselines (h : History foundationId calls r ts r') :
    (∀ id, (r.evaluationReports id).isSome → (r'.evaluationReports id).isSome) ∧
      ∀ k, r'.baselines k = r.baselines k ∨
        ∃ id, r'.baselines k = some id ∧ r.evaluationReports id = none := by
  refine Serial.of_invariant (fun _ r' =>
    (∀ id, (r.evaluationReports id).isSome → (r'.evaluationReports id).isSome) ∧
      ∀ k, r'.baselines k = r.baselines k ∨
        ∃ id, r'.baselines k = some id ∧ r.evaluationReports id = none) h ?_ ?_
    ⟨fun _ hid => hid, fun _ => .inl rfl⟩
  · intro _ u v ⟨hreports, hbaselines⟩ hkeeps
    rw [hkeeps.evaluationReports, hkeeps.baselines]
    exact ⟨hreports, hbaselines⟩
  · intro _ t u v ⟨hreports, hbaselines⟩ hpublish
    have hpublished := published_of_publish hpublish
    refine ⟨fun id hid => hpublished.reports_kept (hreports id hid), fun k => ?_⟩
    by_cases hk : (calls t).lockBaseline foundationId = true ∧ k = (calls t).key
    · obtain ⟨hlock, rfl⟩ := hk
      refine .inr ⟨_, hpublished.baselines_key hlock, ?_⟩
      by_contra hsome
      have hkept := hreports _ (Option.isSome_iff_ne_none.2 hsome)
      rw [hpublished.new] at hkept
      cases hkept
    · rw [hpublished.baselines_of_ne (by simpa [imp_iff_not_or] using hk)]
      exact hbaselines k

theorem History.referenced (h : History foundationId calls r ts r') (href : Referenced r) :
    Referenced r' := by
  refine Serial.of_invariant (fun _ r' => Referenced r') h ?_ ?_ href
  · intro _ u v hu hkeeps k id hk
    rw [hkeeps.baselines] at hk
    rw [hkeeps.evaluationReports]
    exact hu k id hk
  · intro _ t u v hu hpublish
    exact (published_of_publish hpublish).referenced hu

/-- Two calls that lock one key have not expected the same baseline. -/
theorem History.expected_ne {before after : List τ} {x y : τ} (href : Referenced r)
    (h : History foundationId calls r (before ++ x :: after) r') (hy : y ∈ after)
    (hx : (calls x).lockBaseline foundationId = true) (hlock : (calls y).lockBaseline foundationId = true)
    (hkey : (calls x).key = (calls y).key) :
    (calls x).expectedBaseline ≠ (calls y).expectedBaseline := by
  intro hsame
  obtain ⟨u, u', hbefore, hpublish, hafter⟩ := Serial.split h rfl
  obtain ⟨middle, rest, rfl⟩ := List.append_of_mem hy
  obtain ⟨v, v', hmiddle, hpublish', -⟩ := Serial.split hafter rfl
  have hpublished := published_of_publish hpublish
  -- `y` finds what `x` has replaced
  have hfound : u.baselines (calls x).key = v.baselines (calls x).key := by
    rw [hpublished.baselines_expected hx, hsame, hkey,
      (published_of_publish hpublish').baselines_expected hlock]
  have hreferenced : ∀ id, v.baselines (calls x).key = some id → (u.evaluationReports id).isSome :=
    fun id hid => History.referenced hbefore href _ id (hfound.trans hid)
  rcases (History.baselines hmiddle).2 (calls x).key with hkept | ⟨id, hset, hnew⟩
  · have hold := hreferenced _ (hkept.trans (hpublished.baselines_key hx))
    rw [hpublished.new] at hold
    cases hold
  · have hold := hpublished.reports_kept (hreferenced id hset)
    rw [hnew] at hold
    cases hold

end Serial

/-! ## The invariant

A call inside its transaction works on a copy of the committed tables, which nobody else can change
meanwhile, and knows of the directories it has made that they are its own. -/

section Invariant

variable (foundationId : String) {τ : Type} (calls : τ → Publication)

/-- The check in the transaction has passed. -/
structure Admitted (c : Publication) (r : Registry) : Prop where
  authorized : Registry.authorize c.identity c.tenants = .ok ()
  new : r.evaluationReports c.evaluationId = none
  expected : c.storedBaseline r = c.expectedBaseline

/-- What holds of a call, by where it stands. -/
def PhaseInv (t : τ) (committed : Registry) (staging : Option (List (String × String)))
    (place : Option (Directory τ)) : Phase → Prop
  | .start | .raised => staging = none
  | .made => Registry.authorize (calls t).identity (calls t).tenants = .ok ()
  | .staged =>
    Registry.authorize (calls t).identity (calls t).tenants = .ok () ∧
      staging = some (calls t).files
  | .begun r =>
    r = committed ∧ Registry.authorize (calls t).identity (calls t).tenants = .ok () ∧
      staging = some (calls t).files
  | .checked r =>
    r = committed ∧ Admitted (calls t) committed ∧ staging = some (calls t).files ∧ place = none
  | .stored r =>
    r = (calls t).store foundationId committed ∧ Admitted (calls t) committed ∧
      staging = some (calls t).files ∧ place = none
  | .announced r =>
    r = (calls t).announce ((calls t).store foundationId committed) ∧
      Admitted (calls t) committed ∧ staging = some (calls t).files ∧ place = none
  | .hooked r =>
    (calls t).publish foundationId committed = .ok r ∧ staging = some (calls t).files ∧ place = none
  | .renamed r =>
    (calls t).publish foundationId committed = .ok r ∧ staging = none ∧
      place = some ⟨some t, (calls t).files⟩
  | .returned | .clearingDestination =>
    staging = none ∧ place = some ⟨some t, (calls t).files⟩
  | .clearing published => published = true → place = some ⟨some t, (calls t).files⟩

/-- What holds after every step, for the registry `r₀` at the start. -/
structure Inv (r₀ : Registry) (s : System τ) : Prop where
  guards : Locks.Guards s.holder Phase.inTransaction s.phase
  phases : ∀ t, PhaseInv foundationId calls t s.committed (s.staging t)
    (s.destination (calls t).evaluationId) (s.phase t)
  /-- a directory that a call has made is under its id, until the call has removed it -/
  creators : ∀ id d t, s.destination id = some d → d.creator = some t →
    id = (calls t).evaluationId ∧ (s.phase t).owns = true
  /-- the tables are what the calls that returned have left, one after another -/
  history : ∃ ts, ts.Nodup ∧ (∀ t, t ∈ ts ↔ s.phase t = .returned) ∧
    History foundationId calls r₀ ts s.committed

end Invariant

/-! ## Steps

The invariant speaks of each call by its phase. A step moves one call; the others keep their phase,
and their tables and directories are not touched, since a call that is in its transaction excludes
the rest and each has a staging directory of its own. -/

section Steps

variable {foundationId : String} {τ : Type} {calls : τ → Publication} {r₀ : Registry}
  {s s' : System τ}

theorem Inv.init (h : Initial s) : Inv foundationId calls s.committed s where
  guards t ht := by
    rw [h.phase] at ht
    cases ht
  phases t := by
    rw [h.phase]
    exact h.staging t
  creators id d t hd ht := by
    rw [h.destination id d hd] at ht
    cases ht
  history := ⟨[], List.nodup_nil, fun t => by simp [h.phase], .nil⟩

theorem Inv.phase_at (h : Inv foundationId calls r₀ s) {t : τ} {phase : Phase}
    (ht : s.phase t = phase) :
    PhaseInv foundationId calls t s.committed (s.staging t) (s.destination (calls t).evaluationId)
      phase :=
  ht ▸ h.phases t

/-- A call depends on the tables inside its transaction only, and on its destination where it has
    looked at it. -/
theorem PhaseInv.frame {t : τ} {committed committed' : Registry}
    {staging : Option (List (String × String))} {place place' : Option (Directory τ)} {phase : Phase}
    (h : PhaseInv foundationId calls t committed staging place phase)
    (hcommitted : phase.inTransaction = true → committed' = committed)
    (hplace : phase.looks = true → place' = place) :
    PhaseInv foundationId calls t committed' staging place' phase := by
  cases phase with
  | start | raised | made | staged => exact h
  | begun r =>
    rw [hcommitted rfl]
    exact h
  | checked r | stored r | announced r | hooked r | renamed r =>
    rw [hcommitted rfl, hplace rfl]
    exact h
  | returned | clearingDestination =>
    rw [hplace rfl]
    exact h
  | clearing published =>
    cases published with
    | false => exact fun hpublished => absurd hpublished Bool.false_ne_true
    | true =>
      rw [hplace rfl]
      exact h

theorem PhaseInv.place {t : τ} {committed : Registry} {staging : Option (List (String × String))}
    {place : Option (Directory τ)} {phase : Phase}
    (h : PhaseInv foundationId calls t committed staging place phase) (hlooks : phase.looks = true) :
    place = none ∧ phase.inTransaction = true ∨ place = some ⟨some t, (calls t).files⟩ := by
  cases phase with
  | start | raised | made | staged | begun r => cases hlooks
  | checked r | stored r | announced r => exact .inl ⟨h.2.2.2, rfl⟩
  | hooked r => exact .inl ⟨h.2.2, rfl⟩
  | renamed r => exact .inr h.2.2
  | returned | clearingDestination => exact .inr h.2
  | clearing published =>
    cases published with
    | false => cases hlooks
    | true => exact .inr (h rfl)

theorem Inv.other (h : Inv foundationId calls r₀ s) {r : Registry} (free : s.holder = none)
    (keeps : Keeps s.committed r) : Inv foundationId calls r₀ { s with committed := r } := by
  obtain ⟨ts, hnodup, hreturned, hhistory⟩ := h.history
  refine ⟨h.guards, fun t => (h.phases t).frame (fun hin => ?_) fun _ => rfl, h.creators,
    ts, hnodup, hreturned, hhistory.other keeps⟩
  have hholder := h.guards t hin
  rw [free] at hholder
  cases hholder

/-- Of two calls that returned and lock one key, one has found what the other left. -/
theorem Inv.expected_ne (h : Inv foundationId calls r₀ s) (href : Referenced r₀) {t t' : τ}
    (hne : t ≠ t') (ht : s.phase t = .returned) (ht' : s.phase t' = .returned)
    (hlock : (calls t).lockBaseline foundationId = true)
    (hlock' : (calls t').lockBaseline foundationId = true) (hkey : (calls t).key = (calls t').key) :
    (calls t).expectedBaseline ≠ (calls t').expectedBaseline := by
  obtain ⟨ts, -, hreturned, hhistory⟩ := h.history
  obtain ⟨before, after, rfl⟩ := List.append_of_mem ((hreturned t).2 ht)
  rcases List.mem_append.1 ((hreturned t').2 ht') with hbefore | hafter
  · obtain ⟨first, middle, rfl⟩ := List.append_of_mem hbefore
    rw [List.append_assoc, List.cons_append] at hhistory
    exact (History.expected_ne href hhistory (List.mem_append_right _ List.mem_cons_self) hlock' hlock
      hkey.symm).symm
  · rcases List.mem_cons.1 hafter with heq | hafter
    · exact absurd heq.symm hne
    · exact History.expected_ne href hhistory hafter hlock hlock' hkey

variable [DecidableEq τ]

theorem owns_update {t : τ} {phase : Phase} (howns : (s.phase t).owns = true → phase.owns = true)
    {t' : τ} (ht' : (s.phase t').owns = true) : (Function.update s.phase t phase t').owns = true := by
  by_cases heq : t' = t
  · subst heq
    rw [Function.update_self]
    exact howns ht'
  · rwa [Function.update_of_ne heq]

/-- The history goes on where a call that has not returned moves without returning. -/
theorem Inv.history_update (h : Inv foundationId calls r₀ s) {t : τ} {phase : Phase}
    (hbefore : s.phase t ≠ .returned) (hafter : phase ≠ .returned) :
    ∃ ts, ts.Nodup ∧ (∀ t', t' ∈ ts ↔ Function.update s.phase t phase t' = .returned) ∧
      History foundationId calls r₀ ts s.committed := by
  obtain ⟨ts, hnodup, hreturned, hhistory⟩ := h.history
  refine ⟨ts, hnodup, fun t' => ?_, hhistory⟩
  rw [hreturned]
  by_cases heq : t' = t
  · subst heq
    rw [Function.update_self]
    exact iff_of_false hbefore hafter
  · rw [Function.update_of_ne heq]

/-- A step that only moves one call, beside its staging directory and the lock. -/
theorem Inv.move (h : Inv foundationId calls r₀ s) {t : τ} {phase : Phase}
    (hphase : s'.phase = Function.update s.phase t phase)
    (hcommitted : s'.committed = s.committed)
    (hstaging : ∀ t', t' ≠ t → s'.staging t' = s.staging t')
    (hdestination : s'.destination = s.destination)
    (hguards : Locks.Guards s'.holder Phase.inTransaction (Function.update s.phase t phase))
    (hself : PhaseInv foundationId calls t s.committed (s'.staging t)
      (s.destination (calls t).evaluationId) phase)
    (howns : (s.phase t).owns = true → phase.owns = true)
    (hbefore : s.phase t ≠ .returned) (hafter : phase ≠ .returned) :
    Inv foundationId calls r₀ s' where
  guards := by rwa [hphase]
  phases := by
    rw [hphase, hcommitted, hdestination]
    refine Locks.forall_update hself fun t' hne => ?_
    rw [hstaging t' hne]
    exact h.phases t'
  creators id d t' hd ht' := by
    rw [hdestination] at hd
    rw [hphase]
    obtain ⟨hid, hheld⟩ := h.creators id d t' hd ht'
    exact ⟨hid, owns_update howns hheld⟩
  history := by
    rw [hphase, hcommitted]
    exact h.history_update hbefore hafter

/-- The destination that the call makes is nobody else's. -/
theorem Inv.rename (h : Inv foundationId calls r₀ s) {t : τ} {r : Registry}
    {files : List (String × String)} (ht : s.phase t = .hooked r) (hstaged : s.staging t = some files) :
    Inv foundationId calls r₀ { s.goto t (.renamed r) with
      staging := Function.update s.staging t none
      destination :=
        Function.update s.destination (calls t).evaluationId (some ⟨some t, files⟩) } := by
  obtain ⟨hpublish, hfiles, habsent⟩ := h.phase_at ht
  obtain rfl : files = (calls t).files := Option.some.inj (hstaged.symm.trans hfiles)
  have hcritical : (s.phase t).inTransaction = true := by rw [ht]; rfl
  have hothers : ∀ t', t' ≠ t → PhaseInv foundationId calls t' s.committed
      (Function.update s.staging t none t')
      (Function.update s.destination (calls t).evaluationId (some ⟨some t, (calls t).files⟩)
        (calls t').evaluationId) (s.phase t') := by
    intro t' hne
    rw [Function.update_of_ne hne]
    refine (h.phases t').frame (fun _ => rfl) fun hlooks => Function.update_of_ne ?_ _ _
    intro hid
    rcases (h.phases t').place hlooks with ⟨-, hin⟩ | hplace
    · rw [h.guards.other hcritical hne] at hin
      cases hin
    · rw [hid, habsent] at hplace
      cases hplace
  refine ⟨h.guards.keep fun _ => hcritical,
    Locks.forall_update ⟨hpublish, Function.update_self .., Function.update_self ..⟩ hothers,
    fun id d t' hd ht' => ?_, h.history_update (by rw [ht]; nofun) nofun⟩
  change Function.update s.destination _ _ id = some d at hd
  change _ ∧ (Function.update s.phase t (.renamed r) t').owns = true
  by_cases hid : id = (calls t).evaluationId
  · subst hid
    rw [Function.update_self, Option.some.injEq] at hd
    subst hd
    obtain rfl : t = t' := Option.some.inj ht'
    rw [Function.update_self]
    exact ⟨rfl, rfl⟩
  · rw [Function.update_of_ne hid] at hd
    obtain ⟨hid', hheld⟩ := h.creators id d t' hd ht'
    exact ⟨hid', owns_update (fun _ => rfl) hheld⟩

/-- The tables are those of the whole call. -/
theorem Inv.commit (h : Inv foundationId calls r₀ s) {t : τ} {r : Registry}
    (ht : s.phase t = .renamed r) :
    Inv foundationId calls r₀ { s.goto t .returned with committed := r, holder := none } := by
  obtain ⟨hpublish, hinv⟩ := h.phase_at ht
  have hcritical : (s.phase t).inTransaction = true := by rw [ht]; rfl
  have hothers : ∀ t', t' ≠ t → PhaseInv foundationId calls t' r (s.staging t')
      (s.destination (calls t').evaluationId) (s.phase t') := by
    intro t' hne
    refine (h.phases t').frame (fun hin => ?_) fun _ => rfl
    rw [h.guards.other hcritical hne] at hin
    cases hin
  refine ⟨h.guards.release hcritical rfl, Locks.forall_update hinv hothers, fun id d t' hd ht' => ?_, ?_⟩
  · obtain ⟨hid, hheld⟩ := h.creators id d t' hd ht'
    exact ⟨hid, owns_update (fun _ => rfl) hheld⟩
  · obtain ⟨ts, hnodup, hreturned, hhistory⟩ := h.history
    have hnew : t ∉ ts := fun hmem => by
      rw [hreturned, ht] at hmem
      cases hmem
    refine ⟨ts ++ [t], List.nodup_append'.2 ⟨hnodup, List.nodup_singleton t, by simpa using hnew⟩,
      fun t' => ?_, hhistory.snoc hpublish⟩
    change _ ↔ Function.update s.phase t .returned t' = .returned
    rw [List.mem_append, List.mem_singleton, hreturned]
    by_cases heq : t' = t
    · subst heq
      simp
    · rw [Function.update_of_ne heq]
      simp [heq]

/-- What a failed call removes is its own. -/
theorem Inv.clearDestination (h : Inv foundationId calls r₀ s) {t : τ}
    (ht : s.phase t = .clearingDestination) :
    Inv foundationId calls r₀ { s.goto t .raised with
      destination := Function.update s.destination (calls t).evaluationId none } := by
  obtain ⟨hstaging, hown⟩ := h.phase_at ht
  have hothers : ∀ t', t' ≠ t → PhaseInv foundationId calls t' s.committed (s.staging t')
      (Function.update s.destination (calls t).evaluationId none (calls t').evaluationId)
      (s.phase t') := by
    intro t' hne
    refine (h.phases t').frame (fun _ => rfl) fun hlooks => Function.update_of_ne ?_ _ _
    intro hid
    rcases (h.phases t').place hlooks with ⟨hplace, -⟩ | hplace
    · rw [hid, hown] at hplace
      cases hplace
    · rw [hid, hown] at hplace
      cases hplace
      exact hne rfl
  refine ⟨h.guards.keep nofun, Locks.forall_update hstaging hothers, fun id d t' hd ht' => ?_,
    h.history_update (by rw [ht]; nofun) nofun⟩
  change Function.update s.destination _ _ id = some d at hd
  change _ ∧ (Function.update s.phase t .raised t').owns = true
  by_cases hid : id = (calls t).evaluationId
  · subst hid
    rw [Function.update_self] at hd
    cases hd
  · rw [Function.update_of_ne hid] at hd
    obtain ⟨hid', hheld⟩ := h.creators id d t' hd ht'
    have hne : t' ≠ t := by
      rintro rfl
      exact hid hid'
    rw [Function.update_of_ne hne]
    exact ⟨hid', hheld⟩

theorem Inv.step (h : Inv foundationId calls r₀ s) (hstep : Step foundationId calls s s') :
    Inv foundationId calls r₀ s' := by
  cases hstep with
  | mkdir start authorized =>
    exact h.move rfl rfl (fun _ hne => Function.update_of_ne hne _ _) rfl
      (h.guards.keep (by simp [Phase.inTransaction])) authorized (by simp [start, Phase.owns])
      (by simp [start]) (by simp)
  | @write t made =>
    have hinv := h.phase_at made
    refine h.move rfl rfl (fun _ hne => Function.update_of_ne hne _ _) rfl
      (h.guards.keep (by simp [Phase.inTransaction])) ⟨hinv, ?_⟩ (by simp [made, Phase.owns])
      (by simp [made]) (by simp)
    exact Function.update_self ..
  | @begin_ t staged free =>
    have hinv := h.phase_at staged
    refine h.move rfl rfl (fun _ _ => rfl) rfl ?_ ⟨rfl, hinv⟩ (by simp [staged, Phase.owns])
      (by simp [staged]) (by simp)
    have hguards := h.guards
    rw [free] at hguards
    exact hguards.acquire
  | @check t r begun new absent expected =>
    obtain ⟨rfl, hauthorized, hstaged⟩ := h.phase_at begun
    exact h.move rfl rfl (fun _ _ => rfl) rfl (h.guards.keep fun _ => by rw [begun]; rfl)
      ⟨rfl, ⟨hauthorized, new, expected⟩, hstaged, absent⟩ (by simp [begun, Phase.owns])
      (by simp [begun]) (by simp)
  | @store t r checked =>
    obtain ⟨rfl, hinv⟩ := h.phase_at checked
    exact h.move rfl rfl (fun _ _ => rfl) rfl (h.guards.keep fun _ => by rw [checked]; rfl)
      ⟨rfl, hinv⟩ (by simp [checked, Phase.owns]) (by simp [checked]) (by simp)
  | @announce t r stored =>
    obtain ⟨rfl, hinv⟩ := h.phase_at stored
    exact h.move rfl rfl (fun _ _ => rfl) rfl (h.guards.keep fun _ => by rw [stored]; rfl)
      ⟨rfl, hinv⟩ (by simp [stored, Phase.owns]) (by simp [stored]) (by simp)
  | @hook t r r' announced recorded =>
    obtain ⟨rfl, hadmitted, hinv⟩ := h.phase_at announced
    refine h.move rfl rfl (fun _ _ => rfl) rfl (h.guards.keep fun _ => by rw [announced]; rfl)
      ⟨?_, hinv⟩ (by simp [announced, Phase.owns]) (by simp [announced]) (by simp)
    exact publish_eq_ok.2 ⟨hadmitted.authorized, hadmitted.new, hadmitted.expected, recorded⟩
  | rename hooked staged => exact h.rename hooked staged
  | commit renamed => exact h.commit renamed
  | @fail t running =>
    have htarget : (if (s.phase t).created then Phase.clearing (s.phase t).published
        else .raised).inTransaction = false := by split <;> rfl
    refine h.move rfl rfl (fun _ _ => rfl) rfl ?_ ?_ ?_ ?_ (by split <;> simp)
    · by_cases hin : (s.phase t).inTransaction = true
      · simp only [hin, if_true]
        exact h.guards.release hin htarget
      · simp only [hin]
        exact h.guards.keep fun hcritical => absurd hcritical (by simp [htarget])
    · cases hphase : s.phase t with
      | start => exact (h.phase_at hphase : s.staging t = none)
      | made | staged | begun r | checked r | stored r | announced r | hooked r =>
        exact fun hpublished => absurd hpublished Bool.false_ne_true
      | renamed r => exact fun _ => (h.phase_at hphase).2.2
      | returned | clearing published | clearingDestination | raised =>
        rw [hphase] at running
        cases running
    · cases hphase : s.phase t with
      | renamed r => exact fun _ => rfl
      | start | made | staged | begun r | checked r | stored r | announced r | hooked r => simp [Phase.owns]
      | returned | clearing published | clearingDestination | raised =>
        rw [hphase] at running
        cases running
    · intro hreturned
      rw [hreturned] at running
      cases running
  | @clear t published clearing =>
    have hinv := h.phase_at clearing
    refine h.move rfl rfl (fun _ hne => Function.update_of_ne hne _ _) rfl
      (h.guards.keep (by split <;> simp [Phase.inTransaction])) ?_ ?_ (by simp [clearing])
      (by split <;> simp)
    · cases published with
      | false => exact Function.update_self ..
      | true => exact ⟨Function.update_self .., hinv rfl⟩
    · rw [clearing]
      cases published with
      | false => simp [Phase.owns]
      | true => exact fun _ => rfl
  | clearDestination clearing => exact h.clearDestination clearing
  | other free keeps => exact h.other free keeps

theorem Inv.run (h₀ : Initial s) (hrun : Relation.ReflTransGen (Step foundationId calls) s s') :
    Inv foundationId calls s.committed s' := by
  have hkeep : ∀ t u, Inv foundationId calls s.committed t → Step foundationId calls t u →
      Inv foundationId calls s.committed u := fun _ _ hinv hstep => hinv.step hstep
  exact Runs.reflTransGen_of_invariant hkeep (.init h₀) hrun

/-- A call writes the tables with the step that it returns by, and only then. -/
theorem committed_of_step (hstep : Step foundationId calls s s') {t : τ}
    (hmoves : s'.phase t ≠ s.phase t) (hreturned : s'.phase t ≠ .returned) :
    s'.committed = s.committed := by
  cases hstep with
  | @commit t' r renamed =>
    by_cases heq : t = t'
    · subst heq
      exact absurd (Function.update_self ..) hreturned
    · exact absurd (Function.update_of_ne heq _ _) hmoves
  | other => exact absurd rfl hmoves
  | _ => rfl

/-- The compare and swap of one step. -/
theorem Inv.baseline_of_step (h : Inv foundationId calls r₀ s) (hstep : Step foundationId calls s s')
    {k : String × String} (hchanged : s'.committed.baselines k ≠ s.committed.baselines k) :
    ∃ t, s.phase t ≠ .returned ∧ s'.phase t = .returned ∧
      (calls t).lockBaseline foundationId = true ∧ k = (calls t).key ∧
      s.committed.baselines k = (calls t).expectedBaseline := by
  cases hstep with
  | @commit t r renamed =>
    have hpublished := published_of_publish (h.phase_at renamed).1
    have hlocks : (calls t).lockBaseline foundationId = true ∧ k = (calls t).key := by
      by_contra hnot
      exact hchanged (hpublished.baselines_of_ne (by simpa [imp_iff_not_or] using hnot))
    obtain ⟨hlock, rfl⟩ := hlocks
    exact ⟨t, by rw [renamed]; nofun, Function.update_self .., hlock, rfl,
      hpublished.baselines_expected hlock⟩
  | @other r free keeps => exact absurd (congrFun keeps.baselines k) hchanged
  | _ => exact absurd rfl hchanged

/-- **No lost update of a baseline.** In any interleaving of publications a baseline changes only by one
    that locks it and expected what is stored when it commits; two that locked one key have not expected
    the same; the tables, with their events, are what those that returned have left one after another, and
    each of the others has not written them; and one that raised has left no directory. -/
theorem no_lost_baseline (h₀ : Initial s)
    (hrun : Relation.ReflTransGen (Step foundationId calls) s s') :
    (∀ s'' k, Step foundationId calls s' s'' → s''.committed.baselines k ≠ s'.committed.baselines k →
      ∃ t, s'.phase t ≠ .returned ∧ s''.phase t = .returned ∧
        (calls t).lockBaseline foundationId = true ∧ k = (calls t).key ∧
        s'.committed.baselines k = (calls t).expectedBaseline) ∧
    (∀ t t', t ≠ t' → s'.phase t = .returned → s'.phase t' = .returned →
      (calls t).lockBaseline foundationId = true → (calls t').lockBaseline foundationId = true →
      (calls t).key = (calls t').key → (calls t).expectedBaseline ≠ (calls t').expectedBaseline) ∧
    (∃ ts, ts.Nodup ∧ (∀ t, t ∈ ts ↔ s'.phase t = .returned) ∧
      History foundationId calls s.committed ts s'.committed) ∧
    (∀ s'' t, Step foundationId calls s' s'' → s''.phase t ≠ s'.phase t → s''.phase t ≠ .returned →
      s''.committed = s'.committed) ∧
    ∀ t, s'.phase t = .raised → s'.staging t = none ∧
      ∀ id d, s'.destination id = some d → d.creator ≠ some t := by
  have hinv := Inv.run h₀ hrun
  refine ⟨fun _ _ hstep => hinv.baseline_of_step hstep,
    fun _ _ => hinv.expected_ne h₀.referenced, hinv.history,
    fun _ _ hstep => committed_of_step hstep, fun t ht => ⟨hinv.phase_at ht, fun id d hd hcreator => ?_⟩⟩
  obtain ⟨-, howns⟩ := hinv.creators id d t hd hcreator
  rw [ht] at howns
  cases howns

end Steps

/-! Two evaluations of the foundation that began before either was published. -/

namespace Samples

/-- An operator of the tenant. -/
def operator : Identity :=
  { subjectIdPseudonymous := none, keyClass := .operator, datasetTenants := ["acme"] }

/-- Checks that accept everything. -/
def checks : RegistryChecks :=
  { identifier := fun _ => true
    verifyMetadata := fun _ => true
    verifyArtifact := fun _ => true
    verifyReport := fun _ => true
    gatesPass := fun report => report.passed
    progressionGate := none
    benchmarkGate := none }

/-- Two publications of reports on the foundation, of which each would fix the baseline. -/
def calls (late : Bool) : Publication where
  report :=
    { specification := ⟨if late then "e2" else "e1", "foundation", some "foundation", "tickets", "1",
        [.golden]⟩
      candidateManifestVersion := "1", candidateArtifactDigest := none
      baselineManifestVersion := some "1", baselineReportId := none
      datasetContentDigest := "digest", passed := true }
  tenants := ["acme"]
  identity := operator
  expectedBaseline := none
  checks
  encoded := "report"
  mac := "mac"

/-- Nothing is published yet. -/
def start : System Bool where
  committed := {}

theorem start_initial : Initial start :=
  ⟨rfl, fun _ => rfl, fun _ => rfl, nofun, nofun⟩

/-- Both are staged; one is published, then the other finds another baseline and raises. -/
theorem run : ∃ s, Relation.ReflTransGen (Step "foundation" calls) start s ∧
    s.phase false = .returned ∧ s.phase true = .raised := by
  have hmade : Step "foundation" calls start _ := Step.mkdir (t := false) rfl rfl
  have hstaged := ((Relation.ReflTransGen.single hmade).tail
    (Step.mkdir (t := true) rfl rfl)).tail (Step.write (t := false) rfl)
  have hcommitted := (((((((hstaged.tail (Step.begin_ (t := false) rfl rfl)).tail
    (Step.check (t := false) rfl rfl rfl rfl)).tail (Step.store (t := false) rfl)).tail
    (Step.announce (t := false) rfl)).tail (Step.hook (t := false) rfl rfl)).tail
    (Step.rename (t := false) rfl rfl)).tail (Step.commit (t := false) rfl))
  have hraised := (((hcommitted.tail (Step.write (t := true) rfl)).tail
    (Step.begin_ (t := true) rfl rfl)).tail (Step.fail (t := true) rfl)).tail
    (Step.clear (t := true) rfl)
  exact ⟨_, hraised, rfl, rfl⟩

end Samples

theorem late_publication_raises : ∃ s, Relation.ReflTransGen (Step "foundation" Samples.calls)
    Samples.start s ∧ s.phase false = .returned ∧ s.phase true = .raised ∧
    (∃ ts, ts.Nodup ∧ (∀ t, t ∈ ts ↔ s.phase t = .returned) ∧
      History "foundation" Samples.calls {} ts s.committed) ∧
    s.staging true = none ∧ ∀ id d, s.destination id = some d → d.creator ≠ some true := by
  obtain ⟨s, hrun, hreturned, hraised⟩ := Samples.run
  obtain ⟨-, -, hhistory, -, hcleared⟩ := no_lost_baseline Samples.start_initial hrun
  exact ⟨s, hrun, hreturned, hraised, hhistory, hcleared true hraised⟩

end Evaluation

end AdaptiveLlm
