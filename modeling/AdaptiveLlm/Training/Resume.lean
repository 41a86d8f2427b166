import AdaptiveLlm.Lib.Except
import AdaptiveLlm.Lib.Runs
import Mathlib.Algebra.GroupWithZero.Nat
import Mathlib.Data.List.Basic

set_option autoImplicit false

/-! # Resumed training

`LoraTrainer._train` (`training/lora.py`) works through its steps between boundaries, where a check or the
time limit may stop it, and leaves a checkpoint every so many steps and where it is stopped. A new
attempt goes on from the last checkpoint that it finds. The process may die at any moment: what it leaves
are the checkpoints that it renamed into place and the references that the job has of them.

One optimiser step is an arbitrary function of the weights, the state of the optimiser, the random state
and the batches. Tensors and reports are read from files as they were written.

The memory of the trainer is all that a later step depends on: weights, optimiser, random state,
position. A checkpoint has all of it, so an attempt that loads one goes on as the uninterrupted run
would have from there. What is proved along any sequence of stops and crashes is that every
checkpoint, referenced or left over, is one that the uninterrupted run goes through. Nothing is
assumed of the arithmetic. -/

namespace AdaptiveLlm

namespace Lora

/-! ## Files -/

/-- A file format, over the contents of files: `safetensors`, or the JSON of a report. -/
structure Codec (B α : Type) where
  write : α → B
  read : B → Option α
  read_write : ∀ a, read (write a) = some a

/-- The authenticated inventory of a checkpoint's files. -/
structure Sealing (B S : Type) where
  checkpointSeal : List B → S
  verifyCheckpoint : S → List B → Bool
  verify_seal : ∀ files, verifyCheckpoint (checkpointSeal files) files = true

/-- `training_report.json`. -/
structure Report (F : Type) where
  steps : ℕ
  examples : ℕ
  lossCurve : List F
  tokensSeen : ℕ
  baseManifestDigest : String
  binding : String
  adapterDigest : String

/-- The directory of a checkpoint. -/
structure CheckpointFiles (B S : Type) where
  adapter : B
  optimizer : B
  trainingReport : B
  checkpoint : S

/-! ## The trainer -/

/-- An encoded example, with its soft targets. -/
structure Example (D : Type) where
  ids : List ℕ
  labels : List ℤ
  distribution : Option D

/-- What training changes in memory. -/
structure Memory (W O R F : Type) where
  weights : W
  optimizer : O
  rng : R
  losses : List F := []
  tokensSeen : ℕ := 0

/-- The arguments of an optimiser step. -/
structure StepCall (W O R D : Type) where
  step : ℕ
  weights : W
  optimizer : O
  rng : R
  batches : List (List (Example D))

/-- What every attempt of a job is given. -/
structure Trainer (W O R F D B S : Type) where
  examples : List (Example D)
  nonempty : 0 < examples.length
  batchSize : ℕ
  gradientAccumulation : ℕ
  steps : ℕ
  steps_pos : 1 ≤ steps
  checkpointEvery : ℕ
  /-- The base model with its adapter attached, a new optimiser and the seeded random state. -/
  initial : Memory W O R F
  initial_losses : initial.losses = []
  /-- One optimiser step and its loss; `none` where a loss is not finite. -/
  optimize : W → O → R → List (List (Example D)) → Option (W × O × R × F)
  adapters : Codec B W
  states : Codec B (O × R)
  reports : Codec B (Report F)
  sealing : Sealing B S
  digest : B → String
  baseDigest : String
  binding : String

namespace Trainer

variable {W O R F D B S : Type} (t : Trainer W O R F D B S)

/-- The examples from an offset on, around the end. -/
def selected (offset : ℕ) : List (Example D) :=
  (List.range t.batchSize).map fun i =>
    t.examples.get ⟨(offset + i) % t.examples.length, Nat.mod_lt _ t.nonempty⟩

/-- The batches of a step. -/
def batches (step : ℕ) : List (List (Example D)) :=
  (List.range t.gradientAccumulation).map fun micro =>
    t.selected (((step - 1) * t.gradientAccumulation + micro) * t.batchSize)

/-- The call of a step on what the process holds. -/
def call (step : ℕ) (m : Memory W O R F) : StepCall W O R D :=
  { step, weights := m.weights, optimizer := m.optimizer, rng := m.rng, batches := t.batches step }

/-- The body of the loop. -/
def train (step : ℕ) (m : Memory W O R F) : Option (Memory W O R F) := do
  let (weights, optimizer, rng, loss) ← t.optimize m.weights m.optimizer m.rng (t.batches step)
  some
    { weights
      optimizer
      rng
      losses := m.losses ++ [loss]
      tokensSeen := m.tokensSeen +
        ((t.batches step).map fun batch => (batch.map (·.ids.length)).sum).sum }

/-! ### Checkpoints -/

/-- The report of the trainer after so many steps. -/
def report (step : ℕ) (m : Memory W O R F) : Report F :=
  { steps := step
    examples := t.examples.length
    lossCurve := m.losses
    tokensSeen := m.tokensSeen
    baseManifestDigest := t.baseDigest
    binding := t.binding
    adapterDigest := t.digest (t.adapters.write m.weights) }

/-- The files that `save` writes. -/
def checkpointFiles (step : ℕ) (m : Memory W O R F) : CheckpointFiles B S :=
  let adapter := t.adapters.write m.weights
  let optimizer := t.states.write (m.optimizer, m.rng)
  let trainingReport := t.reports.write (t.report step m)
  { adapter
    optimizer
    trainingReport
    checkpoint := t.sealing.checkpointSeal [adapter, optimizer, trainingReport] }

/-- `_read_checkpoint`, and the check of the directory's name. -/
def readCheckpoint (name : ℕ) (files : CheckpointFiles B S) :
    Option (ℕ × Report F × CheckpointFiles B S) := do
  guard (t.sealing.verifyCheckpoint files.checkpoint
    [files.adapter, files.optimizer, files.trainingReport])
  let report ← t.reports.read files.trainingReport
  guard (report.binding = t.binding ∧ report.lossCurve.length = report.steps)
  guard (name = report.steps ∧ report.steps ≤ t.steps)
  some (report.steps, report, files)

/-- What an attempt goes on from. -/
def restore (report : Report F) (files : CheckpointFiles B S) : Option (Memory W O R F) := do
  let weights ← t.adapters.read files.adapter
  let (optimizer, rng) ← t.states.read files.optimizer
  some { weights, optimizer, rng, losses := report.lossCurve, tokensSeen := report.tokensSeen }

end Trainer

/-! ## Attempts -/

/-- Where a process is: at a boundary, before a step, in `save` or in the callback at its end (and
    whether the boundary raises after them), or behind the loop. -/
inductive Phase where
  | boundary
  | training
  | saving (raises : Bool)
  | recording (raises : Bool)
  | publishing
  deriving DecidableEq

/-- A running process: its next step, its memory and where it stands. -/
structure Process (W O R F B S : Type) where
  step : ℕ
  memory : Memory W O R F
  reports : List (ℕ × Report F × CheckpointFiles B S)
  phase : Phase

/-- What a finished attempt leaves: the adapter and the report of the last checkpoint, and the weights in
    memory, which are merged. -/
structure Published (W F B : Type) where
  adapter : B
  report : Report F
  merged : W

/-- A job's working directory, its references, the process at work, and every optimiser step made. -/
structure Training (W O R F D B S : Type) where
  checkpoints : List (ℕ × CheckpointFiles B S) := []
  checkpointRefs : List ℕ := []
  process : Option (Process W O R F B S) := none
  published : Option (Published W F B) := none
  calls : List (StepCall W O R D) := []

/-- An attempt starts, or dies in it after some references are recorded; it goes on; a check or the time
    limit stops it at a boundary; it dies. -/
inductive Event where
  | start (dies : Option ℕ)
  | proceed
  | interrupt
  | crash

namespace Trainer

variable {W O R F D B S : Type} (t : Trainer W O R F D B S)

/-- What an attempt reads before the loop. -/
def load (x : Training W O R F D B S) : Option (Process W O R F B S) := do
  guard (x.checkpointRefs.all fun name => name ∈ x.checkpoints.map Prod.fst)
  let reports ← x.checkpoints.mapM fun c => t.readCheckpoint c.1 c.2
  match (reports.map Prod.fst).max? with
  | none => some { step := 0, memory := t.initial, reports, phase := .boundary }
  | some completed => do
    let (report, files) ← reports.lookup completed
    let memory ← t.restore report files
    some { step := completed, memory, reports, phase := .boundary }

/-- The references that it records before that. -/
def missingRefs (x : Training W O R F D B S) : List ℕ :=
  (x.checkpoints.map Prod.fst).filter fun name => name ∉ x.checkpointRefs

/-- A process starts from what the job has left. One that dies on its way has noted only some of the missing
references. -/
def start (x : Training W O R F D B S) (dies : Option ℕ) : Training W O R F D B S :=
  match t.load x, dies with
  | none, _ => x
  | some _, some n => { x with checkpointRefs := x.checkpointRefs ++ (missingRefs x).take n }
  | some p, none =>
    { x with checkpointRefs := x.checkpointRefs ++ missingRefs x, process := some p }

/-- Behind `save`: the boundary of the loop, or the exception of the boundary. -/
def afterSave (p : Process W O R F B S) (raises : Bool) : Option (Process W O R F B S) :=
  if raises then none else some { p with phase := .boundary }

/-- The process goes on by one stage. -/
def proceed (x : Training W O R F D B S) (p : Process W O R F B S) : Training W O R F D B S :=
  match p.phase with
  | .boundary =>
    { x with process := some { p with phase := if p.step < t.steps then .training else .publishing } }
  | .training =>
    let step := p.step + 1
    let calls := x.calls ++ [t.call step p.memory]
    match t.train step p.memory with
    | none => { x with calls, process := none }
    | some memory =>
      let phase := if step % t.checkpointEvery = 0 ∨ step = t.steps then .saving false else .boundary
      { x with calls, process := some { p with step, memory, phase } }
  | .saving raises =>
    if p.step ∈ p.reports.map Prod.fst then { x with process := afterSave p raises }
    else
      let files := t.checkpointFiles p.step p.memory
      { x with
        checkpoints := x.checkpoints ++ [(p.step, files)]
        process := some { p with
          reports := p.reports ++ [(p.step, t.report p.step p.memory, files)]
          phase := .recording raises } }
  | .recording raises =>
    { x with
      checkpointRefs := if p.step ∈ x.checkpointRefs then x.checkpointRefs else x.checkpointRefs ++ [p.step]
      process := afterSave p raises }
  | .publishing =>
    match p.reports.lookup t.steps with
    | none => { x with process := none }
    | some (report, files) =>
      { x with
        process := none
        published := some { adapter := files.adapter, report, merged := p.memory.weights } }

/-- What happens to a job that has not finished. -/
def on (x : Training W O R F D B S) (e : Event) : Training W O R F D B S :=
  match e, x.process with
  | .start dies, none => if x.published.isSome then x else t.start x dies
  | .proceed, some p => t.proceed x p
  | .interrupt, some p =>
    if p.phase = .boundary then { x with process := some { p with phase := .saving true } } else x
  | .crash, some _ => { x with process := none }
  | _, _ => x

/-- All events, one after the other. -/
def run (events : List Event) : Training W O R F D B S := events.foldl t.on {}

end Trainer

/-! ## The states that an uninterrupted run goes through

The trajectory is the uninterrupted run, as a function of the number of steps. Whatever else happens
is compared with it by that number. -/

section Trajectory

variable {W O R F D B S : Type} (t : Trainer W O R F D B S)

namespace Trainer

/-- The memory behind `n` steps, if none of them fails. -/
def trajectory : ℕ → Option (Memory W O R F)
  | 0 => some t.initial
  | n + 1 => (trajectory n).bind (t.train (n + 1))

variable {t} {n : ℕ} {m : Memory W O R F}

theorem train_losses {m' : Memory W O R F} {step : ℕ} (h : t.train step m = some m') :
    m'.losses.length = m.losses.length + 1 := by
  obtain ⟨⟨_, _, _, loss⟩, -, h⟩ := Option.bind_eq_some_iff.1 h
  cases h
  exact List.length_append

theorem trajectory_losses (h : t.trajectory n = some m) : m.losses.length = n := by
  induction n generalizing m with
  | zero =>
    cases h
    rw [t.initial_losses, List.length_nil]
  | succ n ih =>
    obtain ⟨m', hm', htrain⟩ := Option.bind_eq_some_iff.1 h
    rw [train_losses htrain, ih hm']

theorem trajectory_isSome {k : ℕ} (h : (t.trajectory n).isSome) (hle : k ≤ n) :
    (t.trajectory k).isSome := by
  induction n with
  | zero =>
    obtain rfl : k = 0 := by omega
    exact h
  | succ n ih =>
    rcases Nat.lt_or_eq_of_le hle with hlt | rfl
    · obtain ⟨m, hm⟩ := Option.isSome_iff_exists.1 h
      obtain ⟨m', hm', -⟩ := Option.bind_eq_some_iff.1 hm
      exact ih (Option.isSome_of_eq_some hm') (Nat.lt_succ_iff.1 hlt)
    · exact h

/-- A checkpoint is read as it was written, -/
theorem readCheckpoint_files (h : t.trajectory n = some m) (hn : n ≤ t.steps) :
    t.readCheckpoint n (t.checkpointFiles n m) = some (n, t.report n m, t.checkpointFiles n m) := by
  simp [readCheckpoint, checkpointFiles, t.sealing.verify_seal, t.reports.read_write, report,
    trajectory_losses h, hn]

/-- and restores the memory. -/
theorem restore_files (n : ℕ) (m : Memory W O R F) :
    t.restore (t.report n m) (t.checkpointFiles n m) = some m := by
  simp [restore, checkpointFiles, t.adapters.read_write, t.states.read_write, report]

end Trainer

/-! ## What every attempt keeps

An attempt's memory is the trajectory's at its number of steps, whether it came there by training or
by loading a checkpoint. A checkpoint in place is one of the trajectory, complete, and referenced
once it is recorded. -/

/-- A checkpoint, with its report, of the state behind `n` steps. -/
def Trainer.IsReport (e : ℕ × Report F × CheckpointFiles B S) : Prop :=
  ∃ m, t.trajectory e.1 = some m ∧ e.2 = (t.report e.1 m, t.checkpointFiles e.1 m)

/-- The steps up to `n` are among the calls. -/
def Visited (calls : List (StepCall W O R D)) (n : ℕ) : Prop :=
  ∀ k < n, ∃ c ∈ calls, c.step = k + 1

variable {t} {x : Training W O R F D B S} {p : Process W O R F B S}

/-- When a process may be in a phase: behind the last boundary the last step has its checkpoint. -/
def Phase.Proper (steps step : ℕ) (reports : List ℕ) : Phase → Prop
  | .boundary => step = steps → step ∈ reports
  | .training => step < steps
  | .saving _ => True
  | .recording _ => step ∈ reports
  | .publishing => step = steps ∧ step ∈ reports

/-- A process is where the uninterrupted run is behind the same number of steps, and has read the
    checkpoints there are. -/
structure Trainer.Working (t : Trainer W O R F D B S) (checkpoints : List ℕ)
    (calls : List (StepCall W O R D)) (p : Process W O R F B S) : Prop where
  step : p.step ≤ t.steps
  memory : t.trajectory p.step = some p.memory
  names : p.reports.map Prod.fst = checkpoints
  reports : ∀ e ∈ p.reports, t.IsReport e
  visited : Visited calls p.step
  phase : p.phase.Proper t.steps p.step (p.reports.map Prod.fst)

theorem Trainer.Working.proper {checkpoints : List ℕ} {calls : List (StepCall W O R D)}
    (hp : t.Working checkpoints calls p) {phase : Phase} (hphase : p.phase = phase) :
    phase.Proper t.steps p.step (p.reports.map Prod.fst) := hphase ▸ hp.phase

/-- What holds of a job after any number of attempts. -/
structure Trainer.Sound (t : Trainer W O R F D B S) (x : Training W O R F D B S) : Prop where
  checkpoints : ∀ c ∈ x.checkpoints, c.1 ≤ t.steps ∧
    ∃ m, t.trajectory c.1 = some m ∧ c.2 = t.checkpointFiles c.1 m
  visited : ∀ c ∈ x.checkpoints, Visited x.calls c.1
  refs : ∀ name ∈ x.checkpointRefs, name ∈ x.checkpoints.map Prod.fst
  working : ∀ p, x.process = some p → t.Working (x.checkpoints.map Prod.fst) x.calls p
  calls : ∀ c ∈ x.calls, ∃ n < t.steps, ∃ m, t.trajectory n = some m ∧ c = t.call (n + 1) m
  published : ∀ r, x.published = some r → Visited x.calls t.steps ∧ ∃ m, t.trajectory t.steps = some m ∧
    r = { adapter := (t.checkpointFiles t.steps m).adapter, report := t.report t.steps m,
          merged := m.weights }

namespace Trainer

theorem Sound.idle (h : t.Sound x) : t.Sound { x with process := none } :=
  { h with working := fun p hp => by cases hp }

/-- A process goes on without touching anything but itself. -/
theorem Sound.goOn (h : t.Sound x) (hp : t.Working (x.checkpoints.map Prod.fst) x.calls p) :
    t.Sound { x with process := some p } :=
  { h with
    working := fun p' hp' => by
      obtain rfl := Option.some.inj hp'
      exact hp }

/-- What an attempt reads are the checkpoints there are. -/
theorem Sound.readCheckpoints (h : t.Sound x) : ∃ reports,
    x.checkpoints.mapM (fun c => t.readCheckpoint c.1 c.2) = some reports ∧
      reports.map Prod.fst = x.checkpoints.map Prod.fst ∧ ∀ e ∈ reports, t.IsReport e := by
  have hread : ∀ c ∈ x.checkpoints, ∃ e, t.readCheckpoint c.1 c.2 = some e ∧
      (e.1 = c.1 ∧ t.IsReport e) := fun c hc => by
      obtain ⟨hstep, m, hm, hfiles⟩ := h.checkpoints c hc
      refine ⟨(c.1, t.report c.1 m, c.2), ?_, rfl, m, hm, ?_⟩
      · rw [hfiles]
        exact readCheckpoint_files hm hstep
      · rw [hfiles]
  obtain ⟨reports, hread, hall⟩ := Option.exists_mapM_eq_some
    (f := fun c : ℕ × CheckpointFiles B S => t.readCheckpoint c.1 c.2)
    (R := fun c e => e.1 = c.1 ∧ t.IsReport e) hread
  refine ⟨reports, hread, (hall.imp fun _ _ hce => hce.1.symm).map_eq.symm, fun e he => ?_⟩
  obtain ⟨_, -, -, hreport⟩ := hall.exists_of_mem_right he
  exact hreport

theorem lookup_isReport {reports : List (ℕ × Report F × CheckpointFiles B S)}
    (h : ∀ e ∈ reports, t.IsReport e) {n : ℕ} (hn : n ∈ reports.map Prod.fst) :
    ∃ m, t.trajectory n = some m ∧ reports.lookup n = some (t.report n m, t.checkpointFiles n m) := by
  induction reports with
  | nil => cases hn
  | cons e reports ih =>
    obtain ⟨he, hrest⟩ := List.forall_mem_cons.1 h
    obtain ⟨k, report⟩ := e
    by_cases hk : n = k
    · subst hk
      obtain ⟨m, hm, hreport⟩ := he
      refine ⟨m, hm, ?_⟩
      rw [List.lookup_cons, beq_self_eq_true]
      exact congrArg some hreport
    · obtain ⟨m, hm, hlookup⟩ := ih hrest ((List.mem_cons.1 hn).resolve_left hk)
      refine ⟨m, hm, ?_⟩
      rw [List.lookup_cons, beq_eq_false_iff_ne.2 hk]
      exact hlookup

/-- **An attempt goes on from the uninterrupted run's memory.** -/
theorem Sound.load (h : t.Sound x) : ∃ p, t.load x = some p ∧
    t.Working (x.checkpoints.map Prod.fst) x.calls p ∧ p.phase = .boundary := by
  obtain ⟨reports, hread, hnames, hreports⟩ := h.readCheckpoints
  have hrefs : (x.checkpointRefs.all fun name => name ∈ x.checkpoints.map Prod.fst) = true :=
    List.all_eq_true.2 fun name hname => decide_eq_true (h.refs name hname)
  unfold Trainer.load
  rw [hrefs, hread]
  cases hmax : (reports.map Prod.fst).max? with
  | none =>
    have hnil : reports = [] := List.map_eq_nil_iff.1 (List.max?_eq_none_iff.1 hmax)
    subst hnil
    refine ⟨_, by simp; rfl, ⟨Nat.zero_le _, rfl, hnames, hreports, ?_, ?_⟩, rfl⟩
    · exact fun k hk => by cases hk
    · exact fun hsteps => absurd hsteps (Nat.pos_iff_ne_zero.1 t.steps_pos).symm
  | some completed =>
    have hmem := List.max?_mem hmax
    obtain ⟨m, hm, hlookup⟩ := lookup_isReport hreports hmem
    have hcheckpoint := hmem
    rw [hnames] at hcheckpoint
    obtain ⟨c, hc, rfl⟩ := List.mem_map.1 hcheckpoint
    refine ⟨{ step := c.1, memory := m, reports, phase := .boundary }, ?_,
      ⟨(h.checkpoints c hc).1, hm, hnames, hreports, h.visited c hc, fun _ => hmem⟩, rfl⟩
    simp [hmax, hlookup, restore_files]

/-! ### Step lemmas -/

theorem Sound.start (h : t.Sound x) (dies : Option ℕ) : t.Sound (t.start x dies) := by
  obtain ⟨p, hload, hp, -⟩ := h.load
  have hmissing : ∀ name ∈ missingRefs x, name ∈ x.checkpoints.map Prod.fst :=
    fun name hname => List.mem_of_mem_filter hname
  unfold Trainer.start
  rw [hload]
  cases dies with
  | some n =>
    refine { h with refs := fun name hname => ?_, working := h.working }
    rcases List.mem_append.1 hname with hname | hname
    · exact h.refs name hname
    · exact hmissing name (List.mem_of_mem_take hname)
  | none =>
    refine { h.goOn hp with refs := fun name hname => ?_ }
    rcases List.mem_append.1 hname with hname | hname
    · exact h.refs name hname
    · exact hmissing name hname

theorem visited_call {calls : List (StepCall W O R D)} {n : ℕ} {m : Memory W O R F} (h : Visited calls n) :
    Visited (calls ++ [t.call (n + 1) m]) (n + 1) := by
  intro k hk
  rcases Nat.lt_succ_iff_lt_or_eq.1 hk with hlt | rfl
  · obtain ⟨c, hc, hstep⟩ := h k hlt
    exact ⟨c, List.mem_append_left _ hc, hstep⟩
  · exact ⟨_, List.mem_append_right _ (List.mem_singleton_self _), rfl⟩

theorem Visited.append {calls more : List (StepCall W O R D)} {n : ℕ} (h : Visited calls n) :
    Visited (calls ++ more) n := by
  intro k hk
  obtain ⟨c, hc, hstep⟩ := h k hk
  exact ⟨c, List.mem_append_left _ hc, hstep⟩

/-- An optimiser step. -/
theorem Sound.proceed_training (h : t.Sound x) (hp : t.Working (x.checkpoints.map Prod.fst) x.calls p)
    (hphase : p.phase = .training) : t.Sound (t.proceed x p) := by
  have hlt : p.step < t.steps := hp.proper hphase
  -- the call itself, whatever comes of it
  have hcalls : t.Sound { x with calls := x.calls ++ [t.call (p.step + 1) p.memory], process := none } :=
    { h.idle with
      visited := fun c hc => Visited.append (h.visited c hc)
      calls := fun c hc => by
        rcases List.mem_append.1 hc with hc | hc
        · exact h.calls c hc
        · exact ⟨p.step, hlt, p.memory, hp.memory, List.mem_singleton.1 hc⟩
      published := fun r hr => (h.published r hr).imp_left Visited.append
      working := fun p hp => by cases hp }
  unfold Trainer.proceed
  rw [hphase]
  dsimp only
  cases htrain : t.train (p.step + 1) p.memory with
  | none => exact hcalls
  | some memory =>
    refine hcalls.goOn ⟨hlt, ?_, hp.names, hp.reports, visited_call hp.visited, ?_⟩
    · rw [trajectory, hp.memory, Option.bind_some, htrain]
    · by_cases hsave : (p.step + 1) % t.checkpointEvery = 0 ∨ p.step + 1 = t.steps
      · rw [if_pos hsave]
        trivial
      · rw [if_neg hsave]
        exact fun hsteps => absurd (.inr hsteps) hsave

theorem Working.afterSave (hp : t.Working (x.checkpoints.map Prod.fst) x.calls p)
    (hmem : p.step ∈ p.reports.map Prod.fst) :
    t.Working (x.checkpoints.map Prod.fst) x.calls { p with phase := .boundary } :=
  { hp with phase := fun _ => hmem }

theorem Sound.afterSave (h : t.Sound x) (hp : t.Working (x.checkpoints.map Prod.fst) x.calls p)
    (hmem : p.step ∈ p.reports.map Prod.fst)
    (raises : Bool) : t.Sound { x with process := Lora.Trainer.afterSave p raises } := by
  cases raises with
  | true => exact h.idle
  | false => exact h.goOn (hp.afterSave hmem)

/-- A checkpoint is renamed into place. -/
theorem Sound.proceed_saving (h : t.Sound x) (hp : t.Working (x.checkpoints.map Prod.fst) x.calls p)
    {raises : Bool}
    (hphase : p.phase = .saving raises) : t.Sound (t.proceed x p) := by
  unfold Trainer.proceed
  rw [hphase]
  dsimp only
  split
  · rename_i hmem
    exact h.afterSave hp hmem raises
  · have hfiles : t.Sound { x with
        checkpoints := x.checkpoints ++ [(p.step, t.checkpointFiles p.step p.memory)]
        process := none } :=
      { h.idle with
        checkpoints := fun c hc => by
          rcases List.mem_append.1 hc with hc | hc
          · exact h.checkpoints c hc
          · rw [List.mem_singleton.1 hc]
            exact ⟨hp.step, p.memory, hp.memory, rfl⟩
        visited := fun c hc => by
          rcases List.mem_append.1 hc with hc | hc
          · exact h.visited c hc
          · rw [List.mem_singleton.1 hc]
            exact hp.visited
        refs := fun name hname => by
          rw [List.map_append]
          exact List.mem_append_left _ (h.refs name hname)
        working := fun p hp => by cases hp }
    refine hfiles.goOn ⟨hp.step, hp.memory, ?_, ?_, hp.visited, ?_⟩
    · rw [List.map_append, List.map_append, hp.names]
      rfl
    · intro e he
      rcases List.mem_append.1 he with he | he
      · exact hp.reports e he
      · rw [List.mem_singleton.1 he]
        exact ⟨p.memory, hp.memory, rfl⟩
    · rw [List.map_append]
      exact List.mem_append_right _ (List.mem_singleton_self _)

/-- The job records its reference. -/
theorem Sound.proceed_recording (h : t.Sound x)
    (hp : t.Working (x.checkpoints.map Prod.fst) x.calls p) {raises : Bool}
    (hphase : p.phase = .recording raises) : t.Sound (t.proceed x p) := by
  have hmem : p.step ∈ p.reports.map Prod.fst := hp.proper hphase
  have hrefs : t.Sound { x with
      checkpointRefs :=
        if p.step ∈ x.checkpointRefs then x.checkpointRefs else x.checkpointRefs ++ [p.step]
      process := none } :=
    { h.idle with
      refs := fun name hname => by
        dsimp only at hname
        split at hname
        · exact h.refs name hname
        · rcases List.mem_append.1 hname with hname | hname
          · exact h.refs name hname
          · rw [List.mem_singleton.1 hname, ← hp.names]
            exact hmem
      working := fun p hp => by cases hp }
  unfold Trainer.proceed
  rw [hphase]
  exact hrefs.afterSave hp hmem raises

/-- What is published is of the uninterrupted run. -/
theorem Sound.proceed_publishing (h : t.Sound x)
    (hp : t.Working (x.checkpoints.map Prod.fst) x.calls p) (hphase : p.phase = .publishing) :
    t.Sound (t.proceed x p) := by
  obtain ⟨hsteps, hmem⟩ : p.step = t.steps ∧ p.step ∈ p.reports.map Prod.fst := hp.proper hphase
  rw [hsteps] at hmem
  obtain ⟨m, hm, hlookup⟩ := lookup_isReport hp.reports hmem
  have hmemory := hp.memory
  rw [hsteps, hm] at hmemory
  obtain rfl := Option.some.inj hmemory
  unfold Trainer.proceed
  rw [hphase, hlookup]
  refine { h.idle with published := fun r hr => ?_ }
  obtain rfl := Option.some.inj hr
  exact ⟨hsteps ▸ hp.visited, p.memory, hm, rfl⟩

theorem Sound.proceed (h : t.Sound x) (hp : t.Working (x.checkpoints.map Prod.fst) x.calls p) :
    t.Sound (t.proceed x p) := by
  cases hphase : p.phase with
  | boundary =>
    have hmem : p.step = t.steps → p.step ∈ p.reports.map Prod.fst := hp.proper hphase
    unfold Trainer.proceed
    rw [hphase]
    refine h.goOn { hp with phase := ?_ }
    split
    · assumption
    · have hsteps : p.step = t.steps := le_antisymm hp.step (not_lt.1 ‹_›)
      exact ⟨hsteps, hmem hsteps⟩
  | training => exact h.proceed_training hp hphase
  | saving raises => exact h.proceed_saving hp hphase
  | recording raises => exact h.proceed_recording hp hphase
  | publishing => exact h.proceed_publishing hp hphase

/-- **Step lemma.** -/
theorem Sound.on (h : t.Sound x) (e : Event) : t.Sound (t.on x e) := by
  unfold Trainer.on
  split
  · split
    · exact h
    · exact h.start _
  · rename_i hp
    exact h.proceed (h.working _ hp)
  · rename_i p hp
    split
    · exact h.goOn { h.working p hp with phase := trivial }
    · exact h
  · exact h.idle
  · exact h

/-- **Run lemma.** -/
theorem Sound.foldl (h : t.Sound x) (events : List Event) : t.Sound (events.foldl t.on x) := by
  induction events generalizing x with
  | nil => exact h
  | cons e events ih => exact ih (h.on e)

theorem sound_run (t : Trainer W O R F D B S) (events : List Event) : t.Sound (t.run events) := by
  refine Sound.foldl ⟨?_, ?_, ?_, ?_, ?_, ?_⟩ events <;> intro _ h <;> cases h

/-! ## An attempt that is left alone -/

/-- The states that an attempt goes through by going on. -/
def after (t : Trainer W O R F D B S) (x : Training W O R F D B S) (k : ℕ) : Training W O R F D B S :=
  (List.replicate k Event.proceed).foldl t.on x

theorem after_add (x : Training W O R F D B S) (k l : ℕ) :
    t.after x (k + l) = t.after (t.after x k) l := by
  unfold after
  rw [List.replicate_add, List.foldl_append]

theorem Sound.after (h : t.Sound x) (k : ℕ) : t.Sound (t.after x k) := h.foldl _

/-- A process at work, with nothing published yet. -/
structure At (x : Training W O R F D B S) (phase : Phase) (step : ℕ) : Prop where
  process : ∃ p, x.process = some p ∧ p.phase = phase ∧ p.step = step
  unpublished : x.published = none

theorem on_proceed (hp : x.process = some p) : t.on x .proceed = t.proceed x p := by
  unfold Trainer.on
  rw [hp]

theorem At.training {n : ℕ} (h : At x .boundary n) (hn : n < t.steps) :
    At (t.on x .proceed) .training n := by
  obtain ⟨⟨p, hp, hphase, rfl⟩, hnone⟩ := h
  rw [on_proceed hp]
  unfold Trainer.proceed
  rw [hphase]
  exact ⟨⟨_, rfl, if_pos hn, rfl⟩, hnone⟩

theorem At.publishing {n : ℕ} (h : At x .boundary n) (hn : n = t.steps) :
    At (t.on x .proceed) .publishing n := by
  obtain ⟨⟨p, hp, hphase, rfl⟩, hnone⟩ := h
  rw [on_proceed hp]
  unfold Trainer.proceed
  rw [hphase]
  exact ⟨⟨_, rfl, if_neg hn.not_lt, rfl⟩, hnone⟩

/-- A step that does not fail is followed by its boundary, some by `save` first. -/
theorem At.trained {n : ℕ} (h : At x .training n) (hx : t.Sound x)
    (hnext : (t.trajectory (n + 1)).isSome) :
    At (t.on x .proceed) (.saving false) (n + 1) ∨ At (t.on x .proceed) .boundary (n + 1) := by
  obtain ⟨⟨p, hp, hphase, rfl⟩, hnone⟩ := h
  obtain ⟨m, hm⟩ := Option.isSome_iff_exists.1 hnext
  rw [trajectory, (hx.working p hp).memory, Option.bind_some] at hm
  rw [on_proceed hp]
  unfold Trainer.proceed
  rw [hphase]
  dsimp only
  rw [hm]
  by_cases hsave : (p.step + 1) % t.checkpointEvery = 0 ∨ p.step + 1 = t.steps
  · exact .inl ⟨⟨_, rfl, if_pos hsave, rfl⟩, hnone⟩
  · exact .inr ⟨⟨_, rfl, if_neg hsave, rfl⟩, hnone⟩

theorem At.saved {n : ℕ} (h : At x (.saving false) n) :
    At (t.on x .proceed) .boundary n ∨ At (t.on x .proceed) (.recording false) n := by
  obtain ⟨⟨p, hp, hphase, rfl⟩, hnone⟩ := h
  rw [on_proceed hp]
  unfold Trainer.proceed
  rw [hphase]
  dsimp only
  split
  · exact .inl ⟨⟨_, rfl, rfl, rfl⟩, hnone⟩
  · exact .inr ⟨⟨_, rfl, rfl, rfl⟩, hnone⟩

theorem At.recorded {n : ℕ} (h : At x (.recording false) n) : At (t.on x .proceed) .boundary n := by
  obtain ⟨⟨p, hp, hphase, rfl⟩, hnone⟩ := h
  rw [on_proceed hp]
  unfold Trainer.proceed
  rw [hphase]
  exact ⟨⟨_, rfl, rfl, rfl⟩, hnone⟩

theorem At.published {n : ℕ} (h : At x .publishing n) (hx : t.Sound x) :
    (t.on x .proceed).published.isSome := by
  obtain ⟨⟨p, hp, hphase, rfl⟩, -⟩ := h
  obtain ⟨hsteps, hmem⟩ : p.step = t.steps ∧ p.step ∈ p.reports.map Prod.fst :=
    (hx.working p hp).proper hphase
  obtain ⟨m, -, hlookup⟩ := lookup_isReport (hx.working p hp).reports (hsteps ▸ hmem)
  rw [on_proceed hp]
  unfold Trainer.proceed
  rw [hphase, hlookup]
  rfl

/-- From one boundary to the next. -/
theorem At.next {n : ℕ} (h : At x .boundary n) (hx : t.Sound x) (hn : n < t.steps)
    (hsteps : (t.trajectory t.steps).isSome) : ∃ k, At (t.after x k) .boundary (n + 1) := by
  have htraining : At (t.after x 1) .training n := h.training hn
  rcases htraining.trained (hx.after 1) (trajectory_isSome hsteps hn) with hsaving | hboundary
  · have hsaving' : At (t.after x 2) (.saving false) (n + 1) := hsaving
    rcases hsaving'.saved (t := t) with hboundary | hrecording
    · exact ⟨3, hboundary⟩
    · have hrecording' : At (t.after x 3) (.recording false) (n + 1) := hrecording
      exact ⟨4, hrecording'.recorded⟩
  · exact ⟨2, hboundary⟩

theorem At.last {n : ℕ} (h : At x .boundary n) (hx : t.Sound x) (hn : n ≤ t.steps)
    (hsteps : (t.trajectory t.steps).isSome) : ∃ k, At (t.after x k) .boundary t.steps := by
  induction hn using Nat.decreasingInduction generalizing x with
  | self => exact ⟨0, h⟩
  | of_succ n hlt ih =>
    obtain ⟨k, hk⟩ := h.next hx hlt hsteps
    obtain ⟨l, hl⟩ := ih hk (hx.after k)
    exact ⟨k + l, by rwa [after_add]⟩

/-- **An attempt that is left alone finishes**, where no step fails. -/
theorem Sound.finishes (h : t.Sound x) (hidle : x.process = none) (hnone : x.published = none)
    (hsteps : (t.trajectory t.steps).isSome) :
    ∃ k, (t.after (t.on x (.start none)) k).published.isSome := by
  obtain ⟨p, hload, hp, hphase⟩ := h.load
  have hstarted : At (t.on x (.start none)) .boundary p.step := by
    unfold Trainer.on
    rw [hidle, hnone]
    unfold Trainer.start
    rw [hload]
    exact ⟨⟨p, rfl, hphase, rfl⟩, hnone⟩
  obtain ⟨k, hk⟩ := hstarted.last (h.on _) hp.step hsteps
  have hpublishing : At (t.after (t.on x (.start none)) (k + 1)) .publishing t.steps := by
    rw [after_add]
    exact hk.publishing rfl
  refine ⟨k + 2, ?_⟩
  rw [after_add _ (k + 1) 1]
  exact hpublishing.published ((h.on _).after _)

/-- A finished job's calls are those of its steps. -/
theorem Sound.mem_calls_iff (h : t.Sound x) {r : Published W F B} (hr : x.published = some r)
    (c : StepCall W O R D) :
    c ∈ x.calls ↔ ∃ n < t.steps, ∃ m, t.trajectory n = some m ∧ c = t.call (n + 1) m := by
  constructor
  · exact h.calls c
  · rintro ⟨n, hn, m, hm, rfl⟩
    obtain ⟨c, hc, hstep⟩ := (h.published r hr).1 n hn
    obtain ⟨n', -, m', hm', rfl⟩ := h.calls c hc
    obtain rfl : n' = n := Nat.succ.inj hstep
    obtain rfl := Option.some.inj (hm'.symm.trans hm)
    exact hc

end Trainer

end Trajectory

/-- **Resumed training equals uninterrupted training.** However often a job was stopped at a boundary or
    died anywhere, when it finishes it has published the adapter, the report with its loss curve and
    tokens, and the merged weights that one attempt in a new directory publishes when it is left alone,
    which finishes too; and each step was called on the same batches, weights and states. -/
theorem resumed_eq_uninterrupted {W O R F D B S : Type} (t : Trainer W O R F D B S) (events : List Event)
    (r : Published W F B) (h : (t.run events).published = some r) :
    ∃ k, (t.run (.start none :: List.replicate k .proceed)).published = some r ∧
      ∀ c, c ∈ (t.run events).calls ↔ c ∈ (t.run (.start none :: List.replicate k .proceed)).calls := by
  have hsound := Trainer.sound_run t events
  obtain ⟨-, m, hm, hr⟩ := hsound.published r h
  obtain ⟨k, hk⟩ := (Trainer.sound_run t []).finishes rfl rfl (Option.isSome_of_eq_some hm)
  have hsound' := Trainer.sound_run t (.start none :: List.replicate k .proceed)
  have hfinished : (t.run (.start none :: List.replicate k .proceed)).published.isSome := hk
  obtain ⟨r', hr'⟩ := Option.isSome_iff_exists.1 hfinished
  obtain ⟨-, m', hm', hreport⟩ := hsound'.published r' hr'
  obtain rfl := Option.some.inj (hm.symm.trans hm')
  refine ⟨k, ?_, fun c => ?_⟩
  · rw [hr', hreport, hr]
  · rw [hsound.mem_calls_iff h, hsound'.mem_calls_iff hr']

/-! A job that is stopped behind its first step, dies in `save`, and is started again. -/

namespace Interrupted

/-- The contents of a file. -/
inductive Contents where
  | adapter (weights : ℕ)
  | states (states : ℕ × ℕ)
  | report (report : Report ℕ)

/-- An example of token ids. -/
def encoded (ids : List ℕ) : Example Unit := { ids, labels := [], distribution := none }

theorem two_steps : 1 ≤ 2 := by decide

/-- Adds up what it sees, and some noise. -/
def trainer : Trainer ℕ ℕ ℕ ℕ Unit Contents ℕ where
  examples := [encoded [1, 2], encoded [3], encoded [4, 5, 6]]
  nonempty := by decide
  batchSize := 2
  gradientAccumulation := 1
  steps := 2
  steps_pos := two_steps
  checkpointEvery := 5
  initial := { weights := 0, optimizer := 0, rng := 7 }
  initial_losses := rfl
  optimize w o r batches :=
    some (w + r + (batches.flatten.flatMap (·.ids)).sum, o + 1, (5 * r + 1) % 16, w % 10)
  adapters :=
    { write := .adapter
      read := fun | .adapter w => some w | _ => none
      read_write := fun _ => rfl }
  states :=
    { write := .states
      read := fun | .states s => some s | _ => none
      read_write := fun _ => rfl }
  reports :=
    { write := .report
      read := fun | .report r => some r | _ => none
      read_write := fun _ => rfl }
  sealing :=
    { checkpointSeal := List.length
      verifyCheckpoint := fun s files => s == files.length
      verify_seal := fun _ => beq_self_eq_true _ }
  digest _ := "digest"
  baseDigest := "base"
  binding := "binding"

/-- A run that is interrupted after a step, crashes and starts again. -/
def events : List Event :=
  [.start none, .proceed, .proceed, .interrupt, .proceed, .crash, .start none] ++
    List.replicate 6 .proceed

end Interrupted

open Interrupted in
theorem interrupted_eq : ∃ k, (trainer.run (.start none :: List.replicate k .proceed)).published =
    (trainer.run events).published ∧ (trainer.run events).published.isSome := by
  have hfinished : (trainer.run events).published.isSome := by rfl
  obtain ⟨r, hr⟩ := Option.isSome_iff_exists.1 hfinished
  obtain ⟨k, hk, -⟩ := resumed_eq_uninterrupted trainer events r hr
  exact ⟨k, hk.trans hr.symm, hfinished⟩

end Lora

end AdaptiveLlm
