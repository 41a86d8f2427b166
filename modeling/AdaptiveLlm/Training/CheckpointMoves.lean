import AdaptiveLlm.Lib.Names
import Mathlib.Data.List.AList
import Mathlib.Data.List.Sort
import Mathlib.Data.String.Basic

set_option autoImplicit false

/-! # Checkpoint directories of a job

`_move_checkpoints` and the order of moves in `_run` (`training/service.py`). An attempt brings what is
archived back into the working directory, trains, archives the checkpoints and renames the working
directory into place. Every rename is a step of its own, behind which the process may die; a new attempt
starts from what is on disk. The lease of the job lets one attempt run at a time.

The states of the system are the two directories and the place in the code, and a crash may come
between any two renames. The invariant has a part for each place. Restoring moves checkpoints one
way and archiving the other, so a crash in the middle of either leaves some on each side; the next
attempt begins with restoring, which is why none can be on both sides when a name is moved back. -/

namespace AdaptiveLlm

namespace CheckpointMoves

/-! ## Directories -/

/-- What a directory holds under a name. -/
inductive Entry (C : Type) where
  | directory (contents : C)
  | file
  | symlink

/-- The entries of a directory by their names. -/
abbrev Directory (C : Type) := AList fun _ : String => Entry C

variable {C : Type}

/-- The entry of a directory, which may not exist. -/
def entry (d : Option (Directory C)) (name : String) : Option (Entry C) := d.bind (·.lookup name)

/-- `checkpoint-*` and `.checkpoint-*`. -/
def isCheckpoint (name : String) : Bool :=
  "checkpoint-".toList.isPrefixOf name.toList || ".checkpoint-".toList.isPrefixOf name.toList

/-- The names that both globs find, sorted. -/
def checkpointNames (d : Option (Directory C)) : List String :=
  ((d.elim [] AList.keys).filter isCheckpoint).mergeSort (· ≤ ·)

/-- The entry is a directory. -/
def Entry.isDirectory : Entry C → Bool
  | .directory _ => true
  | _ => false

/-- The check that `_move_checkpoints` makes of all names before it moves one. -/
def movable (source destination : Option (Directory C)) : Except String (List String) :=
  if (checkpointNames source).any fun name =>
      !(entry source name).any Entry.isDirectory || (entry destination name).isSome then
    .error "checkpoint_integrity_failed"
  else .ok (checkpointNames source)

/-- `path.rename(destination / path.name)`; `none` is an `OSError`. -/
def rename (source destination : Option (Directory C)) (name : String) :
    Option (Option (Directory C) × Option (Directory C)) := do
  let a ← source
  let b ← destination
  let e ← a.lookup name
  if (b.lookup name).isSome then none
  else some (some (a.erase name), some (b.insert name e))

/-! ## The job -/

/-- The name of the checkpoint of a step. -/
def checkpointName (step : ℕ) : String := "checkpoint-" ++ toString step

/-- The name under which `save` writes a checkpoint, before it renames it. -/
def temporaryName (step : ℕ) : String := ".checkpoint-" ++ toString step

/-- How far an attempt is, with the renames that are left of a move. -/
inductive Phase where
  | idle
  | restoring (names : List String)
  | training
  | archiving (names : List String)
  | archived
  | published
  deriving DecidableEq

/-- The directories of a job, the attempt under way, and every checkpoint that was completed. -/
structure Job (C : Type) where
  working : Option (Directory C) := none
  archive : Option (Directory C) := none
  destination : Option (Directory C) := none
  phase : Phase := .idle
  completed : List (String × C) := []

/-- What may happen: an attempt starts; the next rename of a move; a move is done; a trainer writes a
    checkpoint aside and renames it, or writes it in place until it is complete; training returns; the
    working directory is renamed into place; the model is registered; an exception; the process dies. -/
inductive Event (C : Type) where
  | start
  | rename
  | moved
  | discard (step : ℕ)
  | prepare (step : ℕ) (contents : C)
  | save (step : ℕ)
  | write (step : ℕ) (contents : C)
  | finish (step : ℕ)
  | trained
  | publish
  | register
  | fail
  | crash

namespace Job

variable (s : Job C)

/-- `_run` up to the moves of the restore. -/
def start : Job C :=
  if s.phase = .idle ∧ s.destination.isNone then
    let working := some (s.working.getD ∅)
    match movable s.archive working with
    | .ok names => { s with working, phase := .restoring names }
    | .error _ => { s with working }
  else s

/-- The next rename of a move. Where it raises, the attempt ends. -/
def renameNext : Job C :=
  match s.phase with
  | .restoring (name :: names) =>
    match rename s.archive s.working name with
    | some (archive, working) => { s with archive, working, phase := .restoring names }
    | none => { s with phase := .idle }
  | .archiving (name :: names) =>
    match rename s.working s.archive name with
    | some (working, archive) => { s with archive, working, phase := .archiving names }
    | none => { s with phase := .idle }
  | _ => s

/-- The move is over, and the phase goes on. -/
def moved : Job C :=
  match s.phase with
  | .restoring [] => { s with phase := .training }
  | .archiving [] => { s with phase := .archived }
  | _ => s

/-- `save` removes what is left of an earlier write. -/
def discard (step : ℕ) : Job C :=
  match s.phase, s.working with
  | .training, some working => { s with working := some (working.erase (temporaryName step)) }
  | _, _ => s

/-- `save` writes the directory under a name of its own. -/
def prepare (step : ℕ) (contents : C) : Job C :=
  match s.phase, s.working with
  | .training, some working =>
    { s with working := some (working.insert (temporaryName step) (.directory contents)) }
  | _, _ => s

/-- The rename at the end of `save`, for a step that has no checkpoint. -/
def save (step : ℕ) : Job C :=
  match s.phase, s.working with
  | .training, some working =>
    match working.lookup (temporaryName step), working.lookup (checkpointName step) with
    | some (.directory contents), none =>
      { s with
        working := some ((working.erase (temporaryName step)).insert (checkpointName step)
          (.directory contents))
        completed := s.completed ++ [(checkpointName step, contents)] }
    | _, _ => s
  | _, _ => s

/-- The reference trainer writes the files of a checkpoint in place, each once. -/
def write (step : ℕ) (contents : C) : Job C :=
  match s.phase, s.working with
  | .training, some working =>
    if checkpointName step ∈ s.completed.map (·.1) then s
    else { s with working := some (working.insert (checkpointName step) (.directory contents)) }
  | _, _ => s

/-- The reference trainer has written the last file of a checkpoint. -/
def finish (step : ℕ) : Job C :=
  match s.phase, entry s.working (checkpointName step) with
  | .training, some (.directory contents) =>
    { s with completed := s.completed ++ [(checkpointName step, contents)] }
  | _, _ => s

/-- Training has returned, and the archiving begins. -/
def trained : Job C :=
  match s.phase with
  | .training =>
    match movable s.working s.archive with
    | .ok [] => { s with phase := .archiving [] }
    | .ok names => { s with archive := some (s.archive.getD ∅), phase := .archiving names }
    | .error _ => { s with phase := .idle }
  | _ => s

/-- `working.rename(destination)`. -/
def publish : Job C :=
  match s.phase with
  | .archived => { s with working := none, destination := s.working, phase := .published }
  | _ => s

/-- The artifact is registered, and the job rests. -/
def register : Job C :=
  match s.phase with
  | .published => { s with phase := .idle }
  | _ => s

/-- The handler of an exception takes a publication back. -/
def fail : Job C :=
  match s.phase with
  | .published => { s with working := s.destination, destination := none, phase := .idle }
  | _ => { s with phase := .idle }

/-- One event of a run. -/
def handle : Event C → Job C
  | .start => s.start
  | .rename => s.renameNext
  | .moved => s.moved
  | .discard step => s.discard step
  | .prepare step contents => s.prepare step contents
  | .save step => s.save step
  | .write step contents => s.write step contents
  | .finish step => s.finish step
  | .trained => s.trained
  | .publish => s.publish
  | .register => s.register
  | .fail => s.fail
  | .crash => { s with phase := .idle }

/-- The job behind some events. -/
def run (events : List (Event C)) : Job C := events.foldl handle s

end Job

/-! ## Names -/

theorem isCheckpoint_checkpointName (step : ℕ) : isCheckpoint (checkpointName step) = true := by
  have hprefix : "checkpoint-".toList.isPrefixOf (checkpointName step).toList = true :=
    Names.startsWith_append _ _
  rw [isCheckpoint, hprefix, Bool.true_or]

theorem checkpointName_ne_temporaryName (step step' : ℕ) : checkpointName step ≠ temporaryName step' := by
  refine Names.ne_of_head ?_
  rw [checkpointName, temporaryName]
  simp

theorem mem_checkpointNames {d : Option (Directory C)} {name : String} :
    name ∈ checkpointNames d ↔ isCheckpoint name = true ∧ (entry d name).isSome = true := by
  rw [checkpointNames, (List.mergeSort_perm _ _).mem_iff, List.mem_filter]
  cases d with
  | none => simp [entry]
  | some d => simp [entry, AList.lookup_isSome, AList.mem_keys, and_comm]

/-- A directory that is made where there is none is empty. -/
theorem entry_getD (d : Option (Directory C)) (name : String) :
    entry (some (d.getD ∅)) name = entry d name := by
  cases d with
  | none => simp [entry]
  | some d => rfl

theorem nodup_checkpointNames (d : Option (Directory C)) : (checkpointNames d).Nodup := by
  rw [checkpointNames, (List.mergeSort_perm _ _).nodup_iff]
  cases d with
  | none => exact List.nodup_nil
  | some d => exact d.keys_nodup.filter _

/-! ## Two places -/

/-- The checkpoints that were completed are each in one of two directories, and no checkpoint's name is in
    both; what has such a name is a directory. -/
structure Stored (completed : List (String × C)) (a b : Option (Directory C)) : Prop where
  disjoint : ∀ name, isCheckpoint name = true → entry a name = none ∨ entry b name = none
  directories : ∀ name e, isCheckpoint name = true → entry a name = some e ∨ entry b name = some e →
    e.isDirectory = true
  placed : ∀ p ∈ completed, (∃ step, p.1 = checkpointName step) ∧
    (entry a p.1 = some (.directory p.2) ∨ entry b p.1 = some (.directory p.2))

namespace Stored

variable {completed : List (String × C)} {a b : Option (Directory C)}

theorem symm (h : Stored completed a b) : Stored completed b a where
  disjoint name hname := (h.disjoint name hname).symm
  directories name e hname he := h.directories name e hname he.symm
  placed p hp := ⟨(h.placed p hp).1, (h.placed p hp).2.symm⟩

/-- Only the entries matter. -/
theorem congr (h : Stored completed a b) {a' : Option (Directory C)} (ha : ∀ n, entry a' n = entry a n) :
    Stored completed a' b where
  disjoint n := by
    rw [ha]
    exact h.disjoint n
  directories n e := by
    rw [ha]
    exact h.directories n e
  placed p hp := by
    rw [ha]
    exact h.placed p hp

/-- All checkpoints can be moved. -/
theorem movable_eq (h : Stored completed a b) : movable a b = .ok (checkpointNames a) := by
  rw [movable, if_neg]
  rw [Bool.not_eq_true, List.any_eq_false]
  intro name hname
  obtain ⟨hcheckpoint, hsome⟩ := mem_checkpointNames.1 hname
  obtain ⟨e, he⟩ := Option.isSome_iff_exists.1 hsome
  have hnone := (h.disjoint name hcheckpoint).resolve_left (by simp [he])
  simp [he, hnone, h.directories name e hcheckpoint (.inl he)]

/-- Behind a rename from one to the other. -/
theorem move (h : Stored completed a b) {a' b' : Option (Directory C)} {name : String} {e : Entry C}
    (he : entry a name = some e) (ha' : ∀ n, entry a' n = if n = name then none else entry a n)
    (hb' : ∀ n, entry b' n = if n = name then some e else entry b n) : Stored completed a' b' where
  disjoint n hn := by
    rw [ha', hb']
    split_ifs
    · exact .inl rfl
    · exact h.disjoint n hn
  directories n e' hn he' := by
    rw [ha', hb'] at he'
    split_ifs at he' with hname
    · have he' := he'.resolve_left (by simp)
      subst hname
      exact h.directories n e' hn (.inl (he.trans he'))
    · exact h.directories n e' hn he'
  placed p hp := by
    obtain ⟨hcheckpoint, hplaced⟩ := h.placed p hp
    refine ⟨hcheckpoint, ?_⟩
    rw [ha', hb']
    split_ifs with hname
    · rw [hname, he] at hplaced
      obtain ⟨step, hstep⟩ := hcheckpoint
      have hother := (h.disjoint name (by rw [← hname, hstep, isCheckpoint_checkpointName])).resolve_left
        (by simp [he])
      exact .inr (hplaced.resolve_right (by simp [hother]))
    · exact hplaced

/-- While one directory has no checkpoint, a name of the other that is not completed may change. -/
theorem update (h : Stored completed a b) {a' : Option (Directory C)} {name : String}
    (hb : ∀ n, isCheckpoint n = true → entry b n = none) (hfree : ∀ p ∈ completed, p.1 ≠ name)
    (hsame : ∀ n, n ≠ name → entry a' n = entry a n)
    (hdirectory : ∀ e, entry a' name = some e → e.isDirectory = true) : Stored completed a' b where
  disjoint n hn := .inr (hb n hn)
  directories n e hn he := by
    rw [hb n hn, or_iff_left (by simp)] at he
    by_cases hname : n = name
    · exact hdirectory e (hname ▸ he)
    · exact h.directories n e hn (.inl (hsame n hname ▸ he))
  placed p hp := by
    rw [hsame p.1 (hfree p hp)]
    exact h.placed p hp

/-- A checkpoint that is there is completed. -/
theorem complete (h : Stored completed a b) {step : ℕ} {contents : C}
    (he : entry a (checkpointName step) = some (.directory contents)) :
    Stored (completed ++ [(checkpointName step, contents)]) a b where
  disjoint := h.disjoint
  directories := h.directories
  placed p hp := by
    rcases List.mem_append.1 hp with hp | hp
    · exact h.placed p hp
    · rw [List.mem_singleton.1 hp]
      exact ⟨⟨step, rfl⟩, .inl he⟩

end Stored

/-- **A rename** of a name that the other directory does not have. -/
theorem rename_eq {a b : Option (Directory C)} {name : String} {e : Entry C} (he : entry a name = some e)
    (hb : b.isSome) (hfree : entry b name = none) :
    ∃ a' b', rename a b name = some (a', b') ∧ a'.isSome ∧ b'.isSome ∧
      (∀ n, entry a' n = if n = name then none else entry a n) ∧
      ∀ n, entry b' n = if n = name then some e else entry b n := by
  obtain ⟨b, rfl⟩ := Option.isSome_iff_exists.1 hb
  cases a with
  | none => cases he
  | some a =>
    simp only [entry, Option.bind_some] at he hfree
    refine ⟨some (a.erase name), some (b.insert name e), by simp [rename, he, hfree], rfl, rfl,
      fun n => ?_, fun n => ?_⟩
    · split_ifs with hn
      · subst hn
        exact AList.lookup_erase n a
      · exact AList.lookup_erase_ne hn
    · split_ifs with hn
      · subst hn
        exact AList.lookup_insert b
      · exact AList.lookup_insert_ne hn

/-! ## What every step keeps

Each phase knows which of the two directories is the source of the moves and that no name is in
both. A crash forgets the phase, and what is left is exactly what the next attempt expects. -/

/-- No checkpoint is in the directory. -/
def Clear (d : Option (Directory C)) : Prop := ∀ name, isCheckpoint name = true → entry d name = none

/-- The checkpoints in the directory. -/
structure Holds (d : Option (Directory C)) (names : List String) : Prop where
  nodup : names.Nodup
  mem_iff : ∀ name, name ∈ names ↔ isCheckpoint name = true ∧ (entry d name).isSome = true

theorem holds_checkpointNames (d : Option (Directory C)) : Holds d (checkpointNames d) where
  nodup := nodup_checkpointNames d
  mem_iff _ := mem_checkpointNames

theorem Holds.clear {d : Option (Directory C)} (h : Holds d []) : Clear d := by
  intro name hname
  by_contra hsome
  have hmem := (h.mem_iff name).2 ⟨hname, Option.isSome_iff_ne_none.2 hsome⟩
  cases hmem

theorem Holds.move {d d' : Option (Directory C)} {name : String} {names : List String}
    (h : Holds d (name :: names)) (hd' : ∀ n, entry d' n = if n = name then none else entry d n) :
    Holds d' names := by
  obtain ⟨hnew, hnodup⟩ := List.nodup_cons.1 h.nodup
  refine ⟨hnodup, fun n => ?_⟩
  rw [hd']
  split_ifs with hn
  · simp [hn, hnew]
  · rw [← h.mem_iff, List.mem_cons, or_iff_right hn]

/-- How the directories stand in a phase. -/
def PhaseSound (s : Job C) : Prop :=
  match s.phase with
  | .idle => True
  | .restoring names => s.destination = none ∧ s.working.isSome ∧ Holds s.archive names
  | .training => s.destination = none ∧ s.working.isSome ∧ Clear s.archive
  | .archiving names =>
    s.destination = none ∧ s.working.isSome ∧ (names ≠ [] → s.archive.isSome) ∧ Holds s.working names
  | .archived => s.destination = none ∧ s.working.isSome ∧ Clear s.working
  | .published => s.working = none ∧ Clear s.destination

/-- **The invariant.** -/
structure Sound (s : Job C) : Prop where
  stored : Stored s.completed s.working s.archive
  destination : s.destination.isSome → s.working = none
  phase : PhaseSound s

namespace Sound

variable {s : Job C}

theorem idle (h : Sound s) : Sound { s with phase := .idle } := ⟨h.stored, h.destination, trivial⟩

theorem init : Sound ({} : Job C) where
  stored := ⟨fun _ _ => .inl rfl, nofun, nofun⟩
  destination := nofun
  phase := trivial

theorem start (h : Sound s) : Sound s.start := by
  unfold Job.start
  split_ifs with henabled
  · obtain ⟨-, hdestination⟩ := henabled
    rw [Option.isNone_iff_eq_none] at hdestination
    have hstored : Stored s.completed (some (s.working.getD ∅)) s.archive :=
      h.stored.congr (entry_getD s.working)
    dsimp only
    rw [hstored.symm.movable_eq]
    exact ⟨hstored, by simp [hdestination], hdestination, rfl, holds_checkpointNames _⟩
  · exact h

/-- A rename of a restore cannot fail. -/
theorem renameNext_restoring (h : Sound s) {name : String} {names : List String}
    (hphase : s.phase = .restoring (name :: names)) :
    ∃ archive working, s.renameNext = { s with archive, working, phase := .restoring names } ∧
      Sound s.renameNext := by
  obtain ⟨hdestination, hworking, hholds⟩ : s.destination = none ∧ s.working.isSome ∧
      Holds s.archive (name :: names) := by simpa only [PhaseSound, hphase] using h.phase
  obtain ⟨hcheckpoint, hsome⟩ := (hholds.mem_iff name).1 List.mem_cons_self
  obtain ⟨e, he⟩ := Option.isSome_iff_exists.1 hsome
  have hfree := (h.stored.disjoint name hcheckpoint).resolve_right (by simp [he])
  obtain ⟨archive, working, hrename, -, hworking', harchive, hmoved⟩ := rename_eq he hworking hfree
  have hnext : s.renameNext = { s with archive, working, phase := .restoring names } := by
    simp only [Job.renameNext, hphase, hrename]
  rw [hnext]
  exact ⟨archive, working, rfl, (h.stored.symm.move he harchive hmoved).symm, by simp [hdestination],
    hdestination, hworking', hholds.move harchive⟩

theorem renameNext_archiving (h : Sound s) {name : String} {names : List String}
    (hphase : s.phase = .archiving (name :: names)) : Sound s.renameNext := by
  obtain ⟨hdestination, -, harchive, hholds⟩ : s.destination = none ∧ s.working.isSome ∧
      (name :: names ≠ [] → s.archive.isSome) ∧ Holds s.working (name :: names) := by
    simpa only [PhaseSound, hphase] using h.phase
  obtain ⟨hcheckpoint, hsome⟩ := (hholds.mem_iff name).1 List.mem_cons_self
  obtain ⟨e, he⟩ := Option.isSome_iff_exists.1 hsome
  have hfree := (h.stored.disjoint name hcheckpoint).resolve_left (by simp [he])
  obtain ⟨working, archive, hrename, hworking', harchive', hleft, hmoved⟩ :=
    rename_eq he (harchive (List.cons_ne_nil _ _)) hfree
  have hnext : s.renameNext = { s with archive, working, phase := .archiving names } := by
    simp only [Job.renameNext, hphase, hrename]
  rw [hnext]
  exact ⟨h.stored.move he hleft hmoved, by simp [hdestination], hdestination, hworking',
    fun _ => harchive', hholds.move hleft⟩

theorem renameNext (h : Sound s) : Sound s.renameNext := by
  match hphase : s.phase with
  | .restoring (name :: names) =>
    obtain ⟨-, -, -, hsound⟩ := h.renameNext_restoring hphase
    exact hsound
  | .archiving (name :: names) => exact h.renameNext_archiving hphase
  | .idle | .restoring [] | .training | .archiving [] | .archived | .published =>
    simpa only [Job.renameNext, hphase] using h

theorem moved (h : Sound s) : Sound s.moved := by
  have hsound := h.phase
  match hphase : s.phase with
  | .restoring [] =>
    obtain ⟨hdestination, hworking, hholds⟩ : s.destination = none ∧ s.working.isSome ∧
        Holds s.archive [] := by simpa only [PhaseSound, hphase] using hsound
    simp only [Job.moved, hphase]
    exact ⟨h.stored, h.destination, hdestination, hworking, hholds.clear⟩
  | .archiving [] =>
    obtain ⟨hdestination, hworking, -, hholds⟩ : s.destination = none ∧ s.working.isSome ∧
        (([] : List String) ≠ [] → s.archive.isSome) ∧ Holds s.working [] := by
      simpa only [PhaseSound, hphase] using hsound
    simp only [Job.moved, hphase]
    exact ⟨h.stored, h.destination, hdestination, hworking, hholds.clear⟩
  | .idle | .restoring (_ :: _) | .training | .archiving (_ :: _) | .archived | .published =>
    simpa only [Job.moved, hphase] using h

/-- While it trains, an attempt may change what is not completed in its working directory. -/
theorem update (h : Sound s) (hphase : s.phase = .training) {working : Directory C} {name : String}
    (hfree : ∀ p ∈ s.completed, p.1 ≠ name)
    (hsame : ∀ n, n ≠ name → working.lookup n = entry s.working n)
    (hdirectory : ∀ e, working.lookup name = some e → e.isDirectory = true) :
    Sound { s with working := some working } := by
  obtain ⟨hdestination, -, hclear⟩ : s.destination = none ∧ s.working.isSome ∧ Clear s.archive := by
    simpa only [PhaseSound, hphase] using h.phase
  refine ⟨h.stored.update hclear hfree hsame hdirectory, by simp [hdestination], ?_⟩
  simp only [PhaseSound, hphase]
  exact ⟨hdestination, rfl, hclear⟩

/-- A completed checkpoint has another name than what `save` writes aside. -/
theorem ne_temporaryName (h : Sound s) (step : ℕ) : ∀ p ∈ s.completed, p.1 ≠ temporaryName step := by
  intro p hp
  obtain ⟨⟨step', hstep⟩, -⟩ := h.stored.placed p hp
  rw [hstep]
  exact checkpointName_ne_temporaryName step' step

theorem complete (h : Sound s) {step : ℕ} {contents : C}
    (he : entry s.working (checkpointName step) = some (.directory contents)) :
    Sound { s with completed := s.completed ++ [(checkpointName step, contents)] } :=
  ⟨h.stored.complete he, h.destination, h.phase⟩

theorem discard (h : Sound s) (step : ℕ) : Sound (s.discard step) := by
  unfold Job.discard
  split
  case h_1 working hphase hworking =>
    refine h.update hphase (h.ne_temporaryName step) (fun n hn => ?_) fun e he => ?_
    · rw [hworking]
      exact AList.lookup_erase_ne hn
    · rw [AList.lookup_erase] at he
      cases he
  case h_2 => exact h

theorem prepare (h : Sound s) (step : ℕ) (contents : C) : Sound (s.prepare step contents) := by
  unfold Job.prepare
  split
  case h_1 working hphase hworking =>
    refine h.update hphase (h.ne_temporaryName step) (fun n hn => ?_) fun e he => ?_
    · rw [hworking]
      exact AList.lookup_insert_ne hn
    · rw [AList.lookup_insert] at he
      cases he
      rfl
  case h_2 => exact h

theorem write (h : Sound s) (step : ℕ) (contents : C) : Sound (s.write step contents) := by
  unfold Job.write
  split
  case h_1 working hphase hworking =>
    split_ifs with hcompleted
    · exact h
    · have hfree : ∀ p ∈ s.completed, p.1 ≠ checkpointName step := by
        intro p hp heq
        exact hcompleted (heq ▸ List.mem_map_of_mem hp)
      refine h.update hphase hfree (fun n hn => ?_) fun e he => ?_
      · rw [hworking]
        exact AList.lookup_insert_ne hn
      · rw [AList.lookup_insert] at he
        cases he
        rfl
  case h_2 => exact h

theorem save (h : Sound s) (step : ℕ) : Sound (s.save step) := by
  unfold Job.save
  split
  case h_1 working hphase hworking =>
    split
    case h_1 contents htemporary hnone =>
      have herased : Sound { s with working := some (working.erase (temporaryName step)) } := by
        have hdiscard := h.discard step
        simpa only [Job.discard, hphase, hworking] using hdiscard
      have hfree : ∀ p ∈ s.completed, p.1 ≠ checkpointName step := by
        intro p hp heq
        obtain ⟨-, hworking' | harchive⟩ := h.stored.placed p hp
        · rw [heq, hworking] at hworking'
          exact absurd (hnone.symm.trans hworking') nofun
        · have hclear : Clear s.archive := by
            have hsound := h.phase
            simp only [PhaseSound, hphase] at hsound
            exact hsound.2.2
          rw [heq, hclear _ (isCheckpoint_checkpointName step)] at harchive
          cases harchive
      have hplaced : Sound { s with
          working := some ((working.erase (temporaryName step)).insert (checkpointName step)
            (.directory contents)) } :=
        herased.update hphase hfree (fun n hn => AList.lookup_insert_ne hn) fun e he => by
          rw [AList.lookup_insert] at he
          cases he
          rfl
      exact hplaced.complete (AList.lookup_insert _)
    case h_2 => exact h
  case h_2 => exact h

theorem finish (h : Sound s) (step : ℕ) : Sound (s.finish step) := by
  unfold Job.finish
  split
  case h_1 contents hphase he => exact h.complete he
  case h_2 => exact h

theorem trained (h : Sound s) : Sound s.trained := by
  unfold Job.trained
  split
  case h_1 hphase =>
    obtain ⟨hdestination, hworking, hclear⟩ : s.destination = none ∧ s.working.isSome ∧
        Clear s.archive := by simpa only [PhaseSound, hphase] using h.phase
    have hholds := holds_checkpointNames s.working
    rw [h.stored.movable_eq]
    match hnames : checkpointNames s.working with
    | [] =>
      rw [hnames] at hholds
      exact ⟨h.stored, h.destination, hdestination, hworking, fun hne => absurd rfl hne, hholds⟩
    | name :: names =>
      rw [hnames] at hholds
      have hstored : Stored s.completed s.working (some (s.archive.getD ∅)) :=
        (h.stored.symm.congr (entry_getD s.archive)).symm
      exact ⟨hstored, h.destination, hdestination, hworking, fun _ => rfl, hholds⟩
  case h_2 => exact h

theorem publish (h : Sound s) : Sound s.publish := by
  unfold Job.publish
  split
  case h_1 hphase =>
    obtain ⟨-, -, hclear⟩ : s.destination = none ∧ s.working.isSome ∧ Clear s.working := by
      simpa only [PhaseSound, hphase] using h.phase
    refine ⟨⟨fun n _ => .inl rfl, fun n e hn he => ?_, fun p hp => ?_⟩, fun _ => rfl, rfl, hclear⟩
    · exact h.stored.directories n e hn (.inr (he.resolve_left nofun))
    · obtain ⟨⟨step, hstep⟩, hplaced⟩ := h.stored.placed p hp
      have hnone := hclear p.1 (hstep ▸ isCheckpoint_checkpointName step)
      exact ⟨⟨step, hstep⟩, .inr (hplaced.resolve_left (by simp [hnone]))⟩
  case h_2 => exact h

theorem register (h : Sound s) : Sound s.register := by
  unfold Job.register
  split
  case h_1 => exact h.idle
  case h_2 => exact h

theorem fail (h : Sound s) : Sound s.fail := by
  unfold Job.fail
  split
  case h_1 hphase =>
    obtain ⟨hworking, hclear⟩ : s.working = none ∧ Clear s.destination := by
      simpa only [PhaseSound, hphase] using h.phase
    refine ⟨⟨fun n hn => .inl (hclear n hn), fun n e hn he => ?_, fun p hp => ?_⟩, nofun, trivial⟩
    · exact h.stored.directories n e hn (.inr (he.resolve_left (by simp [hclear n hn])))
    · obtain ⟨hname, hplaced⟩ := h.stored.placed p hp
      exact ⟨hname, .inr (hplaced.resolve_left (by simp [hworking, entry]))⟩
  case h_2 => exact h.idle

/-- **Every step** keeps the invariant. -/
theorem handle (h : Sound s) (event : Event C) : Sound (s.handle event) := by
  cases event with
  | start => exact h.start
  | rename => exact h.renameNext
  | moved => exact h.moved
  | discard step => exact h.discard step
  | prepare step contents => exact h.prepare step contents
  | save step => exact h.save step
  | write step contents => exact h.write step contents
  | finish step => exact h.finish step
  | trained => exact h.trained
  | publish => exact h.publish
  | register => exact h.register
  | fail => exact h.fail
  | crash => exact h.idle

theorem run (h : Sound s) (events : List (Event C)) : Sound (s.run events) := by
  induction events generalizing s with
  | nil => exact h
  | cons event events ih => exact ih (h.handle event)

/-- What is left of a restore succeeds. -/
theorem restore (h : Sound s) {names : List String} (hphase : s.phase = .restoring names) :
    (s.run (List.replicate names.length .rename ++ [.moved])).phase = .training ∧
      (s.run (List.replicate names.length .rename ++ [.moved])).completed = s.completed := by
  induction names generalizing s with
  | nil =>
    have hmoved : s.run [.moved] = s.moved := rfl
    rw [List.length_nil, List.replicate_zero, List.nil_append, hmoved]
    simp [Job.moved, hphase]
  | cons name names ih =>
    obtain ⟨archive, working, hnext, hsound⟩ := h.renameNext_restoring hphase
    obtain ⟨htraining, hcompleted⟩ := ih hsound (by rw [hnext])
    refine ⟨htraining, hcompleted.trans ?_⟩
    rw [hnext]

theorem start_phase (h : Sound s) (hidle : s.phase = .idle) (hdestination : s.destination = none) :
    s.start.phase = .restoring (checkpointNames s.archive) ∧ s.start.completed = s.completed := by
  have hstored := (h.stored.congr (entry_getD s.working)).symm
  simp [Job.start, hidle, hdestination, hstored.movable_eq]

/-- A completed checkpoint is in one of the two directories, whole, and not in the other. -/
theorem exactly_one (h : Sound s) {p : String × C} (hp : p ∈ s.completed) :
    entry s.working p.1 = some (.directory p.2) ∧ entry s.archive p.1 = none ∨
      entry s.archive p.1 = some (.directory p.2) ∧ entry s.working p.1 = none := by
  obtain ⟨⟨step, hstep⟩, hplaced⟩ := h.stored.placed p hp
  have hdisjoint := h.stored.disjoint p.1 (hstep ▸ isCheckpoint_checkpointName step)
  rcases hplaced with hworking | harchive
  · exact .inl ⟨hworking, hdisjoint.resolve_left (by simp [hworking])⟩
  · exact .inr ⟨harchive, hdisjoint.resolve_right (by simp [harchive])⟩

/-- Training finds all completed checkpoints in its working directory. -/
theorem training (h : Sound s) (hphase : s.phase = .training) {p : String × C} (hp : p ∈ s.completed) :
    entry s.working p.1 = some (.directory p.2) := by
  obtain ⟨-, -, hclear⟩ : s.destination = none ∧ s.working.isSome ∧ Clear s.archive := by
    simpa only [PhaseSound, hphase] using h.phase
  obtain ⟨⟨step, hstep⟩, hplaced⟩ := h.stored.placed p hp
  have hnone := hclear p.1 (hstep ▸ isCheckpoint_checkpointName step)
  exact hplaced.resolve_right (by simp [hnone])

end Sound

/-- **Checkpoints are kept.** Whatever happens to the attempts of a job, each checkpoint that was ever
    completed is in exactly one of the working directory and the archive. A new attempt, while no model is
    published, restores: every rename succeeds, and training begins with all of them before it. -/
theorem checkpoints_kept (events : List (Event C)) :
    let s := ({} : Job C).run events
    (∀ p ∈ s.completed,
      entry s.working p.1 = some (.directory p.2) ∧ entry s.archive p.1 = none ∨
        entry s.archive p.1 = some (.directory p.2) ∧ entry s.working p.1 = none) ∧
    (s.phase = .training → ∀ p ∈ s.completed, entry s.working p.1 = some (.directory p.2)) ∧
    (s.phase = .idle → s.destination = none →
      let retried := s.run (.start :: List.replicate (checkpointNames s.archive).length .rename ++ [.moved])
      retried.phase = .training ∧ retried.completed = s.completed ∧
        ∀ p ∈ s.completed, entry retried.working p.1 = some (.directory p.2)) := by
  intro s
  have hsound : Sound s := Sound.init.run events
  refine ⟨fun p hp => hsound.exactly_one hp, fun hphase p hp => hsound.training hphase hp, ?_⟩
  intro hidle hdestination retried
  obtain ⟨hphase, hstarted⟩ := hsound.start_phase hidle hdestination
  obtain ⟨htraining, hcompleted⟩ := hsound.start.restore hphase
  have hkept : retried.completed = s.completed := hcompleted.trans hstarted
  have hretried : Sound retried := hsound.run _
  exact ⟨htraining, hkept, fun p hp => hretried.training htraining (hkept ▸ hp)⟩

end CheckpointMoves

end AdaptiveLlm
