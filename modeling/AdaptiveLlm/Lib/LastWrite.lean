import Mathlib.Data.List.Induction
import Mathlib.Data.List.Nodup
import Mathlib.Logic.Function.Basic

set_option autoImplicit false

/-! # Registers

A register file holds a value for every key. What it holds after some writes is, for each key, what
the last write of the key was, or what it held before. A system with a view that its labels change
like writes shows, after every run, the last write of each key.

The run rule needs a view of the state that each step changes exactly as the writes of its label
say; it does not ask how the state is represented, or what else a step does. Which writes a label
stands for may depend on the state, as a call that fails writes nothing. -/

namespace LastWrite

variable {κ ν σ α : Type*} [DecidableEq κ]

/-- The last value written to a key. -/
def last (writes : List (κ × ν)) (k : κ) : Option ν :=
  (writes.reverse.find? (·.1 = k)).map (·.2)

/-- The writes, one after the other. -/
def apply (f : κ → ν) (writes : List (κ × ν)) : κ → ν :=
  writes.foldl (fun f w => Function.update f w.1 w.2) f

@[simp] theorem apply_nil (f : κ → ν) : apply f [] = f := rfl

theorem apply_append (f : κ → ν) (writes writes' : List (κ × ν)) :
    apply f (writes ++ writes') = apply (apply f writes) writes' :=
  List.foldl_append

theorem last_append_singleton (writes : List (κ × ν)) (w : κ × ν) (k : κ) :
    last (writes ++ [w]) k = if w.1 = k then some w.2 else last writes k := by
  unfold last
  rw [List.reverse_append, List.reverse_singleton, List.singleton_append, List.find?_cons]
  by_cases h : w.1 = k <;> simp [h]

theorem last_append (writes writes' : List (κ × ν)) (k : κ) :
    last (writes ++ writes') k = (last writes' k).or (last writes k) := by
  unfold last
  rw [List.reverse_append, List.find?_append]
  cases writes'.reverse.find? (·.1 = k) <;> rfl

/-- **A register holds its last write.** -/
theorem apply_eq_last (f : κ → ν) (writes : List (κ × ν)) (k : κ) :
    apply f writes k = (last writes k).getD (f k) := by
  induction writes using List.reverseRecOn with
  | nil => rfl
  | append_singleton writes w ih =>
    rw [apply_append, last_append_singleton]
    show Function.update (apply f writes) w.1 w.2 k = _
    by_cases h : w.1 = k
    · subst h
      simp
    · rw [Function.update_of_ne (Ne.symm h), if_neg h, ih]

theorem mem_of_last_eq_some {writes : List (κ × ν)} {k : κ} {v : ν} (h : last writes k = some v) :
    k ∈ writes.map (·.1) := by
  obtain ⟨w, hfind, -⟩ := Option.map_eq_some_iff.1 h
  have hkey : w.1 = k := by simpa using List.find?_some hfind
  exact List.mem_map.2 ⟨w, List.mem_reverse.1 (List.mem_of_find?_eq_some hfind), hkey⟩

theorem apply_of_not_mem (f : κ → ν) {writes : List (κ × ν)} {k : κ}
    (h : k ∉ writes.map (·.1)) : apply f writes k = f k := by
  have hlast : last writes k = none := by
    rw [last, List.find?_eq_none.2, Option.map_none]
    intro w hw
    have hne : w.1 ≠ k := fun hk => h (List.mem_map.2 ⟨w, List.mem_reverse.1 hw, hk⟩)
    simpa using hne
  rw [apply_eq_last, hlast, Option.getD_none]

/-- A register that is written holds one of the values written to it. -/
theorem exists_mem_apply (f : κ → ν) {writes : List (κ × ν)} {k : κ}
    (h : k ∈ writes.map (·.1)) : ∃ w ∈ writes, w.1 = k ∧ apply f writes k = w.2 := by
  obtain ⟨w, hw, hk⟩ := List.mem_map.1 h
  have hsome : (writes.reverse.find? (·.1 = k)).isSome = true :=
    List.find?_isSome.2 ⟨w, List.mem_reverse.2 hw, by simpa using hk⟩
  obtain ⟨w', hfind⟩ := Option.isSome_iff_exists.1 hsome
  have hkey : w'.1 = k := by simpa using List.find?_some hfind
  refine ⟨w', List.mem_reverse.1 (List.mem_of_find?_eq_some hfind), hkey, ?_⟩
  rw [apply_eq_last, last, hfind]
  rfl

/-- A register written once holds what was written. -/
theorem apply_of_nodup (f : κ → ν) {writes : List (κ × ν)} (hnodup : (writes.map (·.1)).Nodup)
    {w : κ × ν} (hw : w ∈ writes) : apply f writes w.1 = w.2 := by
  obtain ⟨w', hw', hkey, happly⟩ := exists_mem_apply f (List.mem_map_of_mem hw)
  rw [happly, List.inj_on_of_nodup_map hnodup hw' hw hkey]

/-- The writes that the labels of a run stand for, each in its state. -/
def along (step : σ → α → σ) (writes : σ → α → List (κ × ν)) : σ → List α → List (κ × ν)
  | _, [] => []
  | s, a :: as => writes s a ++ along step writes (step s a) as

/-- **Run rule.** Where every label changes the view by the writes it stands for, a run changes it by
    those of all its labels. -/
theorem view_foldl {step : σ → α → σ} {writes : σ → α → List (κ × ν)} {view : σ → κ → ν}
    (hstep : ∀ s a, view (step s a) = apply (view s) (writes s a)) (s : σ) (as : List α) :
    view (as.foldl step s) = apply (view s) (along step writes s as) := by
  induction as generalizing s with
  | nil => rfl
  | cons a as ih => rw [List.foldl_cons, ih, along, apply_append, hstep]

end LastWrite
