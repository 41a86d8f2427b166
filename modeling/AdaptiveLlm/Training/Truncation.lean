import AdaptiveLlm.Lib.Except
import AdaptiveLlm.Python.Slices

set_option autoImplicit false

/-! # Token sequences

The trainer (`training/lora.py`) and the instrumentation of a study (`research/tensors.py`) cut a tokenised
conversation to the limit of a specification, each with code of its own.

A token sequence is a prompt and a completion, and the limit is on both together. The completion is
cut to one token less than the limit, and the prompt then loses its beginning. Both implementations
write this with Python's slices, whose bounds may be zero or below: `-0` would mean the whole list,
and `Python/Slices.lean` has that case. So what is kept is computed with these slices first, and
then compared with what `List.take` and `List.drop` give. -/

namespace AdaptiveLlm

namespace Sequences

open Python (sliceFrom sliceTo sliceFrom_natCast sliceTo_natCast sliceFrom_neg)

/-! ## Conversations -/

/-- The roles of the messages of an example. -/
inductive Role where
  | system
  | user
  | assistant
  | tool
  deriving DecidableEq, Repr

/-- A message of an example. -/
structure TrainingMessage where
  role : Role
  content : String

/-- `TrainingExample`, with the fields of its input. -/
structure TrainingExample where
  messages : List TrainingMessage
  sources : List String := []
  target : String

/-- The messages of an example, with its sources before the answers of its tools. -/
def exampleMessages (row : TrainingExample) : List TrainingMessage :=
  row.messages.filter (·.role ≠ .tool) ++
    (if row.sources = [] then [] else [⟨.user, "\n".intercalate row.sources⟩]) ++
    row.messages.filter (·.role = .tool)

/-- How reading the examples can fail. -/
inductive TrainingError where
  /-- `GatewayError` -/
  | gateway (statusCode : ℕ) (code : String)
  /-- a row is no `TrainingExample` -/
  | validation
  deriving DecidableEq, Repr

/-- What reads an example and turns texts into tokens. -/
structure TokenServices where
  /-- `TrainingExample.model_validate_json` -/
  parse : List UInt8 → Option TrainingExample
  /-- `apply_chat_template`, with or without `add_generation_prompt` -/
  template : List TrainingMessage → Bool → List ℕ

/-! ## The two loops -/

section Loops

variable {D : Type} (sv : TokenServices)

/-- `prefix` and `full` of a row. -/
def tokenised (row : TrainingExample) : List ℕ × List ℕ :=
  let messages := exampleMessages row
  (sv.template messages true, sv.template (messages ++ [⟨.assistant, row.target⟩]) false)

/-- One row of the loop in `train`: the ids and labels, and the distributions that the checks of the soft
    targets leave for its target. -/
def trainerExample (soft : List UInt8 → List ℕ → Except TrainingError D) (maxSequenceLength : ℕ)
    (raw : List UInt8) : Except TrainingError ((List ℕ × List ℤ) × D) :=
  match sv.parse raw with
  | none => .error .validation
  | some row =>
    let (pre, full) := tokenised sv row
    if sliceTo full pre.length ≠ pre then .error (.gateway 422 "training_configuration_invalid")
    else
      let target := sliceTo (sliceFrom full pre.length) ((maxSequenceLength : ℤ) - 1)
      let prompt := sliceFrom pre (-((maxSequenceLength : ℤ) - target.length))
      if prompt = [] ∨ target = [] then .error (.gateway 422 "training_configuration_invalid")
      else do
        let distribution ← soft raw target
        .ok ((prompt ++ target, List.replicate prompt.length (-100) ++ target.map Nat.cast), distribution)

/-- The `examples` and `distributions` of `train`. -/
def trainerExamples (soft : List UInt8 → List ℕ → Except TrainingError D) (maxSequenceLength : ℕ)
    (rows : List (List UInt8)) : Except TrainingError (List ((List ℕ × List ℤ) × D)) :=
  if rows = [] then .error (.gateway 409 "empty_training_split")
  else rows.mapM (trainerExample sv soft maxSequenceLength)

/-- One row of the loop in `instrument`. -/
def studySequence (limit : ℕ) (raw : List UInt8) : Except TrainingError (List ℕ × List ℤ) :=
  match sv.parse raw with
  | none => .error .validation
  | some row =>
    let (pre, full) := tokenised sv row
    if sliceTo full pre.length ≠ pre then .error (.gateway 422 "training_configuration_invalid")
    else
      let target := sliceTo (sliceFrom full pre.length) ((limit : ℤ) - 1)
      let prompt := sliceFrom pre (-((limit : ℤ) - target.length))
      if prompt = [] ∨ target = [] then .error (.gateway 422 "training_configuration_invalid")
      else .ok (prompt ++ target, List.replicate prompt.length (-100) ++ target.map Nat.cast)

/-- The `sequences` and `targets` of `instrument`. -/
def studySequences (limit : ℕ) (rows : List (List UInt8)) : Except TrainingError (List (List ℕ × List ℤ)) :=
  rows.mapM (studySequence sv limit)

end Loops

/-! ## Truncation -/

/-- What becomes of a prompt and a completion under a limit. -/
structure Truncated (limit : ℕ) (pre completion prompt target ids : List ℕ) (labels : List ℤ) : Prop where
  joined : ids = prompt ++ target
  prompted : prompt ≠ [] ∧ prompt <:+ pre
  targeted : target ≠ [] ∧ target <+: completion
  bounded : ids.length ≤ limit
  /-- a token of the completion is dropped only where one token of the prompt is left -/
  preserved : target.length < completion.length → prompt.length = 1
  whole : pre.length + completion.length ≤ limit → prompt = pre ∧ target = completion
  labelled : labels.length = ids.length
  masked : ∀ i, labels[i]? = some (-100) ↔ i < prompt.length
  unmasked : ∀ i ≥ prompt.length, labels[i]? = ids[i]?.map Nat.cast

section Cut

variable {limit : ℕ} {pre completion : List ℕ}

/-- The prompt that is left beside a target. -/
def keptPrompt (limit : ℕ) (pre completion : List ℕ) : List ℕ :=
  pre.drop (pre.length - (limit - (completion.take (limit - 1)).length))

theorem length_keptPrompt :
    (keptPrompt limit pre completion).length =
    min pre.length (limit - min (limit - 1) completion.length) := by
  rw [keptPrompt, List.length_drop, List.length_take]
  omega

theorem truncated (hlimit : 2 ≤ limit) (hpre : pre ≠ []) (hcompletion : completion ≠ []) :
    Truncated limit pre completion (keptPrompt limit pre completion) (completion.take (limit - 1))
      (keptPrompt limit pre completion ++ completion.take (limit - 1))
      (List.replicate (keptPrompt limit pre completion).length (-100) ++
        (completion.take (limit - 1)).map Nat.cast) := by
  have hprompt := @length_keptPrompt limit pre completion
  have hpos := List.length_pos_iff.2 hpre
  have hpos' := List.length_pos_iff.2 hcompletion
  constructor
  case joined => rfl
  case prompted =>
    refine ⟨?_, List.drop_suffix _ _⟩
    rw [← List.length_pos_iff, hprompt]
    omega
  case targeted =>
    refine ⟨?_, List.take_prefix _ _⟩
    rw [← List.length_pos_iff, List.length_take]
    omega
  case bounded =>
    rw [List.length_append, hprompt, List.length_take]
    omega
  case preserved =>
    intro hcut
    rw [List.length_take] at hcut
    omega
  case whole =>
    intro hfits
    have htarget : completion.take (limit - 1) = completion := List.take_of_length_le (by omega)
    rw [keptPrompt, htarget, Nat.sub_eq_zero_of_le (by omega), List.drop_zero]
    exact ⟨rfl, rfl⟩
  case labelled => simp
  case masked =>
    intro i
    constructor
    · intro hmask
      by_contra hlt
      rw [List.getElem?_append_right (by simpa using hlt), List.getElem?_map,
        Option.map_eq_some_iff] at hmask
      obtain ⟨token, -, htoken⟩ := hmask
      omega
    · intro hlt
      rw [List.getElem?_append_left (by simpa using hlt), List.getElem?_replicate, if_pos hlt]
  case unmasked =>
    intro i hi
    rw [List.getElem?_append_right (by simpa using hi), List.getElem?_append_right hi,
      List.length_replicate, List.getElem?_map]

end Cut

/-! ## The sequences of the two loops -/

section Rows

variable {D : Type} {sv : TokenServices} {soft : List UInt8 → List ℕ → Except TrainingError D} {limit : ℕ}
  {raw : List UInt8} {pre completion : List ℕ}

/-- A row is tokenised to a prompt with its completion. -/
def Tokenises (sv : TokenServices) (raw : List UInt8) (pre completion : List ℕ) : Prop :=
  ∃ row, sv.parse raw = some row ∧ tokenised sv row = (pre, pre ++ completion)

/-- The two loops build the same sequence of a row. -/
theorem trainerExample_cases (sv : TokenServices) (soft : List UInt8 → List ℕ → Except TrainingError D)
    (limit : ℕ) (raw : List UInt8) :
    (∃ e, studySequence sv limit raw = .error e ∧ trainerExample sv soft limit raw = .error e) ∨
      ∃ s target, studySequence sv limit raw = .ok s ∧
        trainerExample sv soft limit raw = (soft raw target).map fun d => (s, d) := by
  unfold studySequence trainerExample
  cases sv.parse raw with
  | none => exact .inl ⟨_, rfl, rfl⟩
  | some row =>
    dsimp only
    split_ifs
    · exact .inl ⟨_, rfl, rfl⟩
    · exact .inl ⟨_, rfl, rfl⟩
    · exact .inr ⟨_, _, rfl, rfl⟩

/-- **One row.** A row with a prompt and a completion is cut to the limit. -/
theorem studySequence_eq (hlimit : 2 ≤ limit) (h : Tokenises sv raw pre completion) (hpre : pre ≠ [])
    (hcompletion : completion ≠ []) :
    studySequence sv limit raw = .ok (keptPrompt limit pre completion ++ completion.take (limit - 1),
      List.replicate (keptPrompt limit pre completion).length (-100) ++
        (completion.take (limit - 1)).map Nat.cast) := by
  obtain ⟨row, hparse, hrow⟩ := h
  have hcut := truncated hlimit hpre hcompletion
  have hone : (limit : ℤ) - 1 = ((limit - 1 : ℕ) : ℤ) := by omega
  have htarget : sliceTo (sliceFrom (pre ++ completion) pre.length) ((limit : ℤ) - 1) =
      completion.take (limit - 1) := by
    rw [sliceFrom_natCast, List.drop_left, hone, sliceTo_natCast]
  have hprompt : sliceFrom pre (-((limit : ℤ) - (completion.take (limit - 1)).length)) =
      keptPrompt limit pre completion := by
    have hroom : (completion.take (limit - 1)).length < limit := by
      rw [List.length_take]
      omega
    have hcast : (limit : ℤ) - (completion.take (limit - 1)).length =
        ((limit - (completion.take (limit - 1)).length : ℕ) : ℤ) := by omega
    rw [hcast, sliceFrom_neg pre (Nat.sub_pos_of_lt hroom), keptPrompt]
  rw [studySequence, hparse]
  dsimp only
  rw [hrow]
  dsimp only
  rw [if_neg (by rw [sliceTo_natCast, List.take_left]; exact not_not.2 rfl), htarget, hprompt,
    if_neg (not_or.2 ⟨hcut.prompted.1, hcut.targeted.1⟩)]

/-- A row that is accepted has a prompt and a completion. -/
theorem tokenises_of_ok {s : List ℕ × List ℤ} (h : studySequence sv limit raw = .ok s) :
    ∃ pre completion, Tokenises sv raw pre completion ∧ pre ≠ [] ∧ completion ≠ [] := by
  unfold studySequence at h
  cases hparse : sv.parse raw with
  | none =>
    rw [hparse] at h
    cases h
  | some row =>
    rw [hparse] at h
    dsimp only at h
    split_ifs at h with hprefix hempty
    obtain ⟨hprompt, htarget⟩ := not_or.1 hempty
    rw [not_not, sliceTo_natCast] at hprefix
    have hfull : (tokenised sv row).1 ++ (tokenised sv row).2.drop (tokenised sv row).1.length =
        (tokenised sv row).2 := by
      conv_lhs => enter [1]; rw [← hprefix]
      exact List.take_append_drop _ _
    refine ⟨(tokenised sv row).1, (tokenised sv row).2.drop (tokenised sv row).1.length,
      ⟨row, hparse, by rw [hfull]⟩, fun hnil => ?_, fun hnil => ?_⟩
    · rw [hnil, Python.sliceFrom_nil] at hprompt
      exact hprompt rfl
    · rw [sliceFrom_natCast, hnil, Python.sliceTo_nil] at htarget
      exact htarget rfl

/-- **Truncation.** What the trainer accepts of a row is within the limit: a suffix of its prompt,
    then a prefix of its completion, both with a token at least. The completion is cut only behind a
    single token of the prompt, nothing is cut where all fits, and the labels mask the prompt. The
    study builds the same sequences. -/
theorem sequences_truncated (sv : TokenServices) (soft : List UInt8 → List ℕ → Except TrainingError D)
    (hlimit : 2 ≤ limit) {rows : List (List UInt8)} {examples : List ((List ℕ × List ℤ) × D)}
    (h : trainerExamples sv soft limit rows = .ok examples) :
    List.Forall₂ (fun raw e => ∃ pre completion prompt target, Tokenises sv raw pre completion ∧
        Truncated limit pre completion prompt target e.1.1 e.1.2) rows examples ∧
      studySequences sv limit rows = .ok (examples.map (·.1)) ∧
      ∀ raw, studySequence sv limit raw = (trainerExample sv (fun _ _ => .ok ()) limit raw).map (·.1) := by
  rw [trainerExamples] at h
  split_ifs at h
  have hrows := Except.forall₂_of_mapM_eq_ok h
  have hsame : ∀ raw e, trainerExample sv soft limit raw = .ok e → studySequence sv limit raw =
      .ok e.1 := by
    intro raw e he
    rcases trainerExample_cases sv soft limit raw with ⟨_, -, herror⟩ | ⟨s, target, hs, hmap⟩
    · cases herror.symm.trans he
    · obtain ⟨d, -, rfl⟩ := Except.map_eq_ok.1 (hmap.symm.trans he)
      exact hs
  refine ⟨hrows.imp fun raw e he => ?_, ?_, fun raw => ?_⟩
  · have hs := hsame raw e he
    obtain ⟨pre, completion, htokens, hpre, hcompletion⟩ := tokenises_of_ok hs
    have hcut := studySequence_eq hlimit htokens hpre hcompletion
    rw [hs] at hcut
    refine ⟨pre, completion, keptPrompt limit pre completion, completion.take (limit - 1), htokens, ?_⟩
    rw [Except.ok.inj hcut]
    exact truncated hlimit hpre hcompletion
  · refine Except.mapM_eq_ok_of_forall₂ (List.forall₂_map_right_iff.2 (hrows.imp fun raw e he => ?_))
    exact hsame raw e he
  · rcases trainerExample_cases sv (fun _ _ => .ok ()) limit raw with ⟨e, hs, ht⟩ | ⟨s, target, hs, ht⟩
    · rw [hs, ht]
      rfl
    · rw [hs, ht]
      rfl

/-! ## A long row and a short one -/

/-- One token for each character. -/
def charTokens : TokenServices where
  parse raw := some ⟨[⟨.user, String.ofList (raw.map fun b => Char.ofNat b.toNat)⟩], [], "answer"⟩
  template messages prompted :=
    (messages.flatMap fun m => 0 :: m.content.toList.map Char.toNat) ++ if prompted then [0] else []

theorem charTokens_truncated :
    ∃ examples, trainerExamples charTokens (fun _ _ => .ok ()) 8 [[97, 98, 99], []] = .ok examples ∧
      examples.map (·.1.1) = [[99, 0, 97, 110, 115, 119, 101, 114], [0, 0, 97, 110, 115, 119, 101, 114]] ∧
      studySequences charTokens 8 [[97, 98, 99], []] = .ok (examples.map (·.1)) := by
  refine ⟨_, rfl, by decide, ?_⟩
  exact (sequences_truncated charTokens (fun _ _ => .ok ()) (by decide : 2 ≤ 8) rfl).2.1

end Rows

end Sequences

end AdaptiveLlm
