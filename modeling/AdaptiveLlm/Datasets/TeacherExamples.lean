import AdaptiveLlm.Contracts.Attempts
import AdaptiveLlm.Datasets.Builder
import AdaptiveLlm.Lib.RoundRobin

set_option autoImplicit false

/-! # The rows of a distillation

`TeacherExamples._build` (`distillation/data.py`) takes the rows of an approved dataset. A teacher
writes the targets of the training rows anew, and only an answer that passes every check is taken; the
rows held out keep the targets they have. Every row becomes an example or is counted under one reason
(`Accounted`). To the training examples `_mix` adds so many fixtures, in turn and under the identities
of the training examples in turn (`MixedInTurn`).

`Accounted` is the invariant of the loop: the examples made and the reasons counted so far are those
of the rows read so far, one each. The rows that are held out never reach the teacher, so their
targets are not the teacher's. Fixtures are added last and only to what trains, each under the
identity of one of the examples, so that a deletion of that example takes its fixtures along. -/

namespace AdaptiveLlm

namespace Datasets

open Stored (Fields)

/-! ## The teacher's answer

The checks on a teacher's answer come in an order: that there is one, that it ended by itself, the
judge's score, the golden texts, the redactor. The first that fails is the reason that the row is
counted under. -/

/-- What a distillation reads of `outcome.response`. -/
structure TeacherResponse where
  content : String
  finishReason : FinishReason

/-- What other code answers about a row and a response. -/
structure TeacherServices where
  /-- `runner.run` on the case of the row -/
  run : Fields → Except BuildError (Option TeacherResponse)
  /-- the judge's score, divided by five -/
  score : Fields → TeacherResponse → Except BuildError ℚ
  /-- `redact_text` under the policy of the candidate -/
  redactText : String → Example → Option String
  goldenTargets : List String
  /-- `teacher_minimum_score` -/
  minimumScore : ℚ

section Rows

variable (sv : BuildServices) (tv : TeacherServices) (spec : BuildSpecification) (examples : List Example)

/-- The target is a golden one, or near one. -/
def goldenTarget (target : String) : Bool :=
  (tv.goldenTargets.filter (· ≠ "")).any fun g => shingles sv.unicode target = shingles sv.unicode g ||
    similar (shingles sv.unicode target) (shingles sv.unicode g) spec.nearDuplicateThreshold

/-- The target of a training row, or the reason there is none. -/
def teachRow (row : Fields) (original : Example) : Except BuildError (Except String String) := do
  match ← tv.run row with
  | none => .ok (.error "teacher_validation_or_generation")
  | some response =>
    if response.finishReason ≠ .stop then .ok (.error "teacher_incomplete")
    else
      let score ← tv.score row response
      if score < tv.minimumScore then .ok (.error "teacher_judge")
      else if goldenTarget sv tv spec response.content then .ok (.error "benchmark_contamination")
      else match tv.redactText response.content original with
        | none => .ok (.error "build_redaction_failed")
        | some redacted =>
          if redacted ≠ response.content ∨ Python.isBlank response.content then
            .ok (.error "teacher_redaction_changed")
          else .ok (.ok response.content)

/-- The services of a build with this teacher. -/
def taughtBy : BuildServices := { sv with teach := teachRow sv tv spec }

/-- Why a row is no example. -/
def droppedReasons : List String :=
  ["source_no_longer_eligible", "teacher_validation_or_generation", "teacher_incomplete", "teacher_judge",
    "benchmark_contamination", "build_redaction_failed", "teacher_redaction_changed", "exact_duplicate",
    "near_duplicate"]

/-- How many rows a counter says were dropped. -/
def dropped (counter : String → ℕ) : ℕ := (droppedReasons.map counter).sum

/-- The row that is made of a source row before the teacher sees it. -/
def heldRow (source : SourceRow) : Fields :=
  Json.setField "source_example_hash" ((source.row.lookup "example_hash").getD .null) source.row

/-- The candidate of a source row. -/
def originalOf (source : SourceRow) : Option Example :=
  (textField source.row "tenant_id").bind fun tenantId =>
    (textField source.row "interaction_id").bind fun interactionId =>
    eligibleFor examples tenantId interactionId

/-- A row held out whose candidate is still eligible. -/
def heldOut (source : SourceRow) : Bool := source.split ≠ .train && (originalOf examples source).isSome

/-- What a teacher's target has passed. -/
structure Acceptable (row : Fields) (original : Example) (target : String) : Prop where
  run : tv.run row = .ok (some ⟨target, .stop⟩)
  score : ∃ score, tv.score row ⟨target, .stop⟩ = .ok score ∧ tv.minimumScore ≤ score
  clean : goldenTarget sv tv spec target = false
  redacted : tv.redactText target original = some target
  nonblank : Python.isBlank target = false

/-- An example of a training row with the teacher's target. -/
structure Taught (source : SourceRow) (e : BuiltExample) : Prop where
  split : source.split = .train
  target : ∃ original target, originalOf examples source = some original ∧
    Acceptable sv tv spec (heldRow source) original target ∧
      taughtRow sv target (heldRow source) = .ok e.row

end Rows

/-! ## Rows of the loop

One row of the loop either adds one example or raises one counter by one, and so the sum of examples
and counters follows the rows. The reasons are different keys, which is why a sum over them can be
taken. -/

section Lemmas

variable {sv : BuildServices} {tv : TeacherServices} {spec : BuildSpecification} {examples : List Example}

theorem teachRow_eq_ok {row : Fields} {original : Example} {answer : Except String String}
    (h : teachRow sv tv spec row original = .ok answer) :
    (∃ reason ∈ droppedReasons, answer = .error reason) ∨
      ∃ target, answer = .ok target ∧ Acceptable sv tv spec row original target := by
  obtain ⟨response, hrun, h⟩ := Except.bind_eq_ok.1 h
  cases response with
  | none =>
    cases h
    exact .inl ⟨_, by simp [droppedReasons], rfl⟩
  | some response =>
    dsimp only at h
    split at h
    · cases h
      exact .inl ⟨_, by simp [droppedReasons], rfl⟩
    rename_i hstop
    obtain ⟨content, finishReason⟩ := response
    obtain rfl : finishReason = .stop := not_not.1 hstop
    obtain ⟨score, hscore, h⟩ := Except.bind_eq_ok.1 h
    split at h
    · cases h
      exact .inl ⟨_, by simp [droppedReasons], rfl⟩
    rename_i hminimum
    split at h
    · cases h
      exact .inl ⟨_, by simp [droppedReasons], rfl⟩
    rename_i hclean
    split at h
    · cases h
      exact .inl ⟨_, by simp [droppedReasons], rfl⟩
    rename_i redacted hredacted
    split at h
    · cases h
      exact .inl ⟨_, by simp [droppedReasons], rfl⟩
    rename_i hsame
    cases h
    rw [not_or, not_not] at hsame
    exact .inr ⟨content, rfl, hrun, ⟨score, hscore, not_lt.1 hminimum⟩, Bool.eq_false_iff.2 hclean,
      hredacted.trans (congrArg some hsame.1), Bool.eq_false_iff.2 hsame.2⟩

/-- One more under one of some different keys. -/
theorem sum_map_increment {keys : List String} (hkeys : keys.Nodup) {counter : String → ℕ} {key : String}
    (h : key ∈ keys) : (keys.map (increment counter key)).sum = (keys.map counter).sum + 1 := by
  induction keys with
  | nil => cases h
  | cons k keys ih =>
    obtain ⟨hk, hkeys⟩ := List.nodup_cons.1 hkeys
    rw [List.map_cons, List.sum_cons, List.map_cons, List.sum_cons]
    by_cases hkey : k = key
    · subst hkey
      have hrest : keys.map (increment counter k) = keys.map counter := by
        refine List.map_congr_left fun k' hk' => Function.update_of_ne ?_ _ _
        rintro rfl
        exact hk hk'
      rw [hrest, increment, Function.update_self]
      omega
    · rw [ih hkeys ((List.mem_cons.1 h).resolve_left (Ne.symm hkey)), increment, Function.update_of_ne hkey]
      omega

theorem dropped_increment {counter : String → ℕ} {key : String} (h : key ∈ droppedReasons) :
    dropped (increment counter key) = dropped counter + 1 :=
  sum_map_increment (by decide) h

/-- **One row of the loop** is counted under a reason, or adds one example: a taught one, or a row
    held out as it was. -/
theorem acceptRow_eq_ok {source : SourceRow} {st st' : Accepted}
    (h : acceptRow (taughtBy sv tv spec) examples st source = .ok st') :
    (∃ reason ∈ droppedReasons, st' = { st with exclusions := increment st.exclusions reason } ∧
        heldOut examples source = false) ∨
      ∃ e, st' = { st with items := st.items ++ [e] } ∧
        (Taught sv tv spec examples source e ∨ heldOut examples source = true ∧
            e.row = heldRow source) := by
  obtain ⟨tenantId, htenant, h⟩ := Except.bind_eq_ok.1 h
  obtain ⟨interactionId, hid, h⟩ := Except.bind_eq_ok.1 h
  have horiginal : originalOf examples source = eligibleFor examples tenantId interactionId := by
    rw [originalOf, getText_eq_ok htenant, Option.bind_some, getText_eq_ok hid, Option.bind_some]
  split at h
  · rename_i hnone
    cases h
    exact .inl ⟨_, by simp [droppedReasons], rfl, by simp [heldOut, horiginal, hnone]⟩
  rename_i original hsome
  rw [hsome] at horiginal
  obtain ⟨hash, hhash, h⟩ := Except.bind_eq_ok.1 h
  have hrow : Json.setField "source_example_hash" hash source.row = heldRow source := by
    rw [heldRow, lookup_of_getField hhash, Option.getD_some]
  rw [hrow] at h
  split at h
  · rename_i htrain
    obtain ⟨answer, hteach, h⟩ := Except.bind_eq_ok.1 h
    rcases teachRow_eq_ok hteach with ⟨reason, hreason, rfl⟩ | ⟨target, rfl, hacceptable⟩
    · cases h
      exact .inl ⟨reason, hreason, rfl, by simp [heldOut, htrain]⟩
    · obtain ⟨row, htaught, h⟩ := Except.bind_eq_ok.1 h
      obtain ⟨e, hteacher, h⟩ := Except.bind_eq_ok.1 h
      cases h
      obtain ⟨-, -, hrow⟩ := teacherItem_eq_ok hteacher
      exact .inr ⟨e, rfl, .inl ⟨htrain, original, target, horiginal, hacceptable, hrow ▸ htaught⟩⟩
  · rename_i htrain
    obtain ⟨e, hteacher, h⟩ := Except.bind_eq_ok.1 h
    cases h
    obtain ⟨-, -, hrow⟩ := teacherItem_eq_ok hteacher
    exact .inr ⟨e, rfl, .inr ⟨by simp [heldOut, htrain, horiginal], hrow⟩⟩

/-! ## The loop

`Accounted` is stated for the rows read so far. A row that is counted under a reason leaves the
examples alone, and a row that becomes an example counts nothing. -/

/-- The example is a training one: the filter by `row["split"]`. -/
def isTrain (e : BuiltExample) : Bool := textField e.row "split" = some "train"

/-- Its split is what a source row says. -/
def SplitNamed (source : SourceRow) : Prop := textField source.row "split" = some source.split.name

theorem textField_setField {name other : String} (h : other ≠ name) (value : Json) (row : Fields) :
    textField (Json.setField name value row) other = textField row other := by
  rw [textField, Json.lookup_setField, if_neg h, textField]

theorem split_heldRow {source : SourceRow} (h : SplitNamed source) :
    textField (heldRow source) "split" = some source.split.name := by
  rw [heldRow, textField_setField (by decide)]
  exact h

theorem Taught.isTrain {source : SourceRow} {e : BuiltExample} (h : Taught sv tv spec examples source e)
    (hsource : SplitNamed source) : isTrain e = true := by
  obtain ⟨original, target, -, -, hrow⟩ := h.target
  refine decide_eq_true ?_
  rw [taughtRow_eq_ok hrow (by decide), split_heldRow hsource, h.split]
  rfl

theorem isTrain_heldOut {source : SourceRow} {e : BuiltExample} (h : heldOut examples source = true)
    (hsource : SplitNamed source) (hrow : e.row = heldRow source) : isTrain e = false := by
  refine decide_eq_false ?_
  rw [hrow, split_heldRow hsource]
  simp only [heldOut, Bool.and_eq_true, decide_eq_true_eq] at h
  cases hsplit : source.split with
  | train => exact absurd hsplit h.1
  | validation => decide
  | test => decide

/-- What the loop keeps, after the rows `done`: the training examples are taught, the others are the
    rows held out, and what is no example is counted. -/
structure Accounted (sv : BuildServices) (tv : TeacherServices) (spec : BuildSpecification)
    (examples : List Example)
    (exclusions : String → ℕ) (done : List SourceRow) (st : Accepted) : Prop where
  taught : ∀ e ∈ st.items, isTrain e = true → ∃ source ∈ done, Taught sv tv spec examples source e
  held : (st.items.filter fun e => !isTrain e).map (·.row) = (done.filter (heldOut examples)).map heldRow
  count : st.items.length + dropped st.exclusions = done.length + dropped exclusions

theorem Accounted.step {exclusions : String → ℕ} {done : List SourceRow} {st st' : Accepted}
    {source : SourceRow}
    (h : Accounted sv tv spec examples exclusions done st) (hsource : SplitNamed source)
    (hstep : acceptRow (taughtBy sv tv spec) examples st source = .ok st') :
    Accounted sv tv spec examples exclusions (done ++ [source]) st' := by
  have htaught : ∀ e ∈ st.items, isTrain e = true → ∃ source' ∈ done ++ [source],
      Taught sv tv spec examples source' e := by
    intro e he htrain
    obtain ⟨source', hmem, hsource'⟩ := h.taught e he htrain
    exact ⟨source', List.mem_append_left _ hmem, hsource'⟩
  have hcount := h.count
  rcases acceptRow_eq_ok hstep with ⟨reason, hreason, rfl, hheld⟩ | ⟨e, rfl, hkind⟩
  · refine ⟨htaught, ?_, ?_⟩
    · rw [List.filter_append, List.filter_cons_of_neg (by simp [hheld]), List.filter_nil, List.append_nil]
      exact h.held
    · rw [dropped_increment hreason, List.length_append, List.length_singleton]
      show st.items.length + (dropped st.exclusions + 1) = _
      omega
  · have htrain : isTrain e = !heldOut examples source := by
      rcases hkind with htaught | ⟨hheld, hrow⟩
      · rw [htaught.isTrain hsource, heldOut, htaught.split]
        rfl
      · rw [isTrain_heldOut hheld hsource hrow, hheld]
        rfl
    refine ⟨fun e' he' htrain' => ?_, ?_, ?_⟩
    · rcases List.mem_append.1 he' with he' | he'
      · exact htaught e' he' htrain'
      · obtain rfl := List.mem_singleton.1 he'
        rcases hkind with htaught | ⟨hheld, -⟩
        · exact ⟨source, List.mem_append_right _ List.mem_cons_self, htaught⟩
        · rw [htrain, hheld] at htrain'
          cases htrain'
    · rw [List.filter_append, List.map_append, h.held, List.filter_append, List.map_append]
      refine congrArg _ ?_
      rcases hkind with htaught | ⟨hheld, hrow⟩
      · have hheld : heldOut examples source = false := by simp [heldOut, htaught.split]
        simp [htrain, hheld]
      · simp [htrain, hheld, hrow]
    · rw [List.length_append, List.length_append, List.length_singleton, List.length_singleton]
      show _ + 1 + dropped st.exclusions = _
      omega

/-- **Loop lemma.** -/
theorem accounted_of_foldlM {exclusions : String → ℕ} {rows : List SourceRow} {accepted : Accepted}
    (hrows : ∀ source ∈ rows, SplitNamed source)
    (h : rows.foldlM (acceptRow (taughtBy sv tv spec) examples) { exclusions } = .ok accepted) :
    Accounted sv tv spec examples exclusions rows accepted := by
  have hloop := Except.foldlM_of_invariant
    (fun rest st => ∃ done, rows = done ++ rest ∧ Accounted sv tv spec examples exclusions done st) ?_ rows
    ⟨[], rfl, fun e he => absurd he List.not_mem_nil, rfl, rfl⟩ h
  · obtain ⟨done, hdone, hacc⟩ := hloop
    rw [List.append_nil] at hdone
    exact hdone ▸ hacc
  rintro source rest st st' ⟨done, hdone, hacc⟩ hstep
  exact ⟨done ++ [source], by rw [hdone, List.append_assoc]; rfl,
    hacc.step (hrows source (hdone ▸ List.mem_append_right _ List.mem_cons_self)) hstep⟩

/-! ## Curation -/

section Curation

variable {u : Unicode} {golden : List String} {threshold : ℚ} {key : String}

/-- Curation counts under three reasons only. -/
theorem naiveStep_other (hkey : key ∉ ["exact_duplicate", "near_duplicate", "benchmark_contamination"])
    (st : List BuiltExample × (String → ℕ)) (e : BuiltExample) :
    (naiveStep u golden threshold st e).2 key = st.2 key := by
  simp only [List.mem_cons, List.not_mem_nil, or_false, not_or] at hkey
  unfold naiveStep
  split
  · exact Function.update_of_ne hkey.1 _ _
  split
  · exact Function.update_of_ne hkey.2.1 _ _
  split
  · exact Function.update_of_ne hkey.2.2 _ _
  · rfl

theorem curateNaive_other (hkey : key ∉ ["exact_duplicate", "near_duplicate", "benchmark_contamination"])
    (items : List BuiltExample) (exclusions : String → ℕ) :
    (curateNaive u golden threshold items exclusions).2 key = exclusions key := by
  have hrun : ∀ (rest : List BuiltExample) (st : List BuiltExample × (String → ℕ)),
      (rest.foldl (naiveStep u golden threshold) st).2 key = st.2 key := by
    intro rest
    induction rest with
    | nil => intro st; rfl
    | cons e rest ih =>
      intro st
      rw [List.foldl_cons, ih, naiveStep_other hkey]
  exact hrun _ _

/-- What curation drops is counted. -/
theorem dropped_of_curate (hthreshold : 0 ≤ threshold) {items accepted : List BuiltExample}
    {exclusions counter : String → ℕ} (h : curate u golden threshold items exclusions =
      some (accepted, counter)) :
    accepted.length + dropped counter = items.length + dropped exclusions := by
  obtain ⟨accepted', counter', hcurate, hcurated⟩ := curate_curated u golden hthreshold items exclusions
  rw [curate_eq_naive hthreshold] at h
  rw [curate_eq_naive hthreshold] at hcurate
  obtain ⟨rfl, rfl⟩ := Prod.mk.inj (Option.some.inj (hcurate.symm.trans h))
  have hother : ∀ k ∉ ["exact_duplicate", "near_duplicate", "benchmark_contamination"],
      counter' k = exclusions k := by
    intro k hk
    have hcounter : (curateNaive u golden threshold items exclusions).2 k = exclusions k :=
      curateNaive_other hk items exclusions
    rwa [Option.some.inj h] at hcounter
  have hcount := hcurated.count
  rw [(sortExamples_perm items).length_eq] at hcount
  simp only [excluded] at hcount
  simp only [dropped, droppedReasons, List.map_cons, List.map_nil, List.sum_cons, List.sum_nil]
  rw [hother "source_no_longer_eligible" (by decide), hother "teacher_validation_or_generation" (by decide),
    hother "teacher_incomplete" (by decide), hother "teacher_judge" (by decide),
    hother "build_redaction_failed" (by decide), hother "teacher_redaction_changed" (by decide)]
  omega

end Curation

/-! ## The synthetic mix

The number of fixtures is computed from the share that the specification asks for, and they are
dealt in turn (`Lib/RoundRobin.lean`), as are the identities that they borrow. -/

section Mix

variable {train mixed : List BuiltExample}

/-- The text of a fixture. -/
def SyntheticItem.text (item : SyntheticItem) : String := item.input ++ "\n" ++ item.target

/-- What `_mix` adds to the training examples. -/
structure MixedInTurn (sv : BuildServices) (spec : BuildSpecification)
    (train mixed : List BuiltExample) : Prop where
  length : mixed.length = mixCount train.length spec.generalSafetyFraction
  /-- the fixtures in turn -/
  texts : mixed.map (·.text) = (RoundRobin.deal sv.fixtures mixed.length).map SyntheticItem.text
  /-- under the identities of the training examples in turn -/
  identities : mixed.map exampleKey = (RoundRobin.deal train mixed.length).map exampleKey
  synthetic : ∀ e ∈ mixed, e.targetSource = "synthetic_mix"
  clean : ∀ item ∈ RoundRobin.deal sv.fixtures mixed.length, mixContaminated sv spec item = false
  /-- a mix that is asked for has a turn for every fixture -/
  enough : train ≠ [] → 0 < spec.generalSafetyFraction → sv.fixtures.length ≤ mixed.length

theorem mixedInTurn_of_mix (h : mix sv spec train = .ok mixed) : MixedInTurn sv spec train mixed := by
  obtain ⟨henough, hcalls⟩ := mix_eq_ok h
  have hlength : mixed.length = mixCount train.length spec.generalSafetyFraction :=
    hcalls.length_eq.symm.trans List.length_range
  rw [← hlength] at henough hcalls
  refine ⟨hlength, ?_, ?_, ?_, ?_, henough⟩
  · refine RoundRobin.map_eq_map_deal (hcalls.imp fun i e he => ?_)
    obtain ⟨item, original, hitem, -, -, rfl⟩ := he
    exact ⟨item, hitem, rfl⟩
  · refine RoundRobin.map_eq_map_deal (hcalls.imp fun i e he => ?_)
    obtain ⟨item, original, -, horiginal, -, rfl⟩ := he
    exact ⟨original, horiginal, rfl⟩
  · intro e he
    obtain ⟨i, -, item, original, -, -, -, rfl⟩ := hcalls.exists_of_mem_right he
    rfl
  · intro item hitem
    obtain ⟨i, hi, hturn⟩ := List.mem_filterMap.1 hitem
    obtain ⟨e, -, item', original, hitem', -, hclean, -⟩ := hcalls.exists_of_mem_left hi
    obtain rfl := Option.some.inj (hturn.symm.trans hitem')
    exact hclean

/-- The identity of a mixed example is that of a training example. -/
theorem MixedInTurn.borrowed (h : MixedInTurn sv spec train mixed) {e : BuiltExample} (he : e ∈ mixed) :
    ∃ original ∈ train, exampleKey original = exampleKey e := by
  have hkey : exampleKey e ∈ mixed.map exampleKey := List.mem_map_of_mem he
  rw [h.identities] at hkey
  obtain ⟨original, hmem, horiginal⟩ := List.mem_map.1 hkey
  exact ⟨original, RoundRobin.mem_of_mem_deal hmem, horiginal⟩

/-- A mix that is asked for uses every fixture. -/
theorem MixedInTurn.exists_of_fixture (h : MixedInTurn sv spec train mixed) (htrain : train ≠ [])
    (hfraction : 0 < spec.generalSafetyFraction) {item : SyntheticItem} (hitem : item ∈ sv.fixtures) :
    ∃ e ∈ mixed, e.text = item.text := by
  have hturn : item ∈ RoundRobin.deal sv.fixtures mixed.length :=
    RoundRobin.mem_deal (h.enough htrain hfraction) hitem
  have htext : item.text ∈ mixed.map (·.text) := h.texts ▸ List.mem_map_of_mem hturn
  exact List.mem_map.1 htext

/-- How many mixed examples have such a text: so many for each fixture that has, and one more for
    those at the beginning. -/
theorem MixedInTurn.countP_text (h : MixedInTurn sv spec train mixed) (p : String → Bool) :
    mixed.countP (fun e => p e.text) =
      mixed.length / sv.fixtures.length * sv.fixtures.countP (fun item => p item.text) +
        (sv.fixtures.take (mixed.length % sv.fixtures.length)).countP fun item => p item.text := by
  have hmap : mixed.countP (fun e => p e.text) = (mixed.map (·.text)).countP p := List.countP_map.symm
  rw [hmap, h.texts, List.countP_map]
  exact RoundRobin.countP_deal _ sv.fixtures mixed.length

end Mix

/-! ## All rows -/

/-- The examples of a distillation: of rows that a teacher taught, of the mix, and of rows held out. -/
structure DistilledFrom (sv : BuildServices) (tv : TeacherServices) (spec : BuildSpecification)
    (examples : List Example)
    (rows : List SourceRow) (exclusions : String → ℕ) (distilled : DistilledExamples)
    (train mixed held : List BuiltExample) : Prop where
  examples_eq : distilled.examples = train ++ mixed ++ held
  taught : ∀ e ∈ train, ∃ source ∈ rows, Taught sv tv spec examples source e
  mix : MixedInTurn sv spec train mixed
  heldRows : held.map (·.row) = (rows.filter (heldOut examples)).map heldRow
  count : train.length + held.length + dropped distilled.exclusions = rows.length + dropped exclusions

/-- **Every row is accounted for.** A distillation that succeeds makes of each row an example or
    counts it under a reason: the training examples have a target of the teacher that passed every
    check, the rows held out are as they were, and what is added to them is the mix of the training
    examples. -/
theorem teacherExamples_accounted {rows : List SourceRow} {exclusions : String → ℕ}
    {distilled : DistilledExamples}
    (hrows : ∀ source ∈ rows, SplitNamed source)
    (h : teacherExamples (taughtBy sv tv spec) spec rows examples exclusions = .ok distilled) :
    ∃ train mixed held, DistilledFrom sv tv spec examples rows exclusions distilled train mixed held := by
  unfold teacherExamples at h
  split at h
  · cases h
  obtain ⟨accepted, hloop, h⟩ := Except.bind_eq_ok.1 h
  obtain ⟨⟨train, counter⟩, hcurate, h⟩ := Except.bind_eq_ok.1 h
  obtain ⟨mixed, hmix, h⟩ := Except.bind_eq_ok.1 h
  cases h
  have hacc := accounted_of_foldlM hrows hloop
  obtain ⟨train', counter', hspec, hcurated⟩ := curate_curated sv.unicode sv.golden spec.thresholdNonneg
    (accepted.items.filter isTrain) accepted.exclusions
  obtain ⟨rfl, rfl⟩ := Prod.mk.inj (Option.some.inj ((expect_eq_ok hcurate).symm.trans hspec))
  refine ⟨train, mixed, accepted.items.filter fun e => !isTrain e, rfl, ?_, mixedInTurn_of_mix hmix,
    hacc.held, ?_⟩
  · intro e he
    have hmem : e ∈ accepted.items.filter isTrain :=
      (sortExamples_perm _).subset (hcurated.sublist.subset he)
    exact hacc.taught e (List.mem_of_mem_filter hmem) (List.of_mem_filter hmem)
  · have hkept := dropped_of_curate spec.thresholdNonneg hspec
    have hparts := accepted.items.length_eq_length_filter_add isTrain
    have hcount := hacc.count
    show train.length + _ + dropped counter = _
    omega

end Lemmas

end Datasets

end AdaptiveLlm
