import AdaptiveLlm.Datasets.Eligibility

set_option autoImplicit false

/-! # Examples of a build

The three ways from candidates to examples: the `Constructor`, the `CounterfactualRows` of the router
and the `TeacherExamples` of a distillation. What they decrypt, redact, observe or generate is a
parameter; whose example each of them is, and what rows it carries, is spelled out.

`IsOf` ties an example to the candidate it was made of: the key, and, where it is asked for, the
subject, in the example itself and in the row that will be staged. Publication relies on this. A
tombstone names an interaction or a subject, and a build can leave out what was deleted only if
every example can be traced back to the interaction that its content came from. -/

namespace AdaptiveLlm

namespace Datasets

open Stored (Fields Store)

/-! ## Parameters -/

/-- What is computed of an example besides whose it is. -/
structure Contents where
  families : List String
  targetSource : String
  language : String
  exactHash : String
  text : String
  row : Fields
  benchmarkText : Option String := none

/-- Why the constructor has no example. -/
inductive ConstructionError where
  /-- `Excluded` -/
  | excluded (reason : String)
  | failed
  deriving DecidableEq, Repr

/-- A line of `distillation-training.jsonl`. -/
structure SyntheticItem where
  input : String
  target : String
  category : String
  deriving DecidableEq, Repr

/-- A row of the source dataset, as `read_shards` returned it. -/
structure SourceRow where
  split : Split
  row : Fields

/-- The services a build uses. -/
structure BuildServices extends EligibilityServices where
  unicode : Unicode
  shuffle : SeededShuffle (List BuiltExample)
  /-- the golden texts of the build's set -/
  golden : List String
  /-- `code_revision` -/
  revision : String
  datasetHash : String → String
  sha256 : String → String
  /-- `json.dumps([input, target], sort_keys=True)` -/
  dumpPair : Json → String → String
  /-- what the constructor makes of a candidate and the payloads of the snapshot -/
  construct : Store → BuildSpecification → ℤ → Example → Except ConstructionError Contents
  /-- what the router's observations make of a candidate; `none` skips it -/
  observe : Option (List Example → Example → Except BuildError (Option Contents))
  /-- the rows of the source dataset of a distillation -/
  sourceRows : Option (BuildSpecification → Except BuildError (List SourceRow))
  /-- the teacher's target for a row, or the reason it has none -/
  teach : Fields → Example → Except BuildError (Except String String)
  /-- the teacher's tensors for an example -/
  tensors : BuiltExample → Option (List UInt8)
  fixtures : List SyntheticItem

/-! ## Whose example it is

An example and a candidate are compared by tenant and interaction. The row of the example names both
as well, since the row is all that is left once it is staged. -/

/-- The key `(tenant_id, interaction_id)`. -/
def Example.key (c : Example) : String × String :=
  (c.interaction.tenantId, c.interaction.interactionId)

/-- What an example of a dataset is known by. -/
def exampleKey (e : BuiltExample) : String × String := (e.tenantId, e.interactionId)

/-- An example is a candidate's: it has its key, which its row names too, and its subject where
    `agree` holds. -/
structure IsOf (agree : Prop) (e : BuiltExample) (c : Example) : Prop where
  key : exampleKey e = c.key
  rowTenant : textField e.row "tenant_id" = some e.tenantId
  rowInteraction : textField e.row "interaction_id" = some e.interactionId
  subject : agree → e.subject = c.interaction.subjectIdPseudonymous

/-- Every example is one of the candidates'. -/
def Sourced (agree : Prop) (candidates : List Example) (examples : List BuiltExample) : Prop :=
  ∀ e ∈ examples, ∃ c ∈ candidates, IsOf agree e c

/-! ## Constructor -/

/-- The fields of a row that name its interaction. -/
def identityRow (c : Example) : Fields :=
  [("interaction_id", .str c.interaction.interactionId), ("tenant_id", .str c.interaction.tenantId)]

/-- The example of a candidate with a row of these fields besides. -/
def builtFrom (c : Example) (contents : Contents) : BuiltExample where
  interactionId := c.interaction.interactionId
  tenantId := c.interaction.tenantId
  subject := c.interaction.subjectIdPseudonymous
  families := contents.families
  startedAt := c.interaction.startedAt
  targetSource := contents.targetSource
  language := contents.language
  exactHash := contents.exactHash
  text := contents.text
  row := identityRow c ++ contents.row
  benchmarkText := contents.benchmarkText

section Build

variable (sv : BuildServices) (snapshot : Store) (spec : BuildSpecification) (environment : String)

/-- The example of the constructor: its row names the subject too. -/
def constructed (c : Example) (contents : Contents) : BuiltExample :=
  builtFrom c { contents with
    row := ("subject_id_pseudonymous", .ofOption .str c.interaction.subjectIdPseudonymous) ::
      contents.row }

/-- The environment of a candidate. -/
def Example.inEnvironment (c : Example) : Bool :=
  textField c.interaction.others "environment" = some environment

/-- The loop of `build` over the candidates. -/
def constructAll (asOf : ℤ) : List Example → (String → ℕ) →
    Except BuildError (List BuiltExample × (String → ℕ))
  | [], exclusions => .ok ([], exclusions)
  | c :: rest, exclusions =>
    if !c.inEnvironment environment then
      constructAll asOf rest (increment exclusions "environment_forbidden")
    else match sv.construct snapshot spec asOf c with
      | .error (.excluded reason) => constructAll asOf rest (increment exclusions reason)
      | .error .failed => .error .failed
      | .ok contents => do
        let (examples, exclusions) ← constructAll asOf rest exclusions
        .ok (constructed c contents :: examples, exclusions)

/-! ## Routing observations -/

/-- `CounterfactualRows.build`. -/
def counterfactualRows (observe : List Example → Example → Except BuildError (Option Contents))
    (examples : List Example) : Except BuildError (List BuiltExample) := do
  let rows ← examples.mapM fun c => do
    let contents ← observe examples c
    .ok (contents.map (builtFrom c))
  .ok (rows.filterMap id)

/-! ## Teacher examples

A distillation builds from the rows of an approved dataset and not from interactions. The row has to
be of a candidate that is still eligible. In the training split the teacher's target takes the place
of the row's own; the other splits stay as they are. -/

/-- `row[name]`; a missing key is a `KeyError`. -/
def getField (row : Fields) (name : String) : Except BuildError Json :=
  (row.lookup name).elim (.error .failed) .ok

/-- A value of the type that is read, or an exception. -/
def expect {α : Type} : Option α → Except BuildError α
  | some a => .ok a
  | none => .error .failed

/-- A text field of a row, or the error that it is missing. -/
def getText (row : Fields) (name : String) : Except BuildError String := do
  expect (Json.str? (← getField row name))

/-- The lines joined for the `text` of a row. -/
def rowText (row : Fields) : Except BuildError String := do
  let input ← getField row "input"
  let messages ← expect ((input.field "messages").bind
    (Json.list? fun m => (m.field "content").bind Json.str?))
  let sources ← expect ((input.field "sources").bind (Json.list? Json.str?))
  let target ← getText row "target"
  .ok ("\n".intercalate (messages ++ sources ++ [target]))

/-- A row of the training split with the teacher's target. -/
def taughtRow (target : String) (row : Fields) : Except BuildError Fields := do
  let row := Json.setFields
    [("target", .str target),
      ("source_target_attempt_id", (row.lookup "target_attempt_id").getD .null),
      ("source_target_feedback_id", (row.lookup "target_feedback_id").getD .null),
      ("target_attempt_id", .null), ("target_feedback_id", .null), ("target_source", .str "teacher"),
      ("distillation_kind", .str "teacher")] row
  let input ← getField row "input"
  .ok (Json.setField "example_hash" (.str (sv.datasetHash (sv.dumpPair input target))) row)

/-- Where the target of an item comes from: the teacher in the training split, else what the row says. -/
def itemTargetSource (split : Split) (row : Fields) : Except BuildError String :=
  if split = .train then .ok "teacher" else getText row "target_source"

/-- The `BuiltExample` of a source row. -/
def teacherItem (split : Split) (original : Example) (row : Fields) :
    Except BuildError BuiltExample := do
  let interactionId ← getText row "interaction_id"
  let tenantId ← getText row "tenant_id"
  let families ← expect (Json.list? Json.str? (← getField row "document_families"))
  let targetSource ← itemTargetSource split row
  let language ← expect (((← getField row "labels").field "language").bind Json.str?)
  let exactHash ← getText row "example_hash"
  let text ← rowText row
  .ok
    { interactionId
      tenantId
      subject := (row.lookup "subject_id_pseudonymous").bind Json.str?
      families
      startedAt := original.interaction.startedAt
      targetSource
      language
      exactHash
      text
      row }

/-- The candidate of a row; of several with its key the last. -/
def eligibleFor (examples : List Example) (tenantId interactionId : String) : Option Example :=
  (examples.filter fun c => c.key = (tenantId, interactionId)).getLast?

/-- The list `accepted` of `_build` and the exclusions. -/
structure Accepted where
  items : List BuiltExample := []
  exclusions : String → ℕ

/-- One row of the loop. -/
def acceptRow (examples : List Example) (st : Accepted) (source : SourceRow) :
    Except BuildError Accepted := do
  let tenantId ← getText source.row "tenant_id"
  let interactionId ← getText source.row "interaction_id"
  match eligibleFor examples tenantId interactionId with
  | none => .ok { st with exclusions := increment st.exclusions "source_no_longer_eligible" }
  | some original =>
    let row := Json.setField "source_example_hash" (← getField source.row "example_hash") source.row
    if source.split = .train then
      match ← sv.teach row original with
      | .error reason => .ok { st with exclusions := increment st.exclusions reason }
      | .ok target =>
        let item ← teacherItem source.split original (← taughtRow sv target row)
        .ok { st with items := st.items ++ [item] }
    else
      let item ← teacherItem source.split original row
      .ok { st with items := st.items ++ [item] }

/-! ### The synthetic mix -/

/-- `round(train * fraction / (1 - fraction))`. -/
def mixCount (train : ℕ) (fraction : ℚ) : ℕ :=
  (Python.roundHalfEven
    (Python.float (Python.float (train * fraction) / Python.float (1 - fraction)))).toNat

/-- A fixture under the identity of an example. -/
def mixExample (index : ℕ) (item : SyntheticItem) (original : BuiltExample) : BuiltExample :=
  let text := item.input ++ "\n" ++ item.target
  let digest := sv.datasetHash (text ++ toString index)
  { original with
    exactHash := digest
    text
    targetSource := "synthetic_mix"
    row := Json.setFields
      [("input", .obj [("messages", .arr [.obj [("role", .str "user"), ("content", .str item.input)]]),
          ("sources", .arr [])]),
        ("target", .str item.target), ("target_source", .str "synthetic_mix"),
        ("example_hash", .str digest), ("sources", .arr []), ("document_families", .arr []),
        ("distillation_kind", .str item.category), ("fixture_digest", .str (sv.sha256 text))]
      original.row }

/-- The fixture is near a golden text. -/
def mixContaminated (item : SyntheticItem) : Bool :=
  let grams := shingles sv.unicode (item.input ++ "\n" ++ item.target)
  sv.golden.any fun g => grams = shingles sv.unicode g ||
    similar grams (shingles sv.unicode g) spec.nearDuplicateThreshold

/-- `_mix`. -/
def mix (train : List BuiltExample) : Except BuildError (List BuiltExample) :=
  let count := mixCount train.length spec.generalSafetyFraction
  if train ≠ [] ∧ 0 < spec.generalSafetyFraction ∧ count < sv.fixtures.length then
    .error .distillationMixInsufficientExamples
  else (List.range count).mapM fun index =>
    -- an empty list is a `ZeroDivisionError`
    match sv.fixtures[index % sv.fixtures.length]?, train[index % train.length]? with
    | some item, some original =>
      if mixContaminated sv spec item then .error .distillationMixContaminated
      else .ok (mixExample sv index item original)
    | _, _ => .error .failed

/-- The dataclass `DistilledExamples`. -/
structure DistilledExamples where
  examples : List BuiltExample
  softTargets : List (String × List UInt8)
  exclusions : String → ℕ

/-- `TeacherExamples._build`. -/
def distill (sourceRows : List SourceRow) (examples : List Example) (exclusions : String → ℕ) :
    Except BuildError DistilledExamples := do
  let accepted ← sourceRows.foldlM (acceptRow sv examples) { exclusions }
  let trains (e : BuiltExample) : Bool := textField e.row "split" = some "train"
  let (train, exclusions) ← expect (curate sv.unicode sv.golden spec.nearDuplicateThreshold
    (accepted.items.filter trains) accepted.exclusions)
  let mixed ← mix sv spec train
  .ok
    { examples := train ++ mixed ++ accepted.items.filter (!trains ·)
      softTargets := if spec.softTargets then
          train.filterMap fun e => (sv.tensors e).map fun t => (e.exactHash, t)
        else []
      exclusions }

/-- `TeacherExamples.build`: an exception that is no `GatewayError` becomes one. -/
def teacherExamples (sourceRows : List SourceRow) (examples : List Example) (exclusions : String → ℕ) :
    Except BuildError DistilledExamples :=
  match distill sv spec sourceRows examples exclusions with
  | .error .failed => .error .distillationBuildFailed
  | result => result

/-! ## All of them -/

/-- What a build goes on with: the examples, and for a distillation its soft targets. -/
structure Built where
  examples : List BuiltExample
  exclusions : String → ℕ
  softTargets : Option (List (String × List UInt8)) := none

/-- Phase 2 of `build`. -/
def buildExamples (asOf : ℤ) (selection : Selection) : Except BuildError Built :=
  let examples := selection.examples.filter (·.inEnvironment environment)
  match spec.purpose with
  | .routerTraining =>
    match sv.observe with
    | none => .error .routingObservationsUnavailable
    | some observe => do
      .ok { examples := ← counterfactualRows observe examples, exclusions := selection.exclusions }
  | .distillation =>
    match sv.sourceRows with
    | none => .error .distillationUnavailable
    | some sourceRows => do
      let distilled ← teacherExamples sv spec (← sourceRows spec) examples selection.exclusions
      .ok
        { examples := distilled.examples
          exclusions := distilled.exclusions
          softTargets := some distilled.softTargets }
  | .adapterTraining | .evaluation => do
    let (examples, exclusions) ←
      constructAll sv snapshot spec environment asOf selection.examples selection.exclusions
    .ok { examples, exclusions }

end Build

/-! ## Every example is a candidate's

Each of the three ways is followed from its loop to what it returns. A loop adds an example for the
candidate that it has in hand, so being sourced is kept by appending and by leaving out. -/

section Sourced

variable {sv : BuildServices} {snapshot : Store} {spec : BuildSpecification} {environment : String}
  {agree : Prop} {candidates : List Example} {examples : List BuiltExample}

theorem Sourced.append {more : List BuiltExample} (h : Sourced agree candidates examples)
    (hmore : Sourced agree candidates more) : Sourced agree candidates (examples ++ more) := by
  intro e he
  rcases List.mem_append.1 he with he | he
  · exact h e he
  · exact hmore e he

theorem Sourced.subset {more : List BuiltExample} (h : Sourced agree candidates examples)
    (hsub : more ⊆ examples) : Sourced agree candidates more := fun e he => h e (hsub he)

theorem Sourced.of_subset {more : List Example} (h : Sourced agree candidates examples)
    (hsub : candidates ⊆ more) : Sourced agree more examples := by
  intro e he
  obtain ⟨c, hc, hof⟩ := h e he
  exact ⟨c, hsub hc, hof⟩

theorem isOf_builtFrom (c : Example) (contents : Contents) : IsOf agree (builtFrom c contents) c :=
  ⟨rfl, rfl, rfl, fun _ => rfl⟩

theorem constructAll_sourced {asOf : ℤ} {exclusions exclusions' : String → ℕ}
    (h : constructAll sv snapshot spec environment asOf candidates exclusions =
      .ok (examples, exclusions')) : Sourced agree candidates examples := by
  induction candidates generalizing examples exclusions exclusions' with
  | nil =>
    cases h
    exact fun e he => absurd he List.not_mem_nil
  | cons c rest ih =>
    have hrest : ∀ {es : List BuiltExample} {ex ex' : String → ℕ},
        constructAll sv snapshot spec environment asOf rest ex = .ok (es, ex') →
          Sourced agree (c :: rest) es :=
      fun h => (ih h).of_subset (List.subset_cons_self c rest)
    unfold constructAll at h
    split at h
    · exact hrest h
    split at h
    · exact hrest h
    · cases h
    · rename_i contents _
      obtain ⟨⟨es, ex⟩, htail, h⟩ := Except.bind_eq_ok.1 h
      cases h
      intro e he
      rcases List.mem_cons.1 he with rfl | he
      · exact ⟨c, List.mem_cons_self, isOf_builtFrom c _⟩
      · exact hrest htail e he

theorem counterfactualRows_sourced
    {observe : List Example → Example → Except BuildError (Option Contents)}
    (h : counterfactualRows observe candidates = .ok examples) :
    Sourced agree candidates examples := by
  obtain ⟨rows, hrows, h⟩ := Except.bind_eq_ok.1 h
  cases h
  intro e he
  obtain ⟨row, hmem, rfl⟩ := List.mem_filterMap.1 he
  obtain ⟨c, hc, hrow⟩ := Except.mem_of_mapM_eq_ok hrows hmem
  obtain ⟨contents, -, hrow⟩ := Except.bind_eq_ok.1 hrow
  cases contents with
  | none => cases hrow
  | some contents =>
    cases hrow
    exact ⟨c, hc, isOf_builtFrom c contents⟩

/-! ### Teacher examples

However an example comes about, it has the identity of a candidate: a taught row that of its source,
a mixed item that of the example it is put beside. This is what lets a deletion find all that was
made of an interaction. -/

theorem expect_eq_ok {α : Type} {o : Option α} {a : α} (h : expect o = .ok a) : o = some a := by
  cases o with
  | none => cases h
  | some a' =>
    cases h
    rfl

theorem lookup_of_getField {row : Fields} {name : String} {value : Json}
    (h : getField row name = .ok value) : row.lookup name = some value := by
  unfold getField at h
  cases hlookup : row.lookup name with
  | none =>
    rw [hlookup] at h
    cases h
  | some value' =>
    rw [hlookup] at h
    cases h
    rfl

theorem getText_eq_ok {row : Fields} {name text : String} (h : getText row name = .ok text) :
    textField row name = some text := by
  obtain ⟨value, hvalue, h⟩ := Except.bind_eq_ok.1 h
  rw [textField, lookup_of_getField hvalue, Option.bind_some]
  exact expect_eq_ok h

theorem eligibleFor_eq_some {tenantId interactionId : String} {c : Example}
    (h : eligibleFor candidates tenantId interactionId = some c) :
    c ∈ candidates ∧ c.key = (tenantId, interactionId) := by
  have hmem := List.mem_of_getLast? h
  simpa using hmem

/-- The fields a taught row keeps. -/
theorem taughtRow_eq_ok {target : String} {row row' : Fields} (h : taughtRow sv target row = .ok row')
    {name : String} (hname : name ∉ ["target", "source_target_attempt_id",
      "source_target_feedback_id", "target_attempt_id", "target_feedback_id", "target_source",
      "distillation_kind", "example_hash"]) : textField row' name = textField row name := by
  obtain ⟨input, -, h⟩ := Except.bind_eq_ok.1 h
  cases h
  simp only [List.mem_cons, List.not_mem_nil, or_false, not_or] at hname
  unfold textField
  rw [Json.lookup_setField, if_neg hname.2.2.2.2.2.2.2, Json.lookup_setFields_of_not_mem]
  simp only [List.map_cons, List.map_nil, List.mem_cons, List.not_mem_nil, or_false, not_or]
  exact ⟨hname.1, hname.2.1, hname.2.2.1, hname.2.2.2.1, hname.2.2.2.2.1, hname.2.2.2.2.2.1,
    hname.2.2.2.2.2.2.1⟩

theorem teacherItem_eq_ok {split : Split} {original : Example} {row : Fields} {e : BuiltExample}
    (h : teacherItem split original row = .ok e) :
    textField row "interaction_id" = some e.interactionId ∧
      textField row "tenant_id" = some e.tenantId ∧ e.row = row := by
  obtain ⟨interactionId, hid, h⟩ := Except.bind_eq_ok.1 h
  obtain ⟨tenantId, htenant, h⟩ := Except.bind_eq_ok.1 h
  obtain ⟨_, -, h⟩ := Except.bind_eq_ok.1 h
  obtain ⟨_, -, h⟩ := Except.bind_eq_ok.1 h
  obtain ⟨_, -, h⟩ := Except.bind_eq_ok.1 h
  obtain ⟨_, -, h⟩ := Except.bind_eq_ok.1 h
  obtain ⟨_, -, h⟩ := Except.bind_eq_ok.1 h
  obtain ⟨_, -, h⟩ := Except.bind_eq_ok.1 h
  obtain ⟨_, -, h⟩ := Except.bind_eq_ok.1 h
  cases h
  exact ⟨getText_eq_ok hid, getText_eq_ok htenant, rfl⟩

/-- One row of the loop adds an example of its candidate, or none. -/
theorem acceptRow_sourced (hagree : ¬agree) {source : SourceRow} {st st' : Accepted}
    (hst : Sourced agree candidates st.items) (h : acceptRow sv candidates st source = .ok st') :
    Sourced agree candidates st'.items := by
  obtain ⟨tenantId, htenant, h⟩ := Except.bind_eq_ok.1 h
  obtain ⟨interactionId, hid, h⟩ := Except.bind_eq_ok.1 h
  split at h
  · cases h
    exact hst
  rename_i original horiginal
  obtain ⟨hmem, hkey⟩ := eligibleFor_eq_some horiginal
  obtain ⟨hash, -, h⟩ := Except.bind_eq_ok.1 h
  -- the item has the identity of the source row, which is that of the candidate
  have hitem : ∀ {row : Fields} {item : BuiltExample}, teacherItem source.split original row = .ok item →
      (∀ name ∈ ["tenant_id", "interaction_id"], textField row name = textField source.row name) →
      Sourced agree candidates (st.items ++ [item]) := by
    intro row item hteacher hsame
    obtain ⟨hid', htenant', rfl⟩ := teacherItem_eq_ok hteacher
    refine hst.append fun e he => ?_
    obtain rfl := List.mem_singleton.1 he
    refine ⟨original, hmem, ?_, htenant', hid', fun ha => absurd ha hagree⟩
    rw [hsame _ (by simp), getText_eq_ok hid] at hid'
    rw [hsame _ (by simp), getText_eq_ok htenant] at htenant'
    rw [hkey, exampleKey, Option.some.inj hid', Option.some.inj htenant']
  have hset : ∀ name ∈ ["tenant_id", "interaction_id"],
      textField (Json.setField "source_example_hash" hash source.row) name =
        textField source.row name := by
    intro name hname
    unfold textField
    rw [Json.lookup_setField, if_neg]
    rintro rfl
    simp at hname
  split at h
  · obtain ⟨taught, -, h⟩ := Except.bind_eq_ok.1 h
    split at h
    · cases h
      exact hst
    · obtain ⟨row, hrow, h⟩ := Except.bind_eq_ok.1 h
      obtain ⟨item, hteacher, h⟩ := Except.bind_eq_ok.1 h
      cases h
      refine hitem hteacher fun name hname => (taughtRow_eq_ok hrow ?_).trans (hset name hname)
      simp only [List.mem_cons, List.not_mem_nil, or_false] at hname
      rcases hname with rfl | rfl <;> decide
  · obtain ⟨item, hteacher, h⟩ := Except.bind_eq_ok.1 h
    cases h
    exact hitem hteacher hset

/-- The fields a mixed row keeps. -/
theorem mixExample_text (index : ℕ) (item : SyntheticItem) (original : BuiltExample) {name : String}
    (hname : name ∉ ["input", "target", "target_source", "example_hash", "sources",
      "document_families", "distillation_kind", "fixture_digest"]) :
    textField (mixExample sv index item original).row name = textField original.row name :=
  congrArg (·.bind Json.str?) (Json.lookup_setFields_of_not_mem hname original.row)

/-- A mix that succeeds has a turn for every fixture if it is asked for, and each call of its loop had
    the fixture and the training example whose turn it was. -/
theorem mix_eq_ok {train mixed : List BuiltExample} (h : mix sv spec train = .ok mixed) :
    (train ≠ [] → 0 < spec.generalSafetyFraction →
        sv.fixtures.length ≤ mixCount train.length spec.generalSafetyFraction) ∧
      List.Forall₂ (fun i e => ∃ item original, sv.fixtures[i % sv.fixtures.length]? = some item ∧
          train[i % train.length]? = some original ∧ mixContaminated sv spec item = false ∧
          e = mixExample sv i item original)
        (List.range (mixCount train.length spec.generalSafetyFraction)) mixed := by
  unfold mix at h
  dsimp only at h
  split at h
  · cases h
  rename_i henough
  refine ⟨fun htrain hfraction => not_lt.1 fun hfew => henough ⟨htrain, hfraction, hfew⟩,
    (Except.forall₂_of_mapM_eq_ok h).imp fun i e he => ?_⟩
  split at he
  · rename_i item original hitem horiginal
    split at he
    · cases he
    · rename_i hclean
      cases he
      exact ⟨item, original, hitem, horiginal, Bool.eq_false_iff.2 hclean, rfl⟩
  · cases he

/-- A mixed example borrows the identity of one it was made for. -/
theorem mix_sourced (hex : Sourced agree candidates examples) {mixed : List BuiltExample}
    (h : mix sv spec examples = .ok mixed) : Sourced agree candidates mixed := by
  intro e he
  obtain ⟨index, -, item, original, -, horiginal, -, rfl⟩ := (mix_eq_ok h).2.exists_of_mem_right he
  obtain ⟨c, hc, hof⟩ := hex original (List.mem_of_getElem? horiginal)
  refine ⟨c, hc, hof.key, ?_, ?_, hof.subject⟩
  · exact (mixExample_text index item original (by decide)).trans hof.rowTenant
  · exact (mixExample_text index item original (by decide)).trans hof.rowInteraction

theorem distill_sourced (hagree : ¬agree) {rows : List SourceRow} {exclusions : String → ℕ}
    {distilled : DistilledExamples}
    (h : distill sv spec rows candidates exclusions = .ok distilled) :
    Sourced agree candidates distilled.examples := by
  obtain ⟨accepted, hloop, h⟩ := Except.bind_eq_ok.1 h
  obtain ⟨⟨train, counter⟩, hcurate, h⟩ := Except.bind_eq_ok.1 h
  obtain ⟨mixed, hmix, h⟩ := Except.bind_eq_ok.1 h
  cases h
  have hitems : Sourced agree candidates accepted.items := by
    refine Except.foldlM_of_invariant (fun _ (st : Accepted) => Sourced agree candidates st.items)
      ?_ rows (fun e he => absurd he List.not_mem_nil) hloop
    exact fun source rest st st' hst hstep => acceptRow_sourced hagree hst hstep
  have htrain : Sourced agree candidates train := by
    obtain ⟨accepted', counter', hspec, hcurated⟩ := curate_curated sv.unicode sv.golden
      spec.thresholdNonneg (accepted.items.filter fun e => textField e.row "split" = some "train")
      accepted.exclusions
    rw [hspec] at hcurate
    cases hcurate
    refine hitems.subset fun e he => ?_
    exact List.mem_of_mem_filter ((sortExamples_perm _).subset (hcurated.sublist.subset he))
  exact (htrain.append (mix_sourced htrain hmix)).append
    (hitems.subset fun _ he => List.mem_of_mem_filter he)

/-- **Identity.** Whatever the purpose, every example of a build is a candidate's. -/
theorem buildExamples_sourced {asOf : ℤ} {selection : Selection} {built : Built}
    (hagree : agree → spec.purpose ≠ .distillation)
    (h : buildExamples sv snapshot spec environment asOf selection = .ok built) :
    Sourced agree selection.examples built.examples := by
  have hfilter : selection.examples.filter (·.inEnvironment environment) ⊆ selection.examples :=
    fun _ hc => List.mem_of_mem_filter hc
  unfold buildExamples at h
  dsimp only at h
  split at h
  · split at h
    · cases h
    · obtain ⟨examples, hrows, h⟩ := Except.bind_eq_ok.1 h
      cases h
      exact (counterfactualRows_sourced hrows).of_subset hfilter
  · rename_i hpurpose
    split at h
    · cases h
    · obtain ⟨rows, -, h⟩ := Except.bind_eq_ok.1 h
      obtain ⟨distilled, hdistilled, h⟩ := Except.bind_eq_ok.1 h
      cases h
      unfold teacherExamples at hdistilled
      split at hdistilled
      · cases hdistilled
      exact (distill_sourced (fun ha => hagree ha hpurpose) hdistilled).of_subset hfilter
  all_goals
    obtain ⟨⟨examples, exclusions⟩, hall, h⟩ := Except.bind_eq_ok.1 h
    cases h
    exact constructAll_sourced hall

end Sourced

end Datasets

end AdaptiveLlm
