import AdaptiveLlm.Lib.Grouping
import AdaptiveLlm.Lib.Json
import AdaptiveLlm.Lib.Runs
import AdaptiveLlm.Lib.UnionFind
import Mathlib.Data.Rat.Floor

set_option autoImplicit false

/-! # Joint splits of a dataset

`splitExamples` joins the examples that share a document family or a subject with a union-find,
shuffles the components and hands each of them whole to one of the three splits: by the share of the
examples assigned so far, or, with a time split, by the latest of the component.

The union-find joins an example with the *last* one before it that had the key, not with all of
them; `Joined` is what the loop keeps, and `splitExamples_spec` the result: no example is lost or
duplicated, and the components are the classes of "share a family or a subject".

The definitions here follow the source loop by loop, with the dictionaries and the union-find as the
source keeps them. What the loops compute, in terms of the examples alone, is proved in
`Datasets/JointSplit.lean`, and how large the splits come out in
`Datasets/SplitProportions.lean`. -/

namespace AdaptiveLlm

/-! ## The data -/

/-- The three parts of a dataset. -/
inductive Split where
  | train
  | validation
  | test
  deriving DecidableEq, Repr

/-- Cutoffs of a split by time, as instants in microseconds. -/
structure TimeSplit where
  trainEnd : ℤ
  validationEnd : ℤ
  ordered : trainEnd < validationEnd

/-- What a dataset specification says about its splits. -/
structure DatasetSpecification where
  timeSplit : Option TimeSplit := none
  seed : ℕ := 0

/-- An example as the constructor built it: its keys, start and texts, and the row to be written. -/
structure BuiltExample where
  interactionId : String
  tenantId : String
  subject : Option String
  families : List String
  startedAt : ℤ
  targetSource : String
  language : String
  exactHash : String
  text : String
  row : List (String × Json)
  benchmarkText : Option String := none

/-- `random.Random(seed).shuffle`: some rearrangement of the list it is given. -/
structure SeededShuffle (α : Type) where
  shuffle : ℕ → List α → List α
  perm : ∀ seed l, (shuffle seed l).Perm l

/-- A grouping key: a family name or a subject, which are different keys even when equal as text. -/
inductive GroupKey where
  | family (name : String)
  | subject (name : String)
  deriving DecidableEq, Repr

/-- The keys of an example; without a subject it has its families only. -/
def BuiltExample.keys (e : BuiltExample) : List GroupKey :=
  e.families.map .family ++
    match e.subject with
    | some name => [.subject name]
    | none => []

/-- The order of the sort key `(started_at, interaction_id)`. -/
def BuiltExample.le (a b : BuiltExample) : Bool :=
  a.startedAt < b.startedAt || a.startedAt = b.startedAt && a.interactionId ≤ b.interactionId

/-- `sorted(examples, key=...)`. -/
def sortExamples (examples : List BuiltExample) : List BuiltExample :=
  examples.mergeSort BuiltExample.le

theorem sortExamples_perm (examples : List BuiltExample) : (sortExamples examples).Perm examples :=
  List.mergeSort_perm examples _

/-! ## Joining -/

section Join

variable {n : ℕ}

/-- The union-find over the positions of the examples, and the last position with each key. -/
structure JoinState (n : ℕ) where
  parents : Fin n → Fin n := id
  seen : GroupKey → Option (Fin n) := fun _ => none

/-- One key of the example at `index`. -/
def JoinState.visit (st : JoinState n) (index : Fin n) (key : GroupKey) : Option (JoinState n) := do
  let parents ← match st.seen key with
    | some earlier => UnionFind.union n st.parents index earlier
    | none => some st.parents
  some { parents, seen := Function.update st.seen key (some index) }

/-- The loop over the examples and the keys of each. -/
def joinAll (ordered : List BuiltExample) : Option (JoinState ordered.length) :=
  (List.finRange ordered.length).foldlM
    (fun st index => (ordered.get index).keys.foldlM (fun st key => st.visit index key) st) {}

/-- The loop over the positions that collects the examples by root. -/
def collect (ordered : List BuiltExample) (parents : Fin ordered.length → Fin ordered.length) :
    Option ((Fin ordered.length → Fin ordered.length) ×
      List (Fin ordered.length × List BuiltExample)) :=
  (List.finRange ordered.length).foldlM
    (fun st index => do
      let (parents, root) ← UnionFind.find ordered.length st.1 index
      some (parents, Grouping.append root (ordered.get index) st.2))
    (parents, [])

end Join

/-! ## Assigning -/

/-- The split of a component when `assigned` of `total` examples have one already; `none` is the
    error of `max` on an empty component. -/
def splitOf (spec : DatasetSpecification) (total assigned : ℕ) (group : List BuiltExample) :
    Option Split :=
  match spec.timeSplit with
  | some cut => do
    let latest ← (group.map (·.startedAt)).max?
    some (if latest < cut.trainEnd then .train
      else if latest < cut.validationEnd then .validation
      else .test)
  | none =>
    -- the source compares doubles with 0.8 and 0.9
    let fraction : ℚ := assigned / max 1 total
    some (if fraction < 4 / 5 then .train
      else if fraction < 9 / 10 then .validation
      else .test)

/-- The splits filled so far and the number of examples in them. -/
structure Assigned where
  result : Split → List BuiltExample := fun _ => []
  assigned : ℕ := 0

/-- One group goes to the split that is chosen for it, if one is. -/
def Assigned.assign (spec : DatasetSpecification) (total : ℕ) (st : Assigned)
    (group : List BuiltExample) : Option Assigned := do
  let split ← splitOf spec total st.assigned group
  some
    { result := Function.update st.result split (st.result split ++ group)
      assigned := st.assigned + group.length }

/-- `split_examples`. -/
def splitExamples (rng : SeededShuffle (List BuiltExample)) (examples : List BuiltExample)
    (spec : DatasetSpecification) : Option (Split → List BuiltExample) := do
  let ordered := sortExamples examples
  let joined ← joinAll ordered
  let (_, groups) ← collect ordered joined.parents
  let components := groups.map (·.2)
  let st ← (rng.shuffle spec.seed components).foldlM (Assigned.assign spec ordered.length) {}
  some fun split => sortExamples (st.result split)

end AdaptiveLlm
