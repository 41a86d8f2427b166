import AdaptiveLlm.Routing.Calibration
import AdaptiveLlm.Routing.Canary
import AdaptiveLlm.Lib.Except
import Mathlib.Algebra.Order.Floor.Semiring

set_option autoImplicit false

/-! # The router's model

`routing/model.py`: one-hot features over the categories of the training fold, logistic classifiers,
their calibration, and the distance from the centroid. The arithmetic is that of any ordered field, with
`exp` and `sqrt` given.

What may raise is spelled out: a zip of lists with different lengths, an average of nothing, a
division by zero, a confidence beyond its bounds. The training loop is gradient descent with a
number of steps fixed beforehand, so it ends; whether it converges is not asked. -/

namespace AdaptiveLlm.RouterModel

open RouteControl (RiskTier)

/-! ## The data -/

/-- What the categories are made of. -/
structure RoutingFeatures where
  task : String
  language : String := "en"
  riskTier : RiskTier := .medium
  topScore : ℚ := 0
  inputTokens : ℕ
  contextSupplied : Bool := false

/-- What is known of a candidate's answer. -/
structure RoutingObservation where
  quality : Option ℚ := none
  validationPass : Option Bool := none
  costMicros : Option ℕ := none
  latencyMs : Option ℚ := none
  quality_range : ∀ q ∈ quality, 0 ≤ q ∧ q ≤ 1 := by simp
  latency_nonneg : ∀ l ∈ latencyMs, 0 ≤ l := by simp

/-- A row that a router is trained on. -/
structure RoutingRow where
  interactionId : String
  features : RoutingFeatures
  foundationId : String
  /-- the dictionary of candidates, some with `None` -/
  candidates : List (String × Option RoutingObservation)

/-- `row.candidates.get(version)`. -/
def RoutingRow.candidate (row : RoutingRow) (version : String) : Option RoutingObservation :=
  (row.candidates.lookup version).join

/-- The categories of the features, in the order of the vocabulary. -/
def categories (f : RoutingFeatures) : List String :=
  let tokens := [32, 128, 512, 2048, 8192].countP (· ≤ f.inputTokens)
  let score := ([1 / 4, 1 / 2, 3 / 4] : List ℚ).countP (· ≤ f.topScore)
  [f.task, f.language, f.riskTier.text, toString tokens, toString f.contextSupplied.toNat, toString score]

/-- The functions of `math`. -/
structure Analysis (K : Type) [Field K] [LinearOrder K] where
  exp : K → K
  sqrt : K → K
  exp_pos : ∀ x, 0 < exp x
  sqrt_nonneg : ∀ x, 0 ≤ x → 0 ≤ sqrt x

/-- The weights of one candidate, and how its scores are calibrated. -/
structure Classifier (K : Type) [Field K] [LinearOrder K] where
  weights : List K
  calibration : List K
  confidence : K
  latencyMs : ℚ
  observedCostMicros : ℕ
  confidence_range : 0 ≤ confidence ∧ confidence ≤ 1
  latency_nonneg : 0 ≤ latencyMs

/-- `Estimate`, before its numbers are rounded. -/
structure Estimate (K : Type) where
  suitability : K
  confidence : K
  ood : K
  latencyMs : ℚ

/-- `LogisticRouter`: the vocabulary, the centroid of the training rows and the classifiers. -/
structure LogisticRouter (K : Type) [Field K] [LinearOrder K] where
  vocabulary : List (List String)
  centroid : List K := []
  scales : List K := []
  classifiers : List (String × Classifier K) := []
  trainingInteractions : List String
  calibrationInteractions : List String

/-! ## What may raise -/

section Python

variable {K : Type} [Field K] [LinearOrder K] {α β : Type}

/-- `zip(…, strict=True)`. -/
def zipStrict (as : List α) (bs : List β) : Except RouterException (List (α × β)) :=
  if as.length = bs.length then .ok (as.zip bs) else .error (.python "ValueError")

/-- `fmean`. -/
def mean (values : List K) : Except RouterException K :=
  if values = [] then .error (.python "StatisticsError") else .ok (average values)

/-- `/`. -/
def quotient (x y : K) : Except RouterException K :=
  if y = 0 then .error (.python "ZeroDivisionError") else .ok (x / y)

/-- `math.sqrt`. -/
def squareRoot (an : Analysis K) (x : K) : Except RouterException K :=
  if x < 0 then .error (.python "ValueError") else .ok (an.sqrt x)

/-- `zip(*vectors, strict=True)`, the columns of some rows. -/
def transposed (vectors : List (List K)) : Except RouterException (List (List K)) :=
  let width := (vectors.headD []).length
  if vectors.all (·.length = width) then
    .ok ((List.range width).map fun i => vectors.map (·.getD i 0))
  else .error (.python "ValueError")

end Python

/-! ## Logistic regression -/

section Fit

variable {K : Type} [Field K] [LinearOrder K] (an : Analysis K)

/-- The logistic function of a value that is bounded first. -/
def sigmoid (value : K) : K := 1 / (1 + an.exp (-max (-40) (min 40 value)))

/-- `gradient[index] += …` for the values of a sample. -/
def addError (error : K) (gradient : List K) (values : List K) : Except RouterException (List K) :=
  values.zipIdx.foldlM (fun gradient (value, index) =>
    if index < gradient.length then .ok (gradient.modify index (· + error * value))
    else .error (.python "IndexError")) gradient

/-- The scalar product, with the bias first. -/
def logit (weights vector : List K) : Except RouterException K := do
  let pairs ← zipStrict weights (1 :: vector)
  .ok (pairs.map fun (w, x) => w * x).sum

/-- One step of the descent. -/
def descend (vectors : List (List K)) (labels : List K) (weights : List K) :
    Except RouterException (List K) := do
  let samples ← zipStrict vectors labels
  let gradient ← samples.foldlM (fun gradient (vector, label) => do
    let value ← logit weights vector
    addError (sigmoid an value - label) gradient (1 :: vector)) (List.replicate weights.length 0)
  let pairs ← zipStrict weights gradient
  .ok (pairs.map fun (w, g) => w - 1 / 5 * g / vectors.length)

/-- `fit`, where `check` says whether the check made in a step returns. -/
def fit (check : ℕ → Bool) (vectors : List (List K)) (labels : List K) (steps : ℕ := 600) :
    Except RouterException (List K) :=
  if vectors = [] ∨ vectors.length ≠ labels.length then .error (.gateway 422 "empty_training_split")
  else
    (List.range steps).foldlM (fun weights step =>
      if step % 20 = 0 ∧ check step = false then .error .interrupted
      else descend an vectors labels weights)
      (List.replicate ((vectors.headD []).length + 1) 0)

end Fit

/-- `suitable`. -/
def suitable (K : Type) [Field K] (row : RoutingRow) (version : String) (threshold : ℚ := 9 / 10) : K :=
  match row.candidate version, row.candidate row.foundationId with
  | some observation, some foundation =>
    match observation.quality, foundation.quality with
    | some quality, some reference =>
      if observation.validationPass = some true ∧ threshold ≤ quality ∧ reference - 2 / 100 ≤ quality then 1
      else 0
    | _, _ => 0
  | _, _ => 0

/-! ## The router -/

section Router

variable {K : Type} [Field K] [LinearOrder K] (an : Analysis K)

/-- The entries of a category: one for each known value, and one for any other. -/
def block (category : String) (known : List String) : List K :=
  (known.map fun value => if category = value then 1 else 0) ++ [if category ∉ known then 1 else 0]

namespace LogisticRouter

variable (model : LogisticRouter K)

/-- The features as a vector, one block for each category. -/
def vector (features : RoutingFeatures) : Except RouterException (List K) := do
  let pairs ← zipStrict (categories features) model.vocabulary
  .ok (pairs.flatMap fun (category, known) => block category known)

/-- How far the features lie from the training rows. -/
def ood (features : RoutingFeatures) : Except RouterException K := do
  let vector ← model.vector features
  let centered ← zipStrict vector model.centroid
  let scaled ← zipStrict centered model.scales
  let squares ← scaled.mapM fun ((value, center), scale) => do
    let x ← quotient (value - center) scale
    .ok (x ^ 2)
  let square ← mean squares
  let distance ← squareRoot an square
  quotient distance (1 + distance)

/-- `estimate`: what the router expects of a candidate. -/
def estimate (features : RoutingFeatures) (version : String) : Except RouterException (Estimate K) := do
  match model.classifiers.lookup version with
  | none => .ok { suitability := 0, confidence := 0, ood := 1, latencyMs := 0 }
  | some classifier =>
    let vector ← model.vector features
    let value ← logit classifier.weights vector
    let calibrated ← logit classifier.calibration [value]
    let ood ← model.ood an features
    .ok { suitability := sigmoid an calibrated, confidence := classifier.confidence, ood
          latencyMs := classifier.latencyMs }

end LogisticRouter

/-- `sorted` of a set. -/
def sortedSet (values : List String) : List String := values.dedup.mergeSort (· ≤ ·)

/-- The values of each category in the training rows. -/
def vocabulary (training : List RoutingRow) : List (List String) :=
  (List.range 6).map fun i => sortedSet (training.map fun r => (categories r.features).getD i "")

/-- The versions that a row names beside its foundation. -/
def versions (training : List RoutingRow) : List String :=
  sortedSet (training.flatMap fun r => (r.candidates.map (·.1)).filter (· ≠ r.foundationId))

/-- The deviation of the columns, at least a quarter. -/
def deviations (centroid : List K) (columns : List (List K)) : Except RouterException (List K) := do
  let pairs ← zipStrict centroid columns
  pairs.mapM fun (center, column) => do
    let square ← mean (column.map fun x => (x - center) ^ 2)
    let deviation ← squareRoot an square
    .ok (max (1 / 4) deviation)

variable [FloorRing K]

/-- The classifier of a version. -/
def trainClassifier (check : Bool → ℕ → Bool) (model : LogisticRouter K) (vectors : List (List K))
    (training calibration : List RoutingRow) (version : String) :
    Except RouterException (Classifier K) := do
  let weights ← fit an (check false) vectors (training.map (suitable K · version))
  let logits ← calibration.mapM fun row => do
    let vector ← model.vector row.features
    let value ← logit weights vector
    .ok [value]
  let labels := calibration.map (suitable K · version)
  let platt ← fit an (check true) logits labels
  let probabilities ← logits.mapM fun x => do
    let value ← logit platt x
    .ok (sigmoid an value)
  let observations := training.filterMap (·.candidate version)
  let costs : List ℚ := observations.filterMap fun o => o.costMicros.map fun cost => (cost : ℚ)
  let latencies := observations.filterMap (·.latencyMs)
  let error ← ece probabilities labels
  let confidence := (1 - error) * min 1 ((observations.length : K) / 4)
  let latencyMs := if latencies = [] then 0 else average latencies
  if h : (0 ≤ confidence ∧ confidence ≤ 1) ∧ 0 ≤ latencyMs then
    .ok { weights, calibration := platt, confidence, latencyMs
          observedCostMicros := if costs = [] then 0 else ⌈average costs⌉₊
          confidence_range := h.1, latency_nonneg := h.2 }
  else .error (.python "ValidationError")

/-- `train_model`, where `check` says whether the check made in a step of a fit, of the weights or of the
    calibration of a version, returns. -/
def trainModel (check : String → Bool → ℕ → Bool) (training calibration : List RoutingRow) :
    Except RouterException (LogisticRouter K) := do
  if training = [] ∨ calibration = [] then .error (.gateway 422 "empty_training_split")
  else if ∃ r ∈ training, ∃ r' ∈ calibration, r.interactionId = r'.interactionId then
    .error (.gateway 409 "routing_fold_overlap")
  else
    let model : LogisticRouter K :=
      { vocabulary := vocabulary training
        trainingInteractions := (training.map (·.interactionId)).mergeSort (· ≤ ·)
        calibrationInteractions := (calibration.map (·.interactionId)).mergeSort (· ≤ ·) }
    let vectors ← training.mapM fun row => model.vector row.features
    let columns ← transposed vectors
    let centroid ← columns.mapM mean
    let scales ← deviations an centroid columns
    let classifiers ← (versions training).mapM fun version => do
      let classifier ← trainClassifier an (check version) model vectors training calibration version
      .ok (version, classifier)
    .ok { model with centroid, scales, classifiers }

end Router

end AdaptiveLlm.RouterModel
