import AdaptiveLlm.Lib.Grouping
import AdaptiveLlm.Lib.Names
import AdaptiveLlm.Lib.Selection
import Mathlib.Algebra.Order.Floor.Semiring
import Mathlib.Data.List.Sort
import Mathlib.Data.Rat.Floor

set_option autoImplicit false

/-! # Structured pruning

`geometry` and `prune` of `research/tensors.py`, and what `transformers` prescribes for the tensors of a
Llama configuration. A tensor is its shape with its entries.

A plan removes a fraction of each kind of structures that it names, rounded down and never all of a
kind. Which ones is told by the rankings: first the layers, then the heads and the channels of each
layer that stays. Attention heads go with the projections they own, and groups of key and value
heads are expanded before, where their number is not that of the query heads. The errors are those
of the source, for bases and plans that it refuses. -/

namespace AdaptiveLlm

namespace Pruning

open Selection

/-- What `prune` reads of `config.json`, and the settings that the tensors depend on. -/
structure LlamaConfig where
  modelType : String := "llama"
  numHiddenLayers : ℕ
  hiddenSize : ℕ
  intermediateSize : ℕ
  vocabSize : ℕ := 259
  numAttentionHeads : ℕ := 4
  numKeyValueHeads : ℕ
  headDim : Option ℕ := none
  attentionBias : Bool := false
  mlpBias : Bool := false
  deriving DecidableEq, Repr

/-- How a plan can be refused. -/
inductive PruneError where
  | magnitudeRankingUnsupported
  | researchTinyBaseRequired
  | noStructuresRemoved
  | keyError
  | indexError
  deriving DecidableEq, Repr

/-- `geometry`. -/
def geometry (config : LlamaConfig) : Except PruneError LlamaConfig :=
  if config.modelType ≠ "llama" ∨
      ¬ (1 ≤ config.numHiddenLayers ∧ config.numHiddenLayers ≤ 2) ∨
      ¬ (1 ≤ config.hiddenSize ∧ config.hiddenSize ≤ 32) ∨
      ¬ (1 ≤ config.intermediateSize ∧ config.intermediateSize ≤ 64) ∨
      config.vocabSize ≠ 259 ∨
      config.numAttentionHeads ≠ 4 ∨
      config.numKeyValueHeads ∉ [2, 4] then
    .error .researchTinyBaseRequired
  else .ok config

/-- `PruningPlan`: what may be removed, and how much of it. -/
structure PruningPlan where
  structures : List String := ["attention_heads", "mlp_channels", "layers"]
  maximumFraction : ℚ := 1 / 4
  rankingRule : String := "ablation_sensitivity"
  deriving DecidableEq, Repr

/-! ## Tensors -/

/-- A shape and an entry for each tuple of indices. -/
structure Tensor (R : Type) where
  shape : List ℕ
  entry : List ℕ → R

/-- `model.state_dict()`. -/
abbrev StateDict (R : Type) := List (String × Tensor R)

namespace Tensor

variable {R : Type}

/-- The tensor with these rows only. -/
def rows (indices : List ℕ) (t : Tensor R) : Tensor R where
  shape := indices.length :: t.shape.tail
  entry
    | i :: is => t.entry (indices.getD i 0 :: is)
    | [] => t.entry []

/-- The tensor with these columns only. -/
def columns (indices : List ℕ) (t : Tensor R) : Tensor R where
  shape :=
    match t.shape with
    | n :: _ :: shape => n :: indices.length :: shape
    | shape => shape
  entry
    | i :: j :: is => t.entry (i :: indices.getD j 0 :: is)
    | is => t.entry is

/-- `value[indices]`. -/
def selectRows (indices : List ℕ) (t : Tensor R) : Except PruneError (Tensor R) :=
  match t.shape with
  | n :: _ => if indices.all (· < n) then .ok (t.rows indices) else .error .indexError
  | [] => .error .indexError

/-- `value[:, indices]`. -/
def selectColumns (indices : List ℕ) (t : Tensor R) : Except PruneError (Tensor R) :=
  match t.shape with
  | _ :: n :: _ => if indices.all (· < n) then .ok (t.columns indices) else .error .indexError
  | _ => .error .indexError

end Tensor

/-! ## The tensors of a configuration -/

/-- The size of a head, which the configuration gives or `transformers` derives. -/
def LlamaConfig.headSize (config : LlamaConfig) : ℕ :=
  config.headDim.getD (config.hiddenSize / config.numAttentionHeads)

/-- The shapes of the tensors of a layer. -/
def layerShapes (config : LlamaConfig) : List (String × List ℕ) :=
  let queries := config.numAttentionHeads * config.headSize
  let keys := config.numKeyValueHeads * config.headSize
  [("self_attn.q_proj.weight", [queries, config.hiddenSize]),
    ("self_attn.k_proj.weight", [keys, config.hiddenSize]),
    ("self_attn.v_proj.weight", [keys, config.hiddenSize]),
    ("self_attn.o_proj.weight", [config.hiddenSize, queries])] ++
  (if config.attentionBias then
    [("self_attn.q_proj.bias", [queries]), ("self_attn.k_proj.bias", [keys]),
      ("self_attn.v_proj.bias", [keys]), ("self_attn.o_proj.bias", [config.hiddenSize])]
  else []) ++
  [("mlp.gate_proj.weight", [config.intermediateSize, config.hiddenSize]),
    ("mlp.up_proj.weight", [config.intermediateSize, config.hiddenSize]),
    ("mlp.down_proj.weight", [config.hiddenSize, config.intermediateSize])] ++
  (if config.mlpBias then
    [("mlp.gate_proj.bias", [config.intermediateSize]), ("mlp.up_proj.bias", [config.intermediateSize]),
      ("mlp.down_proj.bias", [config.hiddenSize])]
  else []) ++
  [("input_layernorm.weight", [config.hiddenSize]),
    ("post_attention_layernorm.weight", [config.hiddenSize])]

/-- `model.layers.{index}.`. -/
def layerPrefix (index : ℕ) : String := "model.layers." ++ toString index ++ "."

/-- The shapes of the other tensors. -/
def otherShapes (config : LlamaConfig) : List (String × List ℕ) :=
  [("model.embed_tokens.weight", [config.vocabSize, config.hiddenSize]),
    ("model.norm.weight", [config.hiddenSize]),
    ("lm_head.weight", [config.vocabSize, config.hiddenSize])]

/-- The shapes of all tensors of a model. -/
def shapes (config : LlamaConfig) : List (String × List ℕ) :=
  otherShapes config ++ (List.range config.numHiddenLayers).flatMap fun i =>
    (layerShapes config).map fun s => (layerPrefix i ++ s.1, s.2)

/-- A model as `transformers` builds it: its tensors are those of its configuration. The size of a head is
    not given as zero, of which no power of `-0.5` can be taken. -/
structure Base (R : Type) where
  config : LlamaConfig
  state : StateDict R
  fits : (state.map fun kv => (kv.1, kv.2.shape)).Perm (shapes config)
  headDim_ne : config.headDim ≠ some 0

/-! ## Pruning

The plan gives shares, of which the numbers of heads, channels and layers are made by the code's own
rounding. What stays of each kind is taken in the order of the base. -/

/-- What is pruned of a kind: how many of `count`, in floating point. -/
def PruningPlan.removable (plan : PruningPlan) (round : ℚ → ℚ) (count : ℕ) (kind : String) : ℕ :=
  if kind ∈ plan.structures then min (count - 1) ⌊round (count * plan.maximumFraction)⌋₊ else 0

/-- The indices that `keep` removes. -/
def removedIndices (plan : PruningPlan) (round : ℚ → ℚ) (rankings : String → Option (List ℕ))
    (name : String)
    (count : ℕ) (kind : String) : Except PruneError (List ℕ) :=
  match rankings name with
  | some ranking => .ok ((ranking.take (plan.removable round count kind)).insertionSort (· ≤ ·))
  | none => .error .keyError

/-- `config.get("head_dim") or config["hidden_size"] // heads`. -/
def LlamaConfig.prunedHeadDim (config : LlamaConfig) : ℕ :=
  match config.headDim with
  | some (d + 1) => d + 1
  | _ => config.hiddenSize / config.numAttentionHeads

/-- The indices for the slices of a layer. -/
structure Cut where
  attention : Bool
  q : List ℕ
  kv : List ℕ
  channels : List ℕ

/-- The indices that are kept of a layer's tensors. -/
def LlamaConfig.cut (config : LlamaConfig) (retainedHeads retainedChannels : List ℕ) : Cut where
  attention := retainedHeads.length ≠ config.numAttentionHeads
  q := retainedHeads.flatMap fun h => (List.range config.prunedHeadDim).map (h * config.prunedHeadDim + ·)
  kv :=
    let groups := config.numAttentionHeads / config.numKeyValueHeads
    retainedHeads.flatMap fun h =>
      (List.range config.prunedHeadDim).map (h / groups * config.prunedHeadDim + ·)
  channels := retainedChannels

variable {R : Type}

/-- The slice of a tensor of a layer, by its name. -/
def Cut.slice (cut : Cut) (name : String) (value : Tensor R) : Except PruneError (Tensor R) := do
  let value ←
    if cut.attention then
      if name ∈ ["self_attn.q_proj.weight", "self_attn.q_proj.bias"] then value.selectRows cut.q
      else if name ∈ ["self_attn.k_proj.weight", "self_attn.v_proj.weight", "self_attn.k_proj.bias",
          "self_attn.v_proj.bias"] then value.selectRows cut.kv
      else if name = "self_attn.o_proj.weight" then value.selectColumns cut.q
      else .ok value
    else .ok value
  if name ∈ ["mlp.gate_proj.weight", "mlp.up_proj.weight"] then value.selectRows cut.channels
  else if name = "mlp.down_proj.weight" then value.selectColumns cut.channels
  else .ok value

/-- What the loop over the layers has so far. -/
structure Pruned (R : Type) where
  removed : List (String × List ℕ)
  result : StateDict R
  newHeads : ℕ
  newChannels : ℕ

/-- The tensors of a layer, with the names that they have behind the prefix. -/
def layerTensors (state : StateDict R) (index : ℕ) : StateDict R :=
  (state.filter fun kv => Names.startsWith (layerPrefix index) kv.1).map fun kv =>
    (Names.behind (layerPrefix index) kv.1, kv.2)

/-- The loop's body for an old and a new index. -/
def pruneLayer (base : Base R) (plan : PruningPlan) (round : ℚ → ℚ) (rankings : String → Option (List ℕ))
    (pruned : Pruned R) (oldIndex newIndex : ℕ) : Except PruneError (Pruned R) := do
  let config := base.config
  let headsName := "attention_heads." ++ toString oldIndex
  let channelsName := "mlp_channels." ++ toString oldIndex
  let removedHeads ←
    removedIndices plan round rankings headsName config.numAttentionHeads "attention_heads"
  let removedChannels ←
    removedIndices plan round rankings channelsName config.intermediateSize "mlp_channels"
  let retainedHeads := retain config.numAttentionHeads removedHeads
  let retainedChannels := retain config.intermediateSize removedChannels
  let sliced ← (layerTensors base.state oldIndex).mapM fun kv => do
    let value ← (config.cut retainedHeads retainedChannels).slice kv.1 kv.2
    return (layerPrefix newIndex ++ kv.1, value)
  return {
    removed := Grouping.set channelsName removedChannels (Grouping.set headsName
      removedHeads pruned.removed)
    result := sliced.foldl (fun result kv => Grouping.set kv.1 kv.2 result) pruned.result
    newHeads := retainedHeads.length
    newChannels := retainedChannels.length }

/-- What `prune` returns: the configuration and the tensors of the export, and what was removed. -/
structure Export (R : Type) where
  config : LlamaConfig
  state : StateDict R
  removed : List (String × List ℕ)

/-- `prune`. -/
def prune (base : Base R) (plan : PruningPlan) (round : ℚ → ℚ) (rankings : String → Option (List ℕ)) :
    Except PruneError (Export R) := do
  if plan.rankingRule ≠ "ablation_sensitivity" then throw .magnitudeRankingUnsupported
  let config ← geometry base.config
  let removedLayers ← removedIndices plan round rankings "layers" config.numHiddenLayers "layers"
  let retainedLayers := retain config.numHiddenLayers removedLayers
  let pruned ← retainedLayers.zipIdx.foldlM
    (fun pruned layer => pruneLayer base plan round rankings pruned layer.1 layer.2)
    { removed := [("layers", removedLayers)]
      result := base.state.filter fun kv => !Names.startsWith "model.layers." kv.1
      newHeads := config.numAttentionHeads
      newChannels := config.intermediateSize }
  if pruned.removed.all fun kv => kv.2.isEmpty then throw .noStructuresRemoved
  return {
    config := { config with
      numHiddenLayers := retainedLayers.length
      numAttentionHeads := pruned.newHeads
      numKeyValueHeads :=
        if pruned.newHeads ≠ config.numAttentionHeads then pruned.newHeads else config.numKeyValueHeads
      headDim := some config.prunedHeadDim
      intermediateSize := pruned.newChannels }
    state := pruned.result
    removed := pruned.removed }

end Pruning

end AdaptiveLlm
