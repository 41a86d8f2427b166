import AdaptiveLlm.Research.Exports
import Mathlib.Algebra.Ring.Defs

set_option autoImplicit false

/-! # What an export computes

A Llama model in exact arithmetic: an attention head is any function of its query, key and value
projections, and so are the norms and the activation of their arguments. The export of `prune` computes
what the base computes with the removed layers skipped, and with the outputs of the removed heads and
the removed channels at zero.

The result does not depend on what an attention head computes, on the position encoding, or on the
norms: they are functions of the model, the same on both sides. What is used is linearity where
heads and channels are added up, so a sum over what is retained is the sum over all with zeros for
the rest. Rankings are any permutations, so it holds for every criterion by which parts are
removed. -/

namespace AdaptiveLlm

namespace Pruning

open Selection

variable {R T : Type} [NonUnitalNonAssocSemiring R]

/-! ## The model -/

/-- What a model computes besides its linear maps; a head sees all positions. -/
structure Functions (R T : Type) where
  norm : (weight x : ℕ → R) → ℕ → R
  activation : R → R
  head : (size : ℕ) → (q k v : T → Fin size → R) → T → Fin size → R

/-- The entries of a tensor of a model. -/
def entries (state : StateDict R) (name : String) : List ℕ → R :=
  (Grouping.get ⟨[], fun _ => 0⟩ state name).entry

/-- `nn.Linear`, with or without its bias. -/
def linear (inputs : ℕ) (weight bias : List ℕ → R) (biased : Bool) (x : ℕ → R) (i : ℕ) : R :=
  ((List.range inputs).map fun j => weight [i, j] * x j).sum + if biased then bias [i] else 0

/-- The heads side by side, with those that are removed at zero, under the output projection. The heads of
    a group share their keys and values. -/
def attend (f : Functions R T) (size heads groups : ℕ) (q k v : T → ℕ → R) (output : ℕ → ℕ → R)
    (removed : List ℕ) (t : T) (i : ℕ) : R :=
  ((List.range heads).map fun h =>
    ((List.finRange size).map fun e : Fin size => output i (h * size + e) *
      if h ∈ removed then 0
      else f.head size (fun t e => q t (h * size + e)) (fun t e => k t (h / groups * size + e))
        (fun t e => v t (h / groups * size + e)) t e).sum).sum

/-- The attention of a layer, with the removed heads set to zero. -/
def attention (f : Functions R T) (config : LlamaConfig) (state : StateDict R) (pre : String)
    (removed : List ℕ) (x : T → ℕ → R) (t : T) (i : ℕ) : R :=
  let projection name bias :=
    fun t => linear config.hiddenSize (entries state (pre ++ name)) (entries state (pre ++ bias))
      config.attentionBias (x t)
  attend f config.headSize config.numAttentionHeads (config.numAttentionHeads / config.numKeyValueHeads)
      (projection "self_attn.q_proj.weight" "self_attn.q_proj.bias")
      (projection "self_attn.k_proj.weight" "self_attn.k_proj.bias")
      (projection "self_attn.v_proj.weight" "self_attn.v_proj.bias")
      (fun i j => entries state (pre ++ "self_attn.o_proj.weight") [i, j]) removed t i +
    if config.attentionBias then entries state (pre ++ "self_attn.o_proj.bias") [i] else 0

/-- The gated channels, with those that are removed at zero. -/
def gated (f : Functions R T) (removed : List ℕ) (gate up : ℕ → R) (channel : ℕ) : R :=
  if channel ∈ removed then 0 else f.activation (gate channel) * up channel

/-- The mlp of a layer, with the removed channels set to zero. -/
def mlp (f : Functions R T) (config : LlamaConfig) (state : StateDict R) (pre : String)
    (removed : List ℕ) (x : ℕ → R) : ℕ → R :=
  let projection name bias :=
    linear config.hiddenSize (entries state (pre ++ name)) (entries state (pre ++ bias)) config.mlpBias x
  linear config.intermediateSize (entries state (pre ++ "mlp.down_proj.weight"))
    (entries state (pre ++ "mlp.down_proj.bias")) config.mlpBias
    (gated f removed (projection "mlp.gate_proj.weight" "mlp.gate_proj.bias")
      (projection "mlp.up_proj.weight" "mlp.up_proj.bias"))

/-- A layer, with its residuals. -/
def layer (f : Functions R T) (config : LlamaConfig) (state : StateDict R) (pre : String)
    (removedHeads removedChannels : List ℕ) (x : T → ℕ → R) : T → ℕ → R :=
  let normed name (x : T → ℕ → R) := fun t => f.norm (fun i => entries state (pre ++ name) [i]) (x t)
  let x' := fun t i =>
    x t i + attention f config state pre removedHeads (normed "input_layernorm.weight" x) t i
  fun t i =>
    x' t i + mlp f config state pre removedChannels (normed "post_attention_layernorm.weight" x' t) i

/-- The logits of a model, with what is removed skipped or at zero. -/
def forward (f : Functions R T) (config : LlamaConfig) (state : StateDict R)
    (removed : List (String × List ℕ)) (tokens : T → ℕ) : T → ℕ → R :=
  let embedded := fun t i => entries state "model.embed_tokens.weight" [tokens t, i]
  let x := (List.range config.numHiddenLayers).foldl
    (fun x index =>
      if index ∈ Grouping.get [] removed "layers" then x
      else layer f config state (layerPrefix index)
        (Grouping.get [] removed ("attention_heads." ++ toString index))
        (Grouping.get [] removed ("mlp_channels." ++ toString index)) x)
    embedded
  fun t => linear config.hiddenSize (entries state "lm_head.weight") (fun _ => 0) false
    (f.norm (fun i => entries state "model.norm.weight" [i]) (x t))

/-! ## Fewer heads, fewer channels

These are statements about sums of matrices, without any names of tensors: what is left of a
projection produces the summands of the heads that are left. -/

/-- A map with selected rows computes the selected outputs. -/
theorem linear_rows {inputs : ℕ} {weight weight' bias bias' : List ℕ → R} {biased : Bool} {i i' : ℕ}
    (hweight : ∀ j, weight' [i', j] = weight [i, j]) (hbias : biased = true → bias' [i'] = bias [i])
    (x : ℕ → R) : linear inputs weight' bias' biased x i' = linear inputs weight bias biased x i := by
  unfold linear
  simp only [hweight]
  split_ifs with hbiased
  · rw [hbias hbiased]
  · rfl

/-- **Fewer heads.** Heads that read what the retain heads read make up the same output as all heads with
    the others at zero. -/
theorem attend_retain (f : Functions R T) {size heads groups groups' : ℕ} {q k v q' k' v' : T → ℕ → R}
    {output output' : ℕ → ℕ → R} {removed : List ℕ}
    (hq : ∀ t, ∀ j < (retain heads removed).length, ∀ e < size,
      q' t (j * size + e) = q t ((retain heads removed).getD j 0 * size + e))
    (hk : ∀ t, ∀ j < (retain heads removed).length, ∀ e < size,
      k' t (j / groups' * size + e) = k t ((retain heads removed).getD j 0 / groups * size + e))
    (hv : ∀ t, ∀ j < (retain heads removed).length, ∀ e < size,
      v' t (j / groups' * size + e) = v t ((retain heads removed).getD j 0 / groups * size + e))
    (houtput : ∀ i, ∀ j < (retain heads removed).length, ∀ e < size,
      output' i (j * size + e) = output i ((retain heads removed).getD j 0 * size + e)) :
    attend f size (retain heads removed).length groups' q' k' v' output' [] =
      attend f size heads groups q k v output removed := by
  funext t i
  have hzero : ∀ h, ((List.finRange size).map fun e : Fin size => output i (h * size + e) *
      if h ∈ removed then 0
      else f.head size (fun t e => q t (h * size + e)) (fun t e => k t (h / groups * size + e))
        (fun t e => v t (h / groups * size + e)) t e).sum =
      if h ∈ removed then 0
      else ((List.finRange size).map fun e : Fin size => output i (h * size + e) *
        f.head size (fun t e => q t (h * size + e)) (fun t e => k t (h / groups * size + e))
          (fun t e => v t (h / groups * size + e)) t e).sum := by
    intro h
    split_ifs
    · simp
    · rfl
  unfold attend
  simp only [hzero]
  rw [← sum_retain heads removed fun h => ((List.finRange size).map fun e : Fin size =>
    output i (h * size + e) * f.head size (fun t e => q t (h * size + e)) (fun t e =>
    k t (h / groups * size + e))
      (fun t e => v t (h / groups * size + e)) t e).sum]
  refine congrArg List.sum (List.map_congr_left fun j hj => ?_)
  have hj := List.mem_range.1 hj
  have hqs : (fun t (e : Fin size) => q' t (j * size + e)) =
      fun t (e : Fin size) => q t ((retain heads removed).getD j 0 * size + e) :=
    funext₂ fun t e => hq t j hj e e.isLt
  have hks : (fun t (e : Fin size) => k' t (j / groups' * size + e)) =
      fun t (e : Fin size) => k t ((retain heads removed).getD j 0 / groups * size + e) :=
    funext₂ fun t e => hk t j hj e e.isLt
  have hvs : (fun t (e : Fin size) => v' t (j / groups' * size + e)) =
      fun t (e : Fin size) => v t ((retain heads removed).getD j 0 / groups * size + e) :=
    funext₂ fun t e => hv t j hj e e.isLt
  refine congrArg List.sum (List.map_congr_left fun e _ => ?_)
  rw [if_neg List.not_mem_nil, hqs, hks, hvs, houtput i j hj e e.isLt]

/-- **Fewer channels.** -/
theorem gated_retain (f : Functions R T) {channels : ℕ} {removed : List ℕ} {gate up gate' up' : ℕ → R}
    {down down' bias bias' : List ℕ → R} {biased : Bool}
    (hgate : ∀ j, gate' j = gate ((retain channels removed).getD j 0))
    (hup : ∀ j, up' j = up ((retain channels removed).getD j 0))
    (hdown : ∀ i j, down' [i, j] = down [i, (retain channels removed).getD j 0])
    (hbias : ∀ i, biased = true → bias' [i] = bias [i]) :
    linear (retain channels removed).length down' bias' biased (gated f [] gate' up') =
      linear channels down bias biased (gated f removed gate up) := by
  funext i
  have hzero : ∀ c, down [i, c] * gated f removed gate up c =
      if c ∈ removed then 0 else down [i, c] * (f.activation (gate c) * up c) := by
    intro c
    rw [gated]
    split_ifs
    · exact mul_zero _
    · rfl
  unfold linear
  simp only [hzero]
  rw [← sum_retain channels removed fun c => down [i, c] * (f.activation (gate c) * up c)]
  congr 1
  · refine congrArg List.sum (List.map_congr_left fun j _ => ?_)
    rw [gated, if_neg List.not_mem_nil, hdown, hgate, hup]
  · split_ifs with hbiased
    · exact hbias i hbiased
    · rfl

/-! ## The tensors of an export by name -/

theorem entries_of_mem {state : StateDict R} (hnodup : (state.map (·.1)).Nodup) {kv : String × Tensor R}
    (hkv : kv ∈ state) : entries state kv.1 = kv.2.entry := by
  rw [entries, Grouping.get_of_mem hnodup hkv]

namespace Call

variable (c : Call R)

/-- The other tensors are the base's. -/
theorem entries_exported_other {name : String} {shape : List ℕ}
    (h : (name, shape) ∈ otherShapes c.base.config) :
    entries c.exported.state name = entries c.base.state name := by
  have hname : Names.startsWith "model.layers." name = false := startsWith_otherShapes h
  obtain ⟨kv, hkv, heq⟩ := List.mem_map.1 (c.base.fits.mem_iff.2 ((mem_shapes_other hname).2 h))
  rw [Prod.mk.injEq] at heq
  have hexported : kv ∈ c.exported.state :=
    c.mem_exported.2 (.inl (List.mem_filter.2 ⟨hkv, by rw [heq.1, hname]; rfl⟩))
  obtain ⟨rfl, -⟩ := heq
  rw [entries_of_mem c.nodup_exported hexported, entries_of_mem (nodup_state c.base) hkv]

/-- A tensor of a layer is the slice of the base's. -/
theorem entries_exported_layer {oldIndex newIndex : ℕ}
    (hlayer : c.retainedLayers[newIndex]? = some oldIndex) {name : String}
    (h : name ∈ (layerShapes c.base.config).map (·.1)) : ∃ t :
    Tensor R, entries c.base.state (layerPrefix oldIndex ++ name) = t.entry ∧
      entries c.exported.state (layerPrefix newIndex ++ name) = ((c.cut oldIndex).sliced name t).entry := by
  have hindex := c.lt_of_mem_retainedLayers (List.mem_of_getElem? hlayer)
  obtain ⟨s, hs, rfl⟩ := List.mem_map.1 h
  obtain ⟨t, ht, -⟩ := exists_mem_layerTensors hindex hs
  refine ⟨t, entries_of_mem (nodup_state c.base) (mem_layerTensors.1 ht), ?_⟩
  exact entries_of_mem c.nodup_exported
    (c.mem_exported.2 (.inr ⟨oldIndex, newIndex, hlayer, List.mem_map.2 ⟨_, ht, rfl⟩⟩))

end Call

/-! ## Slices by entry

An entry of a sliced tensor is an entry of the whole one. The rows of queries, keys and values are
renumbered by heads. Where heads are removed, each that stays gets the keys and values of its group
for itself. -/

/-- The row of the queries that a row of a slice is. -/
def Cut.queryRow (cut : Cut) (i : ℕ) : ℕ := if cut.attention then cut.q.getD i 0 else i

/-- The row of the keys and values that a row of a slice is. -/
def Cut.keyRow (cut : Cut) (i : ℕ) : ℕ := if cut.attention then cut.kv.getD i 0 else i

section Entries

omit [NonUnitalNonAssocSemiring R]

variable (cut : Cut) (t : Tensor R) (i j : ℕ) (is : List ℕ)

theorem entry_query {name : String} (h : name ∈ ["self_attn.q_proj.weight", "self_attn.q_proj.bias"]) :
    (cut.sliced name t).entry (i :: is) = t.entry (cut.queryRow i :: is) := by
  simp only [List.mem_cons, List.not_mem_nil, or_false] at h
  cases hattention : cut.attention <;> rcases h with rfl | rfl <;>
    simp [Cut.sliced, Cut.queryRow, Tensor.rows, hattention]

theorem entry_key {name : String} (h : name ∈ ["self_attn.k_proj.weight", "self_attn.v_proj.weight",
    "self_attn.k_proj.bias", "self_attn.v_proj.bias"]) :
    (cut.sliced name t).entry (i :: is) = t.entry (cut.keyRow i :: is) := by
  simp only [List.mem_cons, List.not_mem_nil, or_false] at h
  cases hattention : cut.attention <;> rcases h with rfl | rfl | rfl | rfl <;>
    simp [Cut.sliced, Cut.keyRow, Tensor.rows, hattention]

theorem entry_output :
    (cut.sliced "self_attn.o_proj.weight" t).entry (i :: j :: is) =
    t.entry (i :: cut.queryRow j :: is) := by
  cases hattention : cut.attention <;> simp [Cut.sliced, Cut.queryRow, Tensor.columns, hattention]

theorem entry_channel {name : String} (h : name ∈ ["mlp.gate_proj.weight", "mlp.up_proj.weight"]) :
    (cut.sliced name t).entry (i :: is) = t.entry (cut.channels.getD i 0 :: is) := by
  simp only [List.mem_cons, List.not_mem_nil, or_false] at h
  rcases h with rfl | rfl <;> simp [Cut.sliced, Tensor.rows]

theorem entry_down :
    (cut.sliced "mlp.down_proj.weight" t).entry (i :: j :: is) =
    t.entry (i :: cut.channels.getD j 0 :: is) := by
  simp [Cut.sliced, Tensor.columns]

theorem sliced_whole {name : String} (h : name ∈ ["self_attn.o_proj.bias", "input_layernorm.weight",
    "post_attention_layernorm.weight"]) : cut.sliced name t = t := by
  simp only [List.mem_cons, List.not_mem_nil, or_false] at h
  rcases h with rfl | rfl | rfl <;> simp [Cut.sliced]

end Entries

namespace Call

variable (c : Call R)

section Rows

omit [NonUnitalNonAssocSemiring R]

variable {index : ℕ}

/-- Where no head is removed all are retained. -/
theorem retainedHeads_of_uncut (h : (c.cut index).attention = false) :
    c.retainedHeads index = List.range c.base.config.numAttentionHeads := by
  have hlength : ¬ (c.retainedHeads index).length ≠ c.base.config.numAttentionHeads := of_decide_eq_false h
  refine List.filter_sublist.eq_of_length ?_
  rw [List.length_range]
  exact not_not.1 hlength

theorem queryRow_eq {j e : ℕ} (hj : j < (c.retainedHeads index).length) (he : e < c.base.config.headSize) :
    (c.cut index).queryRow (j * c.base.config.headSize + e) =
      (c.retainedHeads index).getD j 0 * c.base.config.headSize + e := by
  rw [Cut.queryRow]
  split_ifs with hattention
  · rw [c.cut_q, getD_blocks hj he]
  · have hall := c.retainedHeads_of_uncut (Bool.not_eq_true _ ▸ hattention)
    rw [hall, List.length_range] at hj
    rw [hall, List.getD_eq_getElem _ _ (by rwa [List.length_range]), List.getElem_range]

/-- The heads of an export read the keys of the heads that they were. -/
theorem keyRow_eq (h : index < c.base.config.numHiddenLayers) {j e : ℕ}
    (hj : j < (c.retainedHeads index).length) (he : e < c.base.config.headSize) :
    (c.cut index).keyRow (j / (c.exportedConfig.numAttentionHeads / c.exportedConfig.numKeyValueHeads) *
        c.base.config.headSize + e) =
      (c.retainedHeads index).getD j 0 /
        (c.base.config.numAttentionHeads / c.base.config.numKeyValueHeads) * c.base.config.headSize +
        e := by
  rw [Cut.keyRow]
  split_ifs with hattention
  · -- the keys of each retained head are exported for it, so every head has a group of its own
    have hcut : c.newHeads ≠ c.base.config.numAttentionHeads :=
      c.length_retainedHeads h ▸ of_decide_eq_true hattention
    have hkeys : c.exportedConfig.numKeyValueHeads = c.exportedConfig.numAttentionHeads := if_pos hcut
    have hpos : 0 < c.exportedConfig.numAttentionHeads :=
      Nat.zero_lt_of_lt (c.length_retainedHeads h ▸ hj)
    rw [hkeys, Nat.div_self hpos, Nat.div_one, c.cut_kv, getD_blocks (by rwa [List.length_map]) he,
      List.getD_eq_getElem _ _ (by rwa [List.length_map]), List.getElem_map, List.getD_eq_getElem _ _ hj]
  · have hattention := Bool.not_eq_true _ ▸ hattention
    have hall := c.retainedHeads_of_uncut hattention
    have huncut : c.newHeads = c.base.config.numAttentionHeads :=
      c.length_retainedHeads h ▸ not_not.1 (of_decide_eq_false hattention)
    have hheads : c.exportedConfig.numAttentionHeads = c.base.config.numAttentionHeads := huncut
    have hkeys : c.exportedConfig.numKeyValueHeads = c.base.config.numKeyValueHeads :=
      if_neg (not_not.2 huncut)
    rw [hall, List.length_range] at hj
    rw [hheads, hkeys, hall, List.getD_eq_getElem _ _ (by rwa [List.length_range]), List.getElem_range]

end Rows

/-! ### The parts of a layer

Each part of an exported layer is related to the masked part of the base. The norms see the same
input in both, since the width of the model is not pruned. -/

section Layer

variable {c} {oldIndex newIndex : ℕ} (hlayer : c.retainedLayers[newIndex]? = some oldIndex)

include hlayer

/-- A linear map of the export whose rows are cut computes the outputs that its rows had. -/
theorem linear_exported {weight bias : String} {biased : Bool} {row : ℕ → ℕ}
    (hweight : weight ∈ (layerShapes c.base.config).map (·.1))
    (hrow : ∀ (t : Tensor R) i is, ((c.cut oldIndex).sliced weight t).entry (i :: is) =
      t.entry (row i :: is))
    (hbias : biased = true → bias ∈ (layerShapes c.base.config).map (·.1) ∧
      ∀ (t : Tensor R) i is, ((c.cut oldIndex).sliced bias t).entry (i :: is) = t.entry (row i :: is))
    (x : ℕ → R) (i : ℕ) :
    linear c.base.config.hiddenSize (entries c.exported.state (layerPrefix newIndex ++ weight))
        (entries c.exported.state (layerPrefix newIndex ++ bias)) biased x i =
      linear c.base.config.hiddenSize (entries c.base.state (layerPrefix oldIndex ++ weight))
        (entries c.base.state (layerPrefix oldIndex ++ bias)) biased x (row i) := by
  refine linear_rows (fun j => ?_) (fun hbiased => ?_) x
  · obtain ⟨t, hbase, hexported⟩ := c.entries_exported_layer hlayer hweight
    rw [hbase, hexported, hrow]
  · obtain ⟨hname, hbiasRow⟩ := hbias hbiased
    obtain ⟨t, hbase, hexported⟩ := c.entries_exported_layer hlayer hname
    rw [hbase, hexported, hbiasRow]

/-- What is not cut is the base's. -/
theorem entries_whole {name : String} (hname : name ∈ (layerShapes c.base.config).map (·.1))
    (hwhole : name ∈ ["self_attn.o_proj.bias", "input_layernorm.weight",
      "post_attention_layernorm.weight"]) :
    entries c.exported.state (layerPrefix newIndex ++ name) =
      entries c.base.state (layerPrefix oldIndex ++ name) := by
  obtain ⟨t, hbase, hexported⟩ := c.entries_exported_layer hlayer hname
  rw [hbase, hexported, sliced_whole _ _ hwhole]

/-- **The attention of an exported layer.** -/
theorem attention_exported (f : Functions R T) (x : T → ℕ → R) :
    attention f c.exportedConfig c.exported.state (layerPrefix newIndex) [] x =
      attention f c.base.config c.base.state (layerPrefix oldIndex) (c.removedHeads oldIndex) x := by
  have hindex := c.lt_of_mem_retainedLayers (List.mem_of_getElem? hlayer)
  have hheads : c.exportedConfig.numAttentionHeads = (c.retainedHeads oldIndex).length :=
    (c.length_retainedHeads hindex).symm
  have hkey := fun {j e} => c.keyRow_eq (j := j) (e := e) hindex
  rw [hheads] at hkey
  have hbiased : ∀ name ∈ ["self_attn.q_proj.bias", "self_attn.k_proj.bias", "self_attn.v_proj.bias",
      "self_attn.o_proj.bias"], c.base.config.attentionBias = true →
      name ∈ (layerShapes c.base.config).map (·.1) := by
    intro name hname hflag
    simp only [List.mem_cons, List.not_mem_nil, or_false] at hname
    rcases hname with rfl | rfl | rfl | rfl <;> simp [layerShapes, hflag]
  funext t i
  dsimp only [attention]
  rw [hheads, headSize_exportedConfig]
  congr 1
  · refine congrFun₂ (attend_retain f ?_ ?_ ?_ ?_) t i
    · intro t j hj e he
      exact (linear_exported hlayer (by simp [layerShapes]) (fun t i is => entry_query _ t i is (by simp))
        (fun hset => ⟨hbiased _ (by simp) hset, fun t i is => entry_query _ t i is (by simp)⟩) _ _).trans
        (congrArg (linear _ _ _ _ _) (c.queryRow_eq hj he))
    · intro t j hj e he
      exact (linear_exported hlayer (by simp [layerShapes]) (fun t i is => entry_key _ t i is (by simp))
        (fun hset => ⟨hbiased _ (by simp) hset, fun t i is => entry_key _ t i is (by simp)⟩) _ _).trans
        (congrArg (linear _ _ _ _ _) (hkey hj he))
    · intro t j hj e he
      exact (linear_exported hlayer (by simp [layerShapes]) (fun t i is => entry_key _ t i is (by simp))
        (fun hset => ⟨hbiased _ (by simp) hset, fun t i is => entry_key _ t i is (by simp)⟩) _ _).trans
        (congrArg (linear _ _ _ _ _) (hkey hj he))
    · intro i j hj e he
      obtain ⟨t, hbase, hexported⟩ := c.entries_exported_layer hlayer
        (show "self_attn.o_proj.weight" ∈ _ by simp [layerShapes])
      rw [hbase, hexported, entry_output]
      exact congrArg (fun row => t.entry [i, row]) (c.queryRow_eq hj he)
  · have hflag : c.exportedConfig.attentionBias = c.base.config.attentionBias := rfl
    rw [hflag]
    split_ifs with hset
    · rw [entries_whole hlayer (hbiased _ (by simp) hset) (by simp)]
    · rfl

/-- **The MLP of an exported layer**, without biases. -/
theorem mlp_exported (hbias : c.base.config.mlpBias = false) (f : Functions R T) (x : ℕ → R) :
    mlp f c.exportedConfig c.exported.state (layerPrefix newIndex) [] x =
      mlp f c.base.config c.base.state (layerPrefix oldIndex) (c.removedChannels oldIndex) x := by
  have hindex := c.lt_of_mem_retainedLayers (List.mem_of_getElem? hlayer)
  have hchannels : c.exportedConfig.intermediateSize = (c.retainedChannels oldIndex).length :=
    (c.length_retainedChannels hindex).symm
  have hflag : c.exportedConfig.mlpBias = false := hbias
  have hunbiased : ∀ {P : Prop}, false = true → P := fun h => absurd h Bool.false_ne_true
  dsimp only [mlp]
  rw [hchannels, hflag, hbias]
  refine gated_retain f (fun j => ?_) (fun j => ?_) (fun i j => ?_) nofun
  · exact linear_exported hlayer (by simp [layerShapes]) (fun t i is => entry_channel _ t i is (by simp))
      hunbiased x j
  · exact linear_exported hlayer (by simp [layerShapes]) (fun t i is => entry_channel _ t i is (by simp))
      hunbiased x j
  · obtain ⟨t, hbase, hexported⟩ := c.entries_exported_layer hlayer
      (show "mlp.down_proj.weight" ∈ _ by simp [layerShapes])
    rw [hbase, hexported, entry_down]
    rfl

/-- **An exported layer** computes what the layer of the base computes with its removed heads and channels
    at zero. -/
theorem layer_exported (hbias : c.base.config.mlpBias = false) (f : Functions R T) (x : T → ℕ → R) :
    layer f c.exportedConfig c.exported.state (layerPrefix newIndex) [] [] x =
      layer f c.base.config c.base.state (layerPrefix oldIndex) (c.removedHeads oldIndex)
        (c.removedChannels oldIndex) x := by
  dsimp only [layer]
  rw [entries_whole hlayer (show "input_layernorm.weight" ∈ _ by simp [layerShapes]) (by simp),
    entries_whole hlayer (show "post_attention_layernorm.weight" ∈ _ by simp [layerShapes]) (by simp),
    attention_exported hlayer]
  simp only [mlp_exported hlayer hbias]

end Layer

/-- The layers of an export, one after the other, are those of the base but the removed. -/
theorem foldl_layers (hbias : c.base.config.mlpBias = false) (f : Functions R T) (x : T → ℕ → R) :
    (List.range c.exportedConfig.numHiddenLayers).foldl
      (fun x index => layer f c.exportedConfig c.exported.state (layerPrefix index) [] [] x) x =
    (List.range c.base.config.numHiddenLayers).foldl
      (fun x index =>
        if index ∈ c.removedLayers then x
        else layer f c.base.config c.base.state (layerPrefix index) (c.removedHeads index)
          (c.removedChannels index) x) x := by
  have hread : ∀ x : T → ℕ → R, (List.range c.retainedLayers.length).foldl
      (fun x index => layer f c.exportedConfig c.exported.state (layerPrefix index) [] [] x) x =
      (List.range c.retainedLayers.length).foldl
        (fun x index => layer f c.base.config c.base.state (layerPrefix (c.retainedLayers.getD index 0))
          (c.removedHeads (c.retainedLayers.getD index 0)) (c.removedChannels
            (c.retainedLayers.getD index 0)) x)
        x := by
    refine fun x => List.foldl_ext _ _ x fun x index hindex => ?_
    have hlt := List.mem_range.1 hindex
    have hlayer : c.retainedLayers[index]? = some (c.retainedLayers.getD index 0) := by
      rw [List.getElem?_eq_getElem hlt, List.getD_eq_getElem _ _ hlt]
    exact layer_exported hlayer hbias f x
  have hskip : ∀ x : T → ℕ → R, c.retainedLayers.foldl
      (fun x index => layer f c.base.config c.base.state (layerPrefix index) (c.removedHeads index)
        (c.removedChannels index) x) x =
      (List.range c.base.config.numHiddenLayers).foldl
        (fun x index =>
          if index ∈ c.removedLayers then x
          else layer f c.base.config c.base.state (layerPrefix index) (c.removedHeads index)
            (c.removedChannels index) x) x := by
    intro x
    rw [retainedLayers, retain, List.foldl_filter]
    refine List.foldl_ext _ _ x fun x index _ => ?_
    by_cases h : index ∈ c.removedLayers <;> simp [h]
  rw [← hskip]
  conv_rhs => rw [← map_getD_range c.retainedLayers, List.foldl_map]
  exact hread x

/-- The export computes what the base computes with what was removed at zero. -/
theorem forward_eq (hbias : c.base.config.mlpBias = false) (f : Functions R T) (tokens : T → ℕ) :
    forward f c.exportedConfig c.exported.state [] tokens =
      forward f c.base.config c.base.state c.removed tokens := by
  have hembedding := c.entries_exported_other
    (show ("model.embed_tokens.weight", _) ∈ otherShapes c.base.config from List.mem_cons_self)
  have hnorm := c.entries_exported_other
    (show ("model.norm.weight", _) ∈ otherShapes c.base.config from
      List.mem_cons_of_mem _ List.mem_cons_self)
  have hhead := c.entries_exported_other
    (show ("lm_head.weight", _) ∈ otherShapes c.base.config from
      List.mem_cons_of_mem _ (List.mem_cons_of_mem _ List.mem_cons_self))
  have hmasked : ∀ x : T → ℕ → R, (List.range c.base.config.numHiddenLayers).foldl
      (fun x index =>
        if index ∈ Grouping.get [] c.removed "layers" then x
        else layer f c.base.config c.base.state (layerPrefix index)
          (Grouping.get [] c.removed ("attention_heads." ++ toString index))
          (Grouping.get [] c.removed ("mlp_channels." ++ toString index)) x) x =
      (List.range c.exportedConfig.numHiddenLayers).foldl
        (fun x index => layer f c.exportedConfig c.exported.state (layerPrefix index) [] [] x) x := by
    intro x
    rw [c.foldl_layers hbias, c.get_removed_layers]
    refine List.foldl_ext _ _ x fun x index hindex => ?_
    split_ifs with hremoved
    · rfl
    · have hretained : index ∈ c.retainedLayers := mem_retain.2 ⟨List.mem_range.1 hindex, hremoved⟩
      rw [c.get_removed_heads hretained, c.get_removed_channels hretained]
  dsimp only [forward]
  rw [hembedding, hnorm, hhead, hmasked]
  rfl

end Call

/-- **Pruned attention is masked attention.** What `prune` exports computes, for every input, what the
    base computes with the removed layers skipped and the removed heads and channels at zero. -/
theorem forward_prune (c : Call R) (hbias : c.base.config.mlpBias = false) {e : Export R}
    (h : c.prune = .ok e) (f : Functions R T) (tokens : T → ℕ) :
    forward f e.config e.state [] tokens = forward f c.base.config c.base.state e.removed tokens := by
  rcases c.prune_cases with ⟨-, hprune⟩ | hprune | ⟨-, hprune⟩
  · rw [hprune] at h
    cases h
  · rw [hprune] at h
    cases h
  · obtain rfl : c.exported = e := Except.ok.inj (hprune.symm.trans h)
    exact c.forward_eq hbias f tokens

/-! ## A base with grouped heads -/

/-- A model of one layer whose heads share keys and values in groups. -/
def groupedConfig : LlamaConfig where
  numHiddenLayers := 1
  hiddenSize := 8
  intermediateSize := 4
  numKeyValueHeads := 2
  attentionBias := true

/-- Its tensors. -/
def groupedBase : Base ℤ where
  config := groupedConfig
  state := (shapes groupedConfig).map fun s => (s.1, ⟨s.2, fun is => is.sum⟩)
  fits := by
    rw [List.map_map]
    exact .of_eq (List.map_id _)
  headDim_ne := nofun

/-- Half of the heads and of the channels is pruned. -/
def groupedCall : Call ℤ where
  base := groupedBase
  plan := { structures := ["attention_heads", "mlp_channels"], maximumFraction := 1 / 2 }
  round := id
  rankings name := if name = "layers" then some [0] else some [3, 0, 2, 1]
  accepted := by decide
  layers := ⟨[0], by decide, by decide⟩
  heads i hi := by
    obtain rfl : i = 0 := Nat.lt_one_iff.1 hi
    exact ⟨[3, 0, 2, 1], by decide, by decide⟩
  channels i hi := by
    obtain rfl : i = 0 := Nat.lt_one_iff.1 hi
    exact ⟨[3, 0, 2, 1], by decide, by decide⟩

/-- Heads that multiply. -/
def productHeads : Functions ℤ (Fin 2) where
  norm weight x i := weight i * x i
  activation r := r
  head _ q k v t e := q t e * k t e + v 0 e

theorem groupedCall_masked : ∃ e, groupedCall.prune = .ok e ∧
    forward productHeads e.config e.state [] Fin.val =
      forward productHeads groupedBase.config groupedBase.state e.removed Fin.val := by
  have hchannels : groupedCall.plan.removable groupedCall.round groupedCall.base.config.intermediateSize
      "mlp_channels" ≠ 0 := by
    norm_num [PruningPlan.removable, groupedCall, groupedBase, groupedConfig]
  have hprune := groupedCall.prune_eq_ok rfl hchannels
  exact ⟨_, hprune, forward_prune groupedCall rfl hprune productHeads Fin.val⟩

end Pruning

end AdaptiveLlm
