import AdaptiveLlm.Research.Exports

set_option autoImplicit false

/-! # The shapes of an export

Which of the tensors that `prune` exports have the shapes that the exported configuration prescribes. The
biases of `gate_proj` and `up_proj` are not cut with their channels.

The loader of the library gives every tensor the shape that the configuration prescribes, and
refuses others. Each tensor of an export is followed to its slice: which of its dimensions is cut,
and to how many heads or channels. The two biases of the feed-forward part are one-dimensional and
belong to no cut, so they are too long exactly when channels were removed. -/

namespace AdaptiveLlm

namespace Pruning

open Selection

variable {R : Type}

/-- A configuration that a cut leads to. -/
structure Cut.Leads (cut : Cut) (config config' : LlamaConfig) : Prop where
  hidden : config'.hiddenSize = config.hiddenSize
  headSize : config'.headSize = config.headSize
  attentionBias : config'.attentionBias = config.attentionBias
  mlpBias : config'.mlpBias = config.mlpBias
  attended : cut.attention = true → cut.q.length = config'.numAttentionHeads * config.headSize ∧
    cut.kv.length = config'.numKeyValueHeads * config.headSize
  unattended : cut.attention = false → config'.numAttentionHeads = config.numAttentionHeads ∧
    config'.numKeyValueHeads = config.numKeyValueHeads
  channels : cut.channels.length = config'.intermediateSize

/-- The biases that `prune` does not cut. -/
def uncutBiases : List String := ["mlp.gate_proj.bias", "mlp.up_proj.bias"]

/-- **A slice has the shape** that the configuration behind the cut prescribes. -/
theorem Cut.Leads.sliced {cut : Cut} {config config' : LlamaConfig} (h : cut.Leads config config')
    {name : String} {value : Tensor R} (hvalue : (name, value.shape) ∈ layerShapes config)
    (hbias : name ∉ uncutBiases ∨ config'.intermediateSize = config.intermediateSize) :
    (name, (cut.sliced name value).shape) ∈ layerShapes config' := by
  obtain ⟨hhidden, hsize, hattentionBias, hmlpBias, hcut, huncut, hchannels⟩ := h
  generalize hshape : value.shape = shape at hvalue
  simp only [layerShapes, List.mem_append, List.mem_ite_nil_right, List.mem_cons,
    List.not_mem_nil, or_false, Prod.mk.injEq] at hvalue
  rcases hvalue with (((hvalue | ⟨hflag, hvalue⟩) | hvalue) | ⟨hflag, hvalue⟩) | hvalue
  · cases hattention : cut.attention with
    | true =>
      obtain ⟨hq, hkv⟩ := hcut hattention
      rcases hvalue with ⟨rfl, rfl⟩ | ⟨rfl, rfl⟩ | ⟨rfl, rfl⟩ | ⟨rfl, rfl⟩ <;>
        simp [Cut.sliced, Tensor.rows, Tensor.columns, hattention, hshape, layerShapes,
          hhidden, hsize, hq, hkv]
    | false =>
      obtain ⟨hheads, hkeys⟩ := huncut hattention
      rcases hvalue with ⟨rfl, rfl⟩ | ⟨rfl, rfl⟩ | ⟨rfl, rfl⟩ | ⟨rfl, rfl⟩ <;>
        simp [Cut.sliced, hattention, hshape, layerShapes, hhidden, hsize, hheads, hkeys]
  · cases hattention : cut.attention with
    | true =>
      obtain ⟨hq, hkv⟩ := hcut hattention
      rcases hvalue with ⟨rfl, rfl⟩ | ⟨rfl, rfl⟩ | ⟨rfl, rfl⟩ | ⟨rfl, rfl⟩ <;>
        simp [Cut.sliced, Tensor.rows, hattention, hshape, layerShapes, hattentionBias,
          hflag, hhidden, hsize, hq, hkv]
    | false =>
      obtain ⟨hheads, hkeys⟩ := huncut hattention
      rcases hvalue with ⟨rfl, rfl⟩ | ⟨rfl, rfl⟩ | ⟨rfl, rfl⟩ | ⟨rfl, rfl⟩ <;>
        simp [Cut.sliced, hattention, hshape, layerShapes, hattentionBias, hflag, hhidden, hsize, hheads,
          hkeys]
  · rcases hvalue with ⟨rfl, rfl⟩ | ⟨rfl, rfl⟩ | ⟨rfl, rfl⟩ <;>
      simp [Cut.sliced, Tensor.rows, Tensor.columns, hshape, layerShapes, hhidden, hchannels]
  · rcases hvalue with ⟨rfl, rfl⟩ | ⟨rfl, rfl⟩ | ⟨rfl, rfl⟩
    · have hsame := hbias.resolve_left (by simp [uncutBiases])
      simp [Cut.sliced, hshape, layerShapes, hmlpBias, hflag, hsame]
    · have hsame := hbias.resolve_left (by simp [uncutBiases])
      simp [Cut.sliced, hshape, layerShapes, hmlpBias, hflag, hsame]
    · simp [Cut.sliced, hshape, layerShapes, hmlpBias, hflag, hhidden]
  · rcases hvalue with ⟨rfl, rfl⟩ | ⟨rfl, rfl⟩ <;>
      simp [Cut.sliced, hshape, layerShapes, hhidden]

/-- Without MLP biases there is none that is not cut. -/
theorem notMem_uncutBiases {config : LlamaConfig} (hnone : config.mlpBias = false) {name : String}
    {shape : List ℕ} (h : (name, shape) ∈ layerShapes config) : name ∉ uncutBiases := by
  simp only [layerShapes, hnone, List.mem_append, List.mem_ite_nil_right, List.mem_cons, List.not_mem_nil,
    or_false, Prod.mk.injEq, Bool.false_eq_true, false_and] at h
  rcases h with ((h | ⟨-, h⟩) | h) | h
  · rcases h with ⟨rfl, -⟩ | ⟨rfl, -⟩ | ⟨rfl, -⟩ | ⟨rfl, -⟩ <;> simp [uncutBiases]
  · rcases h with ⟨rfl, -⟩ | ⟨rfl, -⟩ | ⟨rfl, -⟩ | ⟨rfl, -⟩ <;> simp [uncutBiases]
  · rcases h with ⟨rfl, -⟩ | ⟨rfl, -⟩ | ⟨rfl, -⟩ <;> simp [uncutBiases]
  · rcases h with ⟨rfl, -⟩ | ⟨rfl, -⟩ <;> simp [uncutBiases]

namespace Call

variable (c : Call R)

/-- Whether the biases of the MLP and the pruning of channels do not come together. -/
def ChannelsWithoutBiases : Prop :=
  c.base.config.mlpBias = false ∨
    c.plan.removable c.round c.base.config.intermediateSize "mlp_channels" = 0

theorem leads {index : ℕ} (h : index < c.base.config.numHiddenLayers) :
    (c.cut index).Leads c.base.config c.exportedConfig := by
  have hheads := c.length_retainedHeads h
  have hattention : (c.cut index).attention = decide (c.newHeads ≠ c.base.config.numAttentionHeads) := by
    rw [← hheads]
    rfl
  refine ⟨rfl, c.headSize_exportedConfig, rfl, rfl, fun hcut => ?_, fun huncut => ?_,
    c.length_retainedChannels h⟩
  · rw [hattention, decide_eq_true_eq] at hcut
    have hkeys : c.exportedConfig.numKeyValueHeads = c.newHeads := if_pos hcut
    rw [cut_q, cut_kv, length_blocks, length_blocks, List.length_map, hheads, hkeys]
    exact ⟨rfl, rfl⟩
  · rw [hattention, decide_eq_false_iff_not, not_not] at huncut
    exact ⟨huncut, if_neg (not_not.2 huncut)⟩

/-- **The shapes of an export**, but for the biases that are not cut. -/
theorem shape_exported {kv : String × Tensor R} (hkv : kv ∈ c.exported.state)
    (hbias : c.ChannelsWithoutBiases) : (kv.1, kv.2.shape) ∈ shapes c.exportedConfig := by
  rcases c.mem_exported.1 hkv with hkv | ⟨oldIndex, newIndex, hlayer, hkv⟩
  · obtain ⟨hstate, hname⟩ := List.mem_filter.1 hkv
    rw [Bool.not_eq_true'] at hname
    have hother : (kv.1, kv.2.shape) ∈ otherShapes c.base.config :=
      (mem_shapes_other hname).1 (c.base.fits.mem_iff.1 (List.mem_map_of_mem hstate))
    exact (mem_shapes_other hname).2 hother
  · obtain ⟨tv, htv, rfl⟩ := List.mem_map.1 hkv
    obtain ⟨hnew, hold⟩ := List.getElem?_eq_some_iff.1 hlayer
    have hindex := c.lt_of_mem_retainedLayers (hold ▸ List.getElem_mem hnew)
    have hshape := mem_layerShapes_of_mem htv
    refine mem_shapes_layer.2 ⟨hnew, (c.leads hindex).sliced hshape
      (hbias.imp (fun hnone => ?_) fun hkept => ?_)⟩
    · exact notMem_uncutBiases hnone hshape
    · exact congrArg (c.base.config.intermediateSize - ·) hkept

/-- Each tensor of the base is exported under its own name or that of its layer's new index, or its layer
    is removed. -/
theorem exported_or_removed {kv : String × Tensor R} (hkv : kv ∈ c.base.state) :
    kv ∈ c.exported.state ∨ ∃ index name, kv.1 = layerPrefix index ++ name ∧
      (index ∈ c.removedLayers ∨ ∃ newIndex t, c.retainedLayers[newIndex]? = some index ∧
        (layerPrefix newIndex ++ name, t) ∈ c.exported.state) := by
  have hmem := c.base.fits.mem_iff.1 (List.mem_map_of_mem hkv)
  rcases List.mem_append.1 hmem with hother | hlayer
  · refine .inl (c.mem_exported.2 (.inl (List.mem_filter.2 ⟨hkv, ?_⟩)))
    rw [startsWith_otherShapes hother]
    rfl
  · obtain ⟨index, hindex, hs⟩ := List.mem_flatMap.1 hlayer
    obtain ⟨s, -, heq⟩ := List.mem_map.1 hs
    rw [Prod.mk.injEq] at heq
    refine .inr ⟨index, s.1, heq.1.symm, ?_⟩
    by_cases hremoved : index ∈ c.removedLayers
    · exact .inl hremoved
    · obtain ⟨newIndex, hnew⟩ := List.mem_iff_getElem?.1 (mem_retain.2 ⟨List.mem_range.1 hindex, hremoved⟩)
      have htensor : (s.1, kv.2) ∈ layerTensors c.base.state index := by
        rw [mem_layerTensors, heq.1]
        exact hkv
      exact .inr ⟨newIndex, _, hnew, c.mem_exported.2 (.inr ⟨index, newIndex, hnew,
        List.mem_map.2 ⟨_, htensor, rfl⟩⟩)⟩

/-- What `prune` should keep to: no index is out of range; each tensor of an export has the shape that the
    exported configuration prescribes for its name; each tensor of the base is exported or belongs to a
    layer that is removed. -/
structure Conforms : Prop where
  inRange : c.prune ≠ .error .indexError
  shapes : ∀ e, c.prune = .ok e → ∀ kv ∈ e.state, (kv.1, kv.2.shape) ∈ Pruning.shapes e.config
  complete : ∀ e, c.prune = .ok e → ∀ kv ∈ c.base.state,
    kv ∈ e.state ∨ ∃ index name, kv.1 = layerPrefix index ++ name ∧
      (index ∈ Grouping.get [] e.removed "layers" ∨
        ∃ newIndex t,
          (retain c.base.config.numHiddenLayers (Grouping.get [] e.removed "layers"))[newIndex]? =
          some index ∧
          (layerPrefix newIndex ++ name, t) ∈ e.state)

/-- An export with channels removed keeps a bias of the old size. -/
theorem exists_uncut (hbias : c.base.config.mlpBias = true)
    (hchannels : c.plan.removable c.round c.base.config.intermediateSize "mlp_channels" ≠ 0) :
    ∃ kv ∈ c.exported.state, (kv.1, kv.2.shape) ∉ shapes c.exportedConfig := by
  obtain ⟨index, hfirst⟩ := List.exists_mem_of_ne_nil _ c.retainedLayers_ne_nil
  obtain ⟨newIndex, hnew⟩ := List.mem_iff_getElem?.1 hfirst
  have hprescribed : ("mlp.gate_proj.bias", [c.base.config.intermediateSize]) ∈ layerShapes
      c.base.config := by
    simp [layerShapes, hbias]
  obtain ⟨t, ht, hshape⟩ := exists_mem_layerTensors (c.lt_of_mem_retainedLayers hfirst) hprescribed
  refine ⟨_, c.mem_exported.2 (.inr ⟨index, newIndex, hnew, List.mem_map.2 ⟨_, ht, rfl⟩⟩), ?_⟩
  rw [mem_shapes_layer]
  rintro ⟨-, hmem⟩
  have hsliced : (c.cut index).sliced "mlp.gate_proj.bias" t = t := by simp [Cut.sliced]
  rw [hsliced, hshape] at hmem
  have hsize : c.base.config.intermediateSize = c.newChannels := by
    simpa [layerShapes, exportedConfig, hbias] using hmem
  have hlt := c.plan.removable_lt c.round (geometry_eq_ok c.accepted).2.1 "mlp_channels"
  rw [newChannels] at hsize
  omega

/-- **When the tensors match the configuration.** -/
theorem conforms_iff : c.Conforms ↔
    c.plan.rankingRule ≠ "ablation_sensitivity" ∨ c.base.config.mlpBias = false ∨
      c.plan.removable c.round c.base.config.intermediateSize "mlp_channels" = 0 := by
  constructor
  · intro h
    by_contra hfails
    rw [not_or, not_or, not_not, Bool.not_eq_false] at hfails
    obtain ⟨hrule, hbias, hchannels⟩ := hfails
    obtain ⟨kv, hkv, hshape⟩ := c.exists_uncut hbias hchannels
    exact hshape (h.shapes _ (c.prune_eq_ok hrule hchannels) kv hkv)
  · intro h
    rcases c.prune_cases with ⟨-, hprune⟩ | hprune | ⟨hrule, hprune⟩
    · constructor <;> simp [hprune]
    · constructor <;> simp [hprune]
    · have hbias : c.ChannelsWithoutBiases := h.resolve_left (not_not.2 hrule)
      refine ⟨by simp [hprune], fun e he kv hkv => ?_, fun e he kv hkv => ?_⟩
      · obtain rfl : c.exported = e := Except.ok.inj (hprune.symm.trans he)
        exact c.shape_exported hkv hbias
      · obtain rfl : c.exported = e := Except.ok.inj (hprune.symm.trans he)
        have hlayers : Grouping.get [] c.exported.removed "layers" = c.removedLayers := c.get_removed_layers
        rw [hlayers]
        exact c.exported_or_removed hkv

end Call

/-! ## A base with MLP biases -/

/-- A model of one layer whose mlp has biases. -/
def biasedConfig : LlamaConfig where
  numHiddenLayers := 1
  hiddenSize := 8
  intermediateSize := 4
  numKeyValueHeads := 2
  mlpBias := true

/-- Its tensors, all of the right shape. -/
def biasedBase : Base Unit where
  config := biasedConfig
  state := (shapes biasedConfig).map fun s => (s.1, ⟨s.2, fun _ => ()⟩)
  fits := by
    rw [List.map_map]
    exact .of_eq (List.map_id _)
  headDim_ne := nofun

/-- A quarter of the channels is pruned. -/
def biasedCall : Call Unit where
  base := biasedBase
  plan := { structures := ["mlp_channels"] }
  round := id
  rankings name := if name = "layers" then some [0] else some [0, 1, 2, 3]
  accepted := by decide
  layers := ⟨[0], by decide, by decide⟩
  heads i hi := by
    obtain rfl : i = 0 := Nat.lt_one_iff.1 hi
    exact ⟨[0, 1, 2, 3], by decide, by decide⟩
  channels i hi := by
    obtain rfl : i = 0 := Nat.lt_one_iff.1 hi
    exact ⟨[0, 1, 2, 3], by decide, by decide⟩

theorem biasedCall_mismatch : ¬ biasedCall.Conforms := by
  intro h
  have hremovable : biasedCall.plan.removable biasedCall.round biasedCall.base.config.intermediateSize
      "mlp_channels" ≠ 0 := by
    norm_num [PruningPlan.removable, biasedCall, biasedBase, biasedConfig]
  obtain ⟨kv, hkv, hshape⟩ := biasedCall.exists_uncut rfl hremovable
  exact hshape (h.shapes _ (biasedCall.prune_eq_ok rfl hremovable) kv hkv)

end Pruning

end AdaptiveLlm
