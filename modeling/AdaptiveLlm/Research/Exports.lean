import AdaptiveLlm.Lib.Except
import AdaptiveLlm.Research.Tensors

set_option autoImplicit false

/-! # What `prune` exports

No slice of `prune` is out of range, and what it returns is put together layer by layer.

The tensors of a layer are told apart by their names, in the order in which the source tests them.
For each kind of name there is one slice with its bound, which the geometry of the configuration
guarantees. Then the loop over the layers is a map: retained layers are renumbered in order, their
tensors sliced, and all other tensors are kept as they are. -/

namespace AdaptiveLlm

namespace Pruning

open Selection

/-! ## Names

The tensors of a layer carry its index in their names. Layers are renumbered when some are removed,
and as names of different layers are different, each is written once. -/

theorem startsWith_layerPrefix (index : ℕ) (name : String) :
    Names.startsWith (layerPrefix index) (layerPrefix index ++ name) = true :=
  Names.startsWith_append _ _

theorem layerPrefix_inj {i j : ℕ} {name : String}
    (h : Names.startsWith (layerPrefix i) (layerPrefix j ++ name) = true) : i = j :=
  Names.eq_of_startsWith h

theorem startsWith_layers (index : ℕ) (name : String) :
    Names.startsWith "model.layers." (layerPrefix index ++ name) = true := by
  rw [layerPrefix, String.append_assoc, String.append_assoc]
  exact Names.startsWith_append _ _

/-- The other tensors are no layer's. -/
theorem startsWith_otherShapes {config : LlamaConfig} {s : String × List ℕ} (hs : s ∈ otherShapes config) :
    Names.startsWith "model.layers." s.1 = false := by
  have hnames : ∀ name ∈ ["model.embed_tokens.weight", "model.norm.weight", "lm_head.weight"],
      Names.startsWith "model.layers." name = false := by decide
  refine hnames s.1 ?_
  have hmem := List.mem_map_of_mem (f := Prod.fst) hs
  simpa [otherShapes] using hmem

theorem nodup_otherShapes (config : LlamaConfig) : ((otherShapes config).map (·.1)).Nodup := by
  have hnames : (otherShapes config).map (·.1) =
      ["model.embed_tokens.weight", "model.norm.weight", "lm_head.weight"] := rfl
  rw [hnames]
  decide

theorem nodup_layerShapes (config : LlamaConfig) : ((layerShapes config).map (·.1)).Nodup := by
  unfold layerShapes
  cases config.attentionBias <;> cases config.mlpBias <;> simp

/-- Layers with indices of their own and the tensors that are no layer's have distinct names. -/
theorem nodup_layered {L : Type} {others : List String} {layers : List L} {index : L → ℕ}
    {names : L → List String} (hothers : others.Nodup)
    (hstart : ∀ name ∈ others, Names.startsWith "model.layers." name = false)
    (hindex : (layers.map index).Nodup) (hnames : ∀ l ∈ layers, (names l).Nodup) :
    (others ++ layers.flatMap fun l => (names l).map (layerPrefix (index l) ++ ·)).Nodup := by
  refine List.nodup_append.2 ⟨hothers, List.nodup_flatMap.2 ⟨?_, ?_⟩, ?_⟩
  · intro l hl
    exact (hnames l hl).map (Names.append_injective _)
  · refine (List.pairwise_map.1 hindex).imp fun {l l'} hne => ?_
    intro name hl hl'
    obtain ⟨a, -, rfl⟩ := List.mem_map.1 hl
    obtain ⟨b, -, hname⟩ := List.mem_map.1 hl'
    exact hne (layerPrefix_inj (hname ▸ startsWith_layerPrefix (index l) a))
  · intro a ha b hb hab
    obtain ⟨l, -, hb⟩ := List.mem_flatMap.1 hb
    obtain ⟨name, -, rfl⟩ := List.mem_map.1 hb
    have hother := hstart a ha
    rw [hab, startsWith_layers] at hother
    cases hother

/-- The names of the tensors of a model are distinct. -/
theorem nodup_shapes (config : LlamaConfig) : ((shapes config).map (·.1)).Nodup := by
  have hstart : ∀ name ∈ (otherShapes config).map (·.1), Names.startsWith "model.layers." name = false := by
    intro name hname
    obtain ⟨s, hs, rfl⟩ := List.mem_map.1 hname
    exact startsWith_otherShapes hs
  have hindex : ((List.range config.numHiddenLayers).map fun i => i).Nodup := by
    rw [List.map_id']
    exact List.nodup_range
  have hlayers := nodup_layered (nodup_otherShapes config) hstart hindex fun _ _ => nodup_layerShapes config
  simpa only [shapes, List.map_append, List.map_flatMap, List.map_map, Function.comp_def] using hlayers

/-- The names of a model with the prefix of a layer are that layer's. -/
theorem mem_shapes_layer {config : LlamaConfig} {index : ℕ} {name : String} {shape : List ℕ} :
    (layerPrefix index ++ name, shape) ∈ shapes config ↔
      index < config.numHiddenLayers ∧ (name, shape) ∈ layerShapes config := by
  constructor
  · intro h
    rcases List.mem_append.1 h with h | h
    · have hother := startsWith_otherShapes h
      rw [startsWith_layers] at hother
      cases hother
    · obtain ⟨i, hi, h⟩ := List.mem_flatMap.1 h
      obtain ⟨s, hs, heq⟩ := List.mem_map.1 h
      rw [Prod.mk.injEq] at heq
      have hprefix : Names.startsWith (layerPrefix index) (layerPrefix i ++ s.1) = true := by
        rw [heq.1]
        exact startsWith_layerPrefix index name
      have hindex : index = i := layerPrefix_inj hprefix
      subst hindex
      refine ⟨List.mem_range.1 hi, ?_⟩
      rwa [← (String.append_right_inj _).1 heq.1, ← heq.2]
  · rintro ⟨hindex, hmem⟩
    exact List.mem_append_right _
      (List.mem_flatMap.2 ⟨index, List.mem_range.2 hindex, List.mem_map.2 ⟨_, hmem, rfl⟩⟩)

/-- The other names are those of the other tensors. -/
theorem mem_shapes_other {config : LlamaConfig} {name : String} {shape : List ℕ}
    (hname : Names.startsWith "model.layers." name = false) :
    (name, shape) ∈ shapes config ↔ (name, shape) ∈ otherShapes config := by
  rw [shapes, List.mem_append, or_iff_left]
  intro h
  obtain ⟨i, -, h⟩ := List.mem_flatMap.1 h
  obtain ⟨s, -, heq⟩ := List.mem_map.1 h
  rw [Prod.mk.injEq] at heq
  rw [← heq.1, startsWith_layers] at hname
  cases hname

/-! ## The tensors of a layer -/

variable {R : Type} {base : Base R}

theorem nodup_state (base : Base R) : (base.state.map (·.1)).Nodup := by
  have hperm := base.fits.map Prod.fst
  rw [List.map_map] at hperm
  exact hperm.nodup_iff.2 (nodup_shapes base.config)

theorem mem_layerTensors {index : ℕ} {kv : String × Tensor R} :
    kv ∈ layerTensors base.state index ↔ (layerPrefix index ++ kv.1, kv.2) ∈ base.state := by
  constructor
  · intro h
    obtain ⟨kv', hkv', rfl⟩ := List.mem_map.1 h
    obtain ⟨hkv', hprefix⟩ := List.mem_filter.1 hkv'
    rwa [Names.append_behind hprefix]
  · intro h
    refine List.mem_map.2 ⟨_, List.mem_filter.2 ⟨h, startsWith_layerPrefix index kv.1⟩, ?_⟩
    rw [Names.behind_append]

theorem nodup_layerTensors (base : Base R) (index : ℕ) :
    ((layerTensors base.state index).map (·.1)).Nodup := by
  refine List.Nodup.of_map (layerPrefix index ++ ·) ?_
  have hnames : ((layerTensors base.state index).map (·.1)).map (layerPrefix index ++ ·) =
      (base.state.filter fun kv => Names.startsWith (layerPrefix index) kv.1).map (·.1) := by
    rw [layerTensors, List.map_map, List.map_map]
    exact List.map_congr_left fun kv hkv => Names.append_behind (List.mem_filter.1 hkv).2
  rw [hnames]
  exact (nodup_state base).sublist (List.filter_sublist.map _)

/-- The shapes of the tensors of a layer are those that the configuration prescribes. -/
theorem mem_layerShapes_of_mem {index : ℕ} {kv : String × Tensor R}
    (hkv : kv ∈ layerTensors base.state index) : (kv.1, kv.2.shape) ∈ layerShapes base.config :=
  (mem_shapes_layer.1 (base.fits.mem_iff.1 (List.mem_map_of_mem (mem_layerTensors.1 hkv)))).2

/-- Each tensor that the configuration prescribes for a layer is there. -/
theorem exists_mem_layerTensors {index : ℕ} (hindex : index < base.config.numHiddenLayers)
    {s : String × List ℕ} (hs : s ∈ layerShapes base.config) :
    ∃ t, (s.1, t) ∈ layerTensors base.state index ∧ t.shape = s.2 := by
  have hmem : (layerPrefix index ++ s.1, s.2) ∈ shapes base.config := mem_shapes_layer.2 ⟨hindex, hs⟩
  obtain ⟨kv, hkv, heq⟩ := List.mem_map.1 (base.fits.mem_iff.2 hmem)
  rw [Prod.mk.injEq] at heq
  exact ⟨kv.2, mem_layerTensors.2 (heq.1 ▸ hkv), heq.2⟩

/-! ## Slices

The kind of a tensor is told by its name, and each kind is sliced along one dimension, by rows or by
columns. The indices are positions of heads or channels that the base has. -/

/-- What a slice is when it is in range. -/
def Cut.sliced (cut : Cut) (name : String) (value : Tensor R) : Tensor R :=
  if cut.attention && name ∈ ["self_attn.q_proj.weight", "self_attn.q_proj.bias"] then value.rows cut.q
  else if cut.attention && name ∈ ["self_attn.k_proj.weight", "self_attn.v_proj.weight",
      "self_attn.k_proj.bias", "self_attn.v_proj.bias"] then value.rows cut.kv
  else if cut.attention && name = "self_attn.o_proj.weight" then value.columns cut.q
  else if name ∈ ["mlp.gate_proj.weight", "mlp.up_proj.weight"] then value.rows cut.channels
  else if name = "mlp.down_proj.weight" then value.columns cut.channels
  else value

/-- The indices of a cut are those of the tensors of the configuration. -/
structure Cut.InRange (cut : Cut) (config : LlamaConfig) : Prop where
  q : ∀ i ∈ cut.q, i < config.numAttentionHeads * config.headSize
  kv : ∀ i ∈ cut.kv, i < config.numKeyValueHeads * config.headSize
  channels : ∀ i ∈ cut.channels, i < config.intermediateSize

theorem Tensor.selectRows_eq {t : Tensor R} {indices : List ℕ} {n : ℕ} {shape : List ℕ}
    (hshape : t.shape = n :: shape) (hlt : ∀ i ∈ indices, i < n) :
    t.selectRows indices = .ok (t.rows indices) := by
  rw [Tensor.selectRows, hshape]
  exact if_pos (by simpa using hlt)

theorem Tensor.selectColumns_eq {t : Tensor R} {indices : List ℕ} {m n : ℕ} {shape : List ℕ}
    (hshape : t.shape = m :: n :: shape) (hlt : ∀ i ∈ indices, i < n) :
    t.selectColumns indices = .ok (t.columns indices) := by
  rw [Tensor.selectColumns, hshape]
  exact if_pos (by simpa using hlt)

/-- The tensors of a layer by what a cut does with them. -/
inductive Kind (config : LlamaConfig) : String → List ℕ → Prop where
  | query {name : String} (shape : List ℕ) (h : name ∈ ["self_attn.q_proj.weight",
    "self_attn.q_proj.bias"]) : Kind config name (config.numAttentionHeads * config.headSize :: shape)
  | key {name : String} (shape : List ℕ)
    (h : name ∈ ["self_attn.k_proj.weight", "self_attn.v_proj.weight", "self_attn.k_proj.bias",
      "self_attn.v_proj.bias"]) :
    Kind config name (config.numKeyValueHeads * config.headSize :: shape)
  | output : Kind config "self_attn.o_proj.weight"
    [config.hiddenSize, config.numAttentionHeads * config.headSize]
  | channel {name : String} (h : name ∈ ["mlp.gate_proj.weight", "mlp.up_proj.weight"]) :
    Kind config name [config.intermediateSize, config.hiddenSize]
  | down : Kind config "mlp.down_proj.weight" [config.hiddenSize, config.intermediateSize]
  | whole {name : String} (shape : List ℕ)
    (h : name ∈ ["self_attn.o_proj.bias", "mlp.gate_proj.bias", "mlp.up_proj.bias", "mlp.down_proj.bias",
      "input_layernorm.weight", "post_attention_layernorm.weight"]) :
    Kind config name shape

theorem kind_of_mem {config : LlamaConfig} {name : String} {shape : List ℕ}
    (h : (name, shape) ∈ layerShapes config) : Kind config name shape := by
  simp only [layerShapes, List.mem_append, List.mem_ite_nil_right, List.mem_cons,
    List.not_mem_nil, or_false, Prod.mk.injEq] at h
  rcases h with (((h | ⟨-, h⟩) | h) | ⟨-, h⟩) | h
  · rcases h with ⟨rfl, rfl⟩ | ⟨rfl, rfl⟩ | ⟨rfl, rfl⟩ | ⟨rfl, rfl⟩
    · exact .query _ (by simp)
    · exact .key _ (by simp)
    · exact .key _ (by simp)
    · exact .output
  · rcases h with ⟨rfl, rfl⟩ | ⟨rfl, rfl⟩ | ⟨rfl, rfl⟩ | ⟨rfl, rfl⟩
    · exact .query _ (by simp)
    · exact .key _ (by simp)
    · exact .key _ (by simp)
    · exact .whole _ (by simp)
  · rcases h with ⟨rfl, rfl⟩ | ⟨rfl, rfl⟩ | ⟨rfl, rfl⟩
    · exact .channel (by simp)
    · exact .channel (by simp)
    · exact .down
  · rcases h with ⟨rfl, -⟩ | ⟨rfl, -⟩ | ⟨rfl, -⟩ <;> exact .whole _ (by simp)
  · rcases h with ⟨rfl, -⟩ | ⟨rfl, -⟩ <;> exact .whole _ (by simp)

/-- **No slice is out of range.** -/
theorem Cut.slice_eq {cut : Cut} {config : LlamaConfig} (h : cut.InRange config) {name : String}
    {value : Tensor R} (hvalue : (name, value.shape) ∈ layerShapes config) :
    cut.slice name value = .ok (cut.sliced name value) := by
  generalize hshape : value.shape = shape at hvalue
  have hq : ∀ {rest}, value.shape = _ :: rest → _ := fun heq => Tensor.selectRows_eq heq h.q
  have hkv : ∀ {rest}, value.shape = _ :: rest → _ := fun heq => Tensor.selectRows_eq heq h.kv
  have hchannels : ∀ {rest}, value.shape = _ :: rest → _ := fun heq => Tensor.selectRows_eq heq h.channels
  cases kind_of_mem hvalue with
  | query rest hname =>
    simp only [List.mem_cons, List.not_mem_nil, or_false] at hname
    rcases hname with rfl | rfl <;> by_cases hattention : cut.attention = true <;>
      simp [Cut.slice, Cut.sliced, hattention, hq hshape]
  | key rest hname =>
    simp only [List.mem_cons, List.not_mem_nil, or_false] at hname
    rcases hname with rfl | rfl | rfl | rfl <;> by_cases hattention : cut.attention = true <;>
      simp [Cut.slice, Cut.sliced, hattention, hkv hshape]
  | output =>
    by_cases hattention : cut.attention = true <;>
      simp [Cut.slice, Cut.sliced, hattention, Tensor.selectColumns_eq hshape h.q]
  | channel hname =>
    simp only [List.mem_cons, List.not_mem_nil, or_false] at hname
    rcases hname with rfl | rfl <;> by_cases hattention : cut.attention = true <;>
      simp [Cut.slice, Cut.sliced, hattention, hchannels hshape]
  | down =>
    by_cases hattention : cut.attention = true <;>
      simp [Cut.slice, Cut.sliced, hattention, Tensor.selectColumns_eq hshape h.channels]
  | whole _ hname =>
    simp only [List.mem_cons, List.not_mem_nil, or_false] at hname
    rcases hname with rfl | rfl | rfl | rfl | rfl | rfl <;> by_cases hattention : cut.attention = true <;>
      simp [Cut.slice, Cut.sliced, hattention]

/-! ## Rankings

A ranking is a permutation of the positions. What `keep` removes are its first entries, so many as
the plan allows and never all. -/

/-- A ranking orders all indices of a kind. -/
def Ranked (rankings : String → Option (List ℕ)) (name : String) (count : ℕ) : Prop :=
  ∃ ranking, rankings name = some ranking ∧ ranking.Perm (List.range count)

/-- What `keep` removes where the ranking is there. -/
def removedOf (plan : PruningPlan) (round : ℚ → ℚ) (rankings : String → Option (List ℕ)) (name : String)
    (count : ℕ) (kind : String) : List ℕ :=
  (((rankings name).getD []).take (plan.removable round count kind)).insertionSort (· ≤ ·)

theorem PruningPlan.removable_lt (plan : PruningPlan) (round : ℚ → ℚ) {count : ℕ} (hcount : 0 < count)
    (kind : String) : plan.removable round count kind < count := by
  rw [PruningPlan.removable]
  split_ifs <;> omega

section Removed

variable {plan : PruningPlan} {round : ℚ → ℚ} {rankings : String → Option (List ℕ)}
    {name : String} {count : ℕ}

theorem removedIndices_eq (h : Ranked rankings name count) (kind : String) :
    removedIndices plan round rankings name count kind =
      .ok (removedOf plan round rankings name count kind) := by
  obtain ⟨ranking, hranking, -⟩ := h
  rw [removedIndices, removedOf, hranking]
  rfl

theorem nodup_removedOf (h : Ranked rankings name count) (kind : String) :
    (removedOf plan round rankings name count kind).Nodup := by
  obtain ⟨ranking, hranking, hperm⟩ := h
  rw [removedOf, hranking, (List.perm_insertionSort _ _).nodup_iff]
  exact (hperm.nodup_iff.2 List.nodup_range).sublist (List.take_sublist _ _)

theorem lt_of_mem_removedOf (h : Ranked rankings name count) (kind : String) :
    ∀ i ∈ removedOf plan round rankings name count kind, i < count := by
  obtain ⟨ranking, hranking, hperm⟩ := h
  intro i hi
  rw [removedOf, hranking, (List.perm_insertionSort _ _).mem_iff] at hi
  exact List.mem_range.1 (hperm.mem_iff.1 (List.mem_of_mem_take hi))

theorem length_removedOf (h : Ranked rankings name count) (hcount : 0 < count) (kind : String) :
    (removedOf plan round rankings name count kind).length = plan.removable round count kind := by
  obtain ⟨ranking, hranking, hperm⟩ := h
  have hlt := plan.removable_lt round hcount kind
  have hlength := hperm.length_eq
  rw [List.length_range] at hlength
  rw [removedOf, hranking, List.length_insertionSort, Option.getD_some, List.length_take]
  omega

theorem length_retain_removedOf (h : Ranked rankings name count) (hcount : 0 < count) (kind : String) :
    (retain count (removedOf plan round rankings name count kind)).length =
      count - plan.removable round count kind := by
  rw [length_retain (nodup_removedOf h kind) (lt_of_mem_removedOf h kind), length_removedOf h hcount kind]

end Removed

/-! ## Calls

`prune` is followed for any plan and any permutations as rankings. The loop writes the tensors of
the layers that stay, sliced, under their new indices, and the result is given in closed form:
configuration, tensors and what was removed. -/

/-- A call of `prune` on a base that `geometry` accepts, with rankings that are permutations. -/
structure Call (R : Type) where
  base : Base R
  plan : PruningPlan
  round : ℚ → ℚ
  rankings : String → Option (List ℕ)
  accepted : geometry base.config = .ok base.config
  layers : Ranked rankings "layers" base.config.numHiddenLayers
  heads : ∀ i < base.config.numHiddenLayers,
    Ranked rankings ("attention_heads." ++ toString i) base.config.numAttentionHeads
  channels : ∀ i < base.config.numHiddenLayers,
    Ranked rankings ("mlp_channels." ++ toString i) base.config.intermediateSize

/-- What `geometry` has checked. -/
theorem geometry_eq_ok {config : LlamaConfig} (h : geometry config = .ok config) :
    1 ≤ config.numHiddenLayers ∧ 1 ≤ config.intermediateSize ∧ config.numAttentionHeads = 4 ∧
      (config.numKeyValueHeads = 2 ∨ config.numKeyValueHeads = 4) := by
  unfold geometry at h
  split_ifs at h with hrefused
  simp only [not_or, not_not, List.mem_cons, List.not_mem_nil, or_false] at hrefused
  obtain ⟨-, hlayers, -, hchannels, -, hheads, hkeys⟩ := hrefused
  exact ⟨hlayers.1, hchannels.1, hheads, by omega⟩

theorem prunedHeadDim_eq (base : Base R) : base.config.prunedHeadDim = base.config.headSize := by
  have hne := base.headDim_ne
  rw [LlamaConfig.prunedHeadDim, LlamaConfig.headSize]
  match hdim : base.config.headDim with
  | none => rfl
  | some 0 => exact absurd hdim hne
  | some (_ + 1) => rfl

namespace Call

variable (c : Call R)

/-- The export, or the error that `prune` raises. -/
def prune : Except PruneError (Export R) := Pruning.prune c.base c.plan c.round c.rankings

/-- The layers that the plan removes. -/
def removedLayers : List ℕ :=
  removedOf c.plan c.round c.rankings "layers" c.base.config.numHiddenLayers "layers"

/-- The heads of a layer that it removes. -/
def removedHeads (index : ℕ) : List ℕ :=
  removedOf c.plan c.round c.rankings ("attention_heads." ++ toString index)
    c.base.config.numAttentionHeads "attention_heads"

/-- The channels of a layer's mlp that it removes. -/
def removedChannels (index : ℕ) : List ℕ :=
  removedOf c.plan c.round c.rankings ("mlp_channels." ++ toString index)
    c.base.config.intermediateSize "mlp_channels"

/-- The layers that stay, in their order. -/
def retainedLayers : List ℕ := retain c.base.config.numHiddenLayers c.removedLayers

/-- The heads of a layer that stay. -/
def retainedHeads (index : ℕ) : List ℕ := retain c.base.config.numAttentionHeads (c.removedHeads index)

/-- The channels of a layer that stay. -/
def retainedChannels (index : ℕ) : List ℕ := retain c.base.config.intermediateSize (c.removedChannels index)

/-- How many heads a layer retains. -/
def newHeads : ℕ :=
  c.base.config.numAttentionHeads -
    c.plan.removable c.round c.base.config.numAttentionHeads "attention_heads"

/-- How many channels a layer retains. -/
def newChannels : ℕ :=
  c.base.config.intermediateSize - c.plan.removable c.round c.base.config.intermediateSize "mlp_channels"

/-- What is cut out of the tensors of a layer. -/
def cut (index : ℕ) : Cut := c.base.config.cut (c.retainedHeads index) (c.retainedChannels index)

/-- The tensors of a layer, as they are exported. -/
def exportedLayer (oldIndex newIndex : ℕ) : StateDict R :=
  (layerTensors c.base.state oldIndex).map fun kv =>
    (layerPrefix newIndex ++ kv.1, (c.cut oldIndex).sliced kv.1 kv.2)

/-- What the loop notes for a layer. -/
def record (removed : List (String × List ℕ)) (index : ℕ) : List (String × List ℕ) :=
  Grouping.set ("mlp_channels." ++ toString index) (c.removedChannels index)
    (Grouping.set ("attention_heads." ++ toString index) (c.removedHeads index) removed)

/-- All that is removed. -/
def removed : List (String × List ℕ) := c.retainedLayers.foldl c.record [("layers", c.removedLayers)]

/-- The configuration of the export. -/
def exportedConfig : LlamaConfig :=
  { c.base.config with
    numHiddenLayers := c.retainedLayers.length
    numAttentionHeads := c.newHeads
    numKeyValueHeads :=
      if c.newHeads ≠ c.base.config.numAttentionHeads then c.newHeads else c.base.config.numKeyValueHeads
    headDim := some c.base.config.prunedHeadDim
    intermediateSize := c.newChannels }

/-- The tensors that are no layer's. -/
def others : StateDict R := c.base.state.filter fun kv => !Names.startsWith "model.layers." kv.1

/-- The export. -/
def exported : Export R where
  config := c.exportedConfig
  state := c.others ++ c.retainedLayers.zipIdx.flatMap fun layer => c.exportedLayer layer.1 layer.2
  removed := c.removed

theorem lt_of_mem_retainedLayers {index : ℕ} (h : index ∈ c.retainedLayers) :
    index < c.base.config.numHiddenLayers := (mem_retain.1 h).1

theorem length_retainedLayers :
    c.retainedLayers.length =
      c.base.config.numHiddenLayers - c.plan.removable c.round c.base.config.numHiddenLayers "layers" :=
  length_retain_removedOf c.layers (geometry_eq_ok c.accepted).1 "layers"

theorem retainedLayers_ne_nil : c.retainedLayers ≠ [] := by
  have hlt := c.plan.removable_lt c.round (geometry_eq_ok c.accepted).1 "layers"
  rw [← List.length_pos_iff, c.length_retainedLayers]
  omega

theorem length_retainedHeads {index : ℕ} (h : index < c.base.config.numHiddenLayers) :
    (c.retainedHeads index).length = c.newHeads :=
  length_retain_removedOf (c.heads index h) (by have := (geometry_eq_ok c.accepted).2.2.1; omega) _

theorem length_retainedChannels {index : ℕ} (h : index < c.base.config.numHiddenLayers) :
    (c.retainedChannels index).length = c.newChannels :=
  length_retain_removedOf (c.channels index h) (geometry_eq_ok c.accepted).2.1 _

/-- The rows of the keys, block by block. -/
theorem cut_kv (index : ℕ) :
    (c.cut index).kv = blocks c.base.config.headSize ((c.retainedHeads index).map
      (· / (c.base.config.numAttentionHeads / c.base.config.numKeyValueHeads))) := by
  rw [cut, LlamaConfig.cut, prunedHeadDim_eq, blocks, List.flatMap_map]

theorem cut_q (index : ℕ) : (c.cut index).q = blocks c.base.config.headSize (c.retainedHeads index) := by
  rw [cut, LlamaConfig.cut, prunedHeadDim_eq, blocks]

theorem cut_inRange (index : ℕ) : (c.cut index).InRange c.base.config := by
  obtain ⟨-, -, hheads, hkeys⟩ := geometry_eq_ok c.accepted
  refine ⟨fun i hi => ?_, fun i hi => ?_, fun i hi => (mem_retain.1 hi).1⟩
  · rw [cut_q] at hi
    exact lt_of_mem_blocks (fun h hh => (mem_retain.1 hh).1) hi
  · rw [cut_kv] at hi
    refine lt_of_mem_blocks (fun g hg => ?_) hi
    obtain ⟨h, hh, rfl⟩ := List.mem_map.1 hg
    have hlt : h < 4 := hheads ▸ (mem_retain.1 hh).1
    rw [hheads]
    rcases hkeys with hkeys | hkeys
    · rw [hkeys]
      omega
    · rw [hkeys]
      omega

/-- **The body of the loop**, for a layer of the base. -/
theorem pruneLayer_eq (pruned : Pruned R) {oldIndex : ℕ} (h : oldIndex < c.base.config.numHiddenLayers)
    (newIndex : ℕ) :
    pruneLayer c.base c.plan c.round c.rankings pruned oldIndex newIndex =
      .ok { removed := c.record pruned.removed oldIndex
            result := (c.exportedLayer oldIndex newIndex).foldl
              (fun result kv => Grouping.set kv.1 kv.2 result) pruned.result
            newHeads := c.newHeads
            newChannels := c.newChannels } := by
  have hslices : ((layerTensors c.base.state oldIndex).mapM fun kv => do
      let value ← (c.cut oldIndex).slice kv.1 kv.2
      return (layerPrefix newIndex ++ kv.1, value) : Except PruneError (StateDict R)) =
      .ok (c.exportedLayer oldIndex newIndex) := by
    refine Except.mapM_eq_ok_map fun kv hkv => ?_
    rw [Cut.slice_eq (c.cut_inRange oldIndex) (mem_layerShapes_of_mem hkv)]
    rfl
  dsimp only [pruneLayer]
  rw [removedIndices_eq (c.heads oldIndex h), Except.ok_bind, removedIndices_eq (c.channels oldIndex h),
    Except.ok_bind]
  change ((layerTensors c.base.state oldIndex).mapM _ >>= _) = _
  rw [← c.length_retainedHeads h, ← c.length_retainedChannels h]
  exact Except.bind_eq_ok.2 ⟨_, hslices, rfl⟩

/-- The names of an exported layer are new to what has none of its prefix. -/
theorem foldl_set_exportedLayer {oldIndex newIndex : ℕ} {result : StateDict R}
    (hfresh : ∀ kv ∈ result, Names.startsWith (layerPrefix newIndex) kv.1 = false) :
    (c.exportedLayer oldIndex newIndex).foldl (fun result kv => Grouping.set kv.1 kv.2 result) result =
      result ++ c.exportedLayer oldIndex newIndex := by
  have hnodup := (nodup_layerTensors c.base oldIndex).map (Names.append_injective (layerPrefix newIndex))
  rw [Grouping.foldl_set_of_fresh, List.map_id'']
  · exact fun _ => rfl
  · rw [List.map_map] at hnodup
    rwa [exportedLayer, List.map_map]
  · intro kv hkv hmem
    obtain ⟨tv, -, rfl⟩ := List.mem_map.1 hkv
    obtain ⟨kv', hkv', hname⟩ := List.mem_map.1 hmem
    have hprefix := hfresh kv' hkv'
    rw [hname, startsWith_layerPrefix] at hprefix
    cases hprefix

/-- **The loop**, over layers of the base with new indices of their own. -/
theorem foldlM_pruneLayer (layers : List (ℕ × ℕ)) (pruned : Pruned R)
    (hold : ∀ l ∈ layers, l.1 < c.base.config.numHiddenLayers) (hnew : (layers.map (·.2)).Nodup)
    (hfresh : ∀ l ∈ layers, ∀ kv ∈ pruned.result, Names.startsWith (layerPrefix l.2) kv.1 = false) :
    layers.foldlM (fun pruned layer =>
        pruneLayer c.base c.plan c.round c.rankings pruned layer.1 layer.2) pruned =
      .ok { removed := (layers.map (·.1)).foldl c.record pruned.removed
            result := pruned.result ++ layers.flatMap fun l => c.exportedLayer l.1 l.2
            newHeads := if layers = [] then pruned.newHeads else c.newHeads
            newChannels := if layers = [] then pruned.newChannels else c.newChannels } := by
  induction layers generalizing pruned with
  | nil =>
    simp only [List.foldlM_nil, List.map_nil, List.foldl_nil, List.flatMap_nil, List.append_nil, if_true]
    rfl
  | cons layer layers ih =>
    rw [List.map_cons, List.nodup_cons] at hnew
    rw [List.foldlM_cons, c.pruneLayer_eq pruned (hold layer List.mem_cons_self), Except.ok_bind, ih]
    · rw [c.foldl_set_exportedLayer (hfresh layer List.mem_cons_self), List.append_assoc,
        List.flatMap_cons, List.map_cons, List.foldl_cons, if_neg (List.cons_ne_nil _ _),
        if_neg (List.cons_ne_nil _ _), ite_self, ite_self]
    · exact fun l hl => hold l (List.mem_cons_of_mem _ hl)
    · exact hnew.2
    · intro l hl kv hkv
      rw [c.foldl_set_exportedLayer (hfresh layer List.mem_cons_self), List.mem_append] at hkv
      rcases hkv with hkv | hkv
      · exact hfresh l (List.mem_cons_of_mem _ hl) kv hkv
      · obtain ⟨tv, -, rfl⟩ := List.mem_map.1 hkv
        rw [← Bool.not_eq_true]
        intro hprefix
        exact hnew.1 (layerPrefix_inj hprefix ▸ List.mem_map_of_mem hl)

/-- The other tensors have no prefix of a layer. -/
theorem startsWith_others {index : ℕ} {kv : String × Tensor R} (hkv : kv ∈ c.others) :
    Names.startsWith (layerPrefix index) kv.1 = false := by
  have hlayers := (List.mem_filter.1 hkv).2
  rw [Bool.not_eq_true'] at hlayers
  rw [← Bool.not_eq_true]
  intro hprefix
  rw [← Names.append_behind hprefix, startsWith_layers] at hlayers
  cases hlayers

/-- **What `prune` returns**: the export, unless nothing is removed. -/
theorem prune_eq (hrule : c.plan.rankingRule = "ablation_sensitivity") :
    c.prune = if c.removed.all fun kv => kv.2.isEmpty then .error .noStructuresRemoved
      else .ok c.exported := by
  have hloop := c.foldlM_pruneLayer c.retainedLayers.zipIdx
    { removed := [("layers", c.removedLayers)], result := c.others
      newHeads := c.base.config.numAttentionHeads, newChannels := c.base.config.intermediateSize }
    (fun l hl => c.lt_of_mem_retainedLayers (List.fst_mem_of_mem_zipIdx hl))
    (by rw [List.zipIdx_map_snd]; exact List.nodup_range')
    (fun l _ kv hkv => c.startsWith_others hkv)
  have hne : c.retainedLayers.zipIdx ≠ [] := by
    simpa using c.retainedLayers_ne_nil
  rw [if_neg hne, if_neg hne, List.zipIdx_map_fst] at hloop
  have hlayers : removedIndices c.plan c.round c.rankings "layers" c.base.config.numHiddenLayers "layers" =
      .ok c.removedLayers := removedIndices_eq c.layers "layers"
  have hprune : c.prune = (do
      let pruned ← c.retainedLayers.zipIdx.foldlM
        (fun pruned layer => pruneLayer c.base c.plan c.round c.rankings pruned layer.1 layer.2)
        { removed := [("layers", c.removedLayers)], result := c.others
          newHeads := c.base.config.numAttentionHeads, newChannels := c.base.config.intermediateSize }
      if pruned.removed.all fun kv => kv.2.isEmpty then throw .noStructuresRemoved
      return {
        config := { c.base.config with
          numHiddenLayers := c.retainedLayers.length
          numAttentionHeads := pruned.newHeads
          numKeyValueHeads :=
            if pruned.newHeads ≠ c.base.config.numAttentionHeads then pruned.newHeads
            else c.base.config.numKeyValueHeads
          headDim := some c.base.config.prunedHeadDim
          intermediateSize := pruned.newChannels }
        state := pruned.result
        removed := pruned.removed }) := by
    rw [prune, Pruning.prune, if_neg (by simpa using hrule), c.accepted]
    simp only [Except.ok_bind, hlayers]
    rfl
  rw [hprune, hloop, Except.ok_bind]
  by_cases hempty : (c.removed.all fun kv => kv.2.isEmpty) = true
  · rw [if_pos hempty]
    exact if_pos hempty
  · rw [if_neg hempty]
    exact if_neg hempty

theorem headSize_exportedConfig : c.exportedConfig.headSize = c.base.config.headSize :=
  prunedHeadDim_eq c.base

/-- The tensors of an export. -/
theorem mem_exported {kv : String × Tensor R} :
    kv ∈ c.exported.state ↔ kv ∈ c.others ∨ ∃ oldIndex newIndex, c.retainedLayers[newIndex]? =
      some oldIndex ∧ kv ∈ c.exportedLayer oldIndex newIndex := by
  rw [exported, List.mem_append, List.mem_flatMap]
  refine or_congr_right ⟨?_, ?_⟩
  · rintro ⟨⟨oldIndex, newIndex⟩, hlayer, hkv⟩
    exact ⟨oldIndex, newIndex, List.mem_zipIdx_iff_getElem?.1 hlayer, hkv⟩
  · rintro ⟨oldIndex, newIndex, hlayer, hkv⟩
    exact ⟨(oldIndex, newIndex), List.mem_zipIdx_iff_getElem?.2 hlayer, hkv⟩

/-- The names of an export are distinct. -/
theorem nodup_exported : (c.exported.state.map (·.1)).Nodup := by
  have hothers : (c.others.map (·.1)).Nodup := (nodup_state c.base).sublist (List.filter_sublist.map _)
  have hstart : ∀ name ∈ c.others.map (·.1), Names.startsWith "model.layers." name = false := by
    intro name hname
    obtain ⟨kv, hkv, rfl⟩ := List.mem_map.1 hname
    simpa using (List.mem_filter.1 hkv).2
  have hindex : (c.retainedLayers.zipIdx.map (·.2)).Nodup := by
    rw [List.zipIdx_map_snd]
    exact List.nodup_range'
  have hlayers := nodup_layered hothers hstart hindex fun l _ => nodup_layerTensors c.base l.1
  simpa only [exported, exportedLayer, List.map_append, List.map_flatMap, List.map_map,
    Function.comp_def] using hlayers

/-! ### What is noted as removed -/

theorem get_record (name : String) (removed : List (String × List ℕ)) (j : ℕ) :
    Grouping.get [] (c.record removed j) name =
      if name = "mlp_channels." ++ toString j then c.removedChannels j
      else if name = "attention_heads." ++ toString j then c.removedHeads j
      else Grouping.get [] removed name := by
  rw [record, Grouping.get_set, Grouping.get_set]

theorem get_record_channels (removed : List (String × List ℕ)) (i j : ℕ) :
    Grouping.get [] (c.record removed j) ("mlp_channels." ++ toString i) =
      if i = j then c.removedChannels i else Grouping.get [] removed ("mlp_channels." ++ toString i) := by
  have hheads : "mlp_channels." ++ toString i ≠ "attention_heads." ++ toString j :=
    Names.ne_of_head (by simp)
  rw [get_record, if_neg hheads]
  simp only [(Names.numbered_injective "mlp_channels.").eq_iff]
  split_ifs with h
  · rw [h]
  · rfl

theorem get_record_heads (removed : List (String × List ℕ)) (i j : ℕ) :
    Grouping.get [] (c.record removed j) ("attention_heads." ++ toString i) =
      if i = j then c.removedHeads i else Grouping.get [] removed ("attention_heads." ++ toString i) := by
  have hchannels : "attention_heads." ++ toString i ≠ "mlp_channels." ++ toString j :=
    Names.ne_of_head (by simp)
  rw [get_record, if_neg hchannels]
  simp only [(Names.numbered_injective "attention_heads.").eq_iff]
  split_ifs with h
  · rw [h]
  · rfl

theorem get_record_layers (removed : List (String × List ℕ)) (j : ℕ) :
    Grouping.get [] (c.record removed j) "layers" = Grouping.get [] removed "layers" := by
  rw [get_record, if_neg (Names.ne_of_head (by simp)), if_neg (Names.ne_of_head (by simp))]

/-- A value that each step of a loop over indices leaves or writes for its own index. -/
theorem get_foldl_record {name : String} {value : List ℕ} {i : ℕ}
    (hrecord : ∀ removed j, Grouping.get [] (c.record removed j) name =
      if i = j then value else Grouping.get [] removed name) (indices : List ℕ)
    (removed : List (String × List ℕ)) :
    Grouping.get [] (indices.foldl c.record removed) name =
      if i ∈ indices then value else Grouping.get [] removed name := by
  induction indices generalizing removed with
  | nil => rfl
  | cons j indices ih =>
    rw [List.foldl_cons, ih, hrecord]
    by_cases hi : i ∈ indices
    · rw [if_pos hi, if_pos (List.mem_cons_of_mem _ hi)]
    · by_cases hj : i = j
      · rw [if_neg hi, if_pos hj, if_pos (hj ▸ List.mem_cons_self)]
      · rw [if_neg hi, if_neg hj, if_neg (by simp [hi, hj])]

theorem get_removed_channels {index : ℕ} (h : index ∈ c.retainedLayers) :
    Grouping.get [] c.removed ("mlp_channels." ++ toString index) = c.removedChannels index := by
  rw [removed, c.get_foldl_record fun removed => c.get_record_channels removed index, if_pos h]

theorem get_removed_heads {index : ℕ} (h : index ∈ c.retainedLayers) :
    Grouping.get [] c.removed ("attention_heads." ++ toString index) = c.removedHeads index := by
  rw [removed, c.get_foldl_record fun removed => c.get_record_heads removed index, if_pos h]

theorem get_removed_layers : Grouping.get [] c.removed "layers" = c.removedLayers := by
  have hloop : ∀ indices removed, Grouping.get [] (List.foldl c.record removed indices) "layers" =
      Grouping.get [] removed "layers" := by
    intro indices
    induction indices with
    | nil => exact fun _ => rfl
    | cons j indices ih => exact fun removed => (ih _).trans (c.get_record_layers removed j)
  rw [removed, hloop]
  rfl

/-- What `prune` can return. -/
theorem prune_cases : (c.plan.rankingRule ≠ "ablation_sensitivity" ∧
      c.prune = .error .magnitudeRankingUnsupported) ∨
    c.prune = .error .noStructuresRemoved ∨
    c.plan.rankingRule = "ablation_sensitivity" ∧ c.prune = .ok c.exported := by
  by_cases hrule : c.plan.rankingRule = "ablation_sensitivity"
  · rw [c.prune_eq hrule]
    split_ifs
    · exact .inr (.inl rfl)
    · exact .inr (.inr ⟨hrule, rfl⟩)
  · refine .inl ⟨hrule, ?_⟩
    rw [prune, Pruning.prune, if_pos hrule]
    rfl

/-- Where channels are to be removed there is an export. -/
theorem prune_eq_ok (hrule : c.plan.rankingRule = "ablation_sensitivity")
    (hchannels : c.plan.removable c.round c.base.config.intermediateSize "mlp_channels" ≠ 0) :
    c.prune = .ok c.exported := by
  obtain ⟨index, hfirst⟩ := List.exists_mem_of_ne_nil _ c.retainedLayers_ne_nil
  rw [c.prune_eq hrule, if_neg]
  intro hempty
  have hlength : (c.removedChannels index).length =
      c.plan.removable c.round c.base.config.intermediateSize "mlp_channels" :=
    length_removedOf (c.channels index (c.lt_of_mem_retainedLayers hfirst))
      (geometry_eq_ok c.accepted).2.1 _
  have hnone : Grouping.get [] c.removed ("mlp_channels." ++ toString index) = [] :=
    Grouping.get_eq_default (by simpa using hempty) _
  rw [c.get_removed_channels hfirst] at hnone
  rw [hnone] at hlength
  exact hchannels hlength.symm

end Call

end Pruning

end AdaptiveLlm
