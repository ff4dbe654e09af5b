import Mathlib.Data.Set.Function
import Mathlib.Order.Lattice.Nat
import PipelineTraining.Proofs.Layout.Stages

/-!
A layout tiles the model. The chunks of all ranks are numbered through without a gap, the
neighbours of a stage are those by number, and the layers of the stages, one stage after
the other, are the layers of the model.
-/

namespace PipelineTraining

namespace Topology

/-- Topologies that share so many layers among so many ranks, pinned any number of times. -/
inductive Built (depth layers : Nat) : Topology → Prop
  | make {topology : Topology} (made : Topology.make depth layers = .ok topology) :
      Built depth layers topology
  | pin {topology pinned : Topology} {chunks : Nat} (built : Built depth layers topology)
      (kept : topology.pin chunks = .ok pinned) : Built depth layers pinned

variable {depth layers chunks : Nat} {topology : Topology}

theorem pin_shares {pinned : Topology} (kept : topology.pin chunks = .ok pinned) :
    pinned.depth = topology.depth ∧ pinned.layers = topology.layers := by
  simp only [pin, bind_eq_ok] at kept
  obtain ⟨_, _, rest⟩ := kept
  obtain rfl := Except.ok.inj rest
  exact ⟨rfl, rfl⟩

theorem Built.shares (built : Built depth layers topology) :
    0 < depth ∧ 0 < layers ∧ depth ∣ layers ∧
      topology.depth = depth ∧ topology.layers = layers := by
  induction built with
  | make made =>
      obtain ⟨ranks, some, even, rfl⟩ := make_eq_ok.mp made
      exact ⟨ranks, some, even, rfl, rfl⟩
  | pin built kept ih =>
      obtain ⟨ranks, some, even, depth, layers⟩ := ih
      obtain ⟨sameDepth, sameLayers⟩ := pin_shares kept
      exact ⟨ranks, some, even, sameDepth.trans depth, sameLayers.trans layers⟩

end Topology

namespace Layout

/-- Ranks and chunks number the stages of the pipeline one to one, and a stage's number tells its
rank and its chunk. -/
structure Numbering (layout : Layout) : Prop where
  bijective : Set.BijOn (fun spot : Nat × Nat => (layout.stage spot.1 spot.2).logical)
    (Set.Iio layout.depth ×ˢ Set.Iio layout.chunks) (Set.Iio (layout.depth * layout.chunks))
  rank : ∀ rank < layout.depth, ∀ chunk < layout.chunks,
    layout.rankOf (layout.stage rank chunk) = rank
  place : ∀ rank < layout.depth, ∀ chunk < layout.chunks,
    layout.stageAt (layout.stage rank chunk).logical = layout.stage rank chunk
  spot : ∀ logical < layout.depth * layout.chunks,
    layout.stage (layout.rankOf (layout.stageAt logical)) (layout.stageAt logical).chunk =
      layout.stageAt logical

/-- Going downstream counts the stages up to the last one, and going upstream is the way back. -/
structure Walk (layout : Layout) : Prop where
  downstream : ∀ logical < layout.depth * layout.chunks,
    layout.next (layout.stageAt logical) =
      if logical + 1 = layout.depth * layout.chunks then none
      else some (layout.stageAt (logical + 1))
  upstream : ∀ logical < layout.depth * layout.chunks,
    layout.prev (layout.stageAt logical) =
      if logical = 0 then none else some (layout.stageAt (logical - 1))
  back : ∀ stage other, layout.IsStage stage → layout.IsStage other →
    (layout.next stage = some other ↔ layout.prev other = some stage)

/-- The layers of the stages are shares of one size, one behind the other, from the first layer to
the last. -/
structure Partition (layout : Layout) (layers : Nat) : Prop where
  share : 0 < layout.layersPerChunk
  fits : layout.depth * layout.chunks ≤ layers
  sized : ∀ logical < layout.depth * layout.chunks,
    (layout.layers (layout.stageAt logical)).1 + layout.layersPerChunk =
      (layout.layers (layout.stageAt logical)).2
  first : (layout.layers (layout.stageAt 0)).1 = 0
  consecutive : ∀ logical, logical + 1 < layout.depth * layout.chunks →
    (layout.layers (layout.stageAt (logical + 1))).1 = (layout.layers (layout.stageAt logical)).2
  last : ∀ logical, logical + 1 = layout.depth * layout.chunks →
    (layout.layers (layout.stageAt logical)).2 = layers
  once : ∀ layer, layer < layers ↔ ∃! logical, logical < layout.depth * layout.chunks ∧
    (layout.layers (layout.stageAt logical)).1 ≤ layer ∧
      layer < (layout.layers (layout.stageAt logical)).2

variable {layout : Layout}

theorem numbering (sound : layout.Sound) : layout.Numbering := by
  constructor
  case bijective =>
    have inverse : Set.InvOn (fun logical =>
          (layout.rankOf (layout.stageAt logical), (layout.stageAt logical).chunk))
        (fun spot : Nat × Nat => (layout.stage spot.1 spot.2).logical)
        (Set.Iio layout.depth ×ˢ Set.Iio layout.chunks)
        (Set.Iio (layout.depth * layout.chunks)) := by
      constructor
      · rintro ⟨rank, chunk⟩ ⟨inside, held⟩
        simp only [stageAt_stage sound inside held, rankOf_stage inside, stage_chunk]
      · intro logical within
        exact congrArg StageId.logical (stage_of_stageAt sound within)
    refine inverse.bijOn ?_ ?_
    · rintro ⟨rank, chunk⟩ ⟨inside, held⟩
      exact stage_logical_lt sound inside held
    · intro logical within
      exact ⟨rankOf_stageAt_lt sound within, stageAt_chunk_lt sound within⟩
  case rank => exact fun rank inside chunk _ => rankOf_stage inside chunk
  case place => exact fun rank inside chunk held => stageAt_stage sound inside held
  case spot => exact fun logical within => stage_of_stageAt sound within

theorem walk (layout : Layout) : layout.Walk := by
  constructor
  case downstream =>
    intro logical _
    simp only [next, isLast, stageAt_logical, beq_iff_eq, stageCount]
  case upstream =>
    intro logical _
    simp only [prev, isFirst, stageAt_logical, beq_iff_eq]
  case back =>
    intro stage other known otherKnown
    exact ⟨prev_of_next known, next_of_prev otherKnown⟩

/-- The stage of a layer is the number of shares in front of it. -/
theorem mem_layers_iff (share : 0 < layout.layersPerChunk) (logical layer : Nat) :
    ((layout.layers (layout.stageAt logical)).1 ≤ layer ∧
        layer < (layout.layers (layout.stageAt logical)).2) ↔
      layer / layout.layersPerChunk = logical := by
  rw [Nat.div_eq_iff share]
  simp only [layers, stageAt_logical]
  omega

theorem partition {layers : Nat} (share : 0 < layout.layersPerChunk)
    (shared : layout.depth * layout.chunks * layout.layersPerChunk = layers) :
    layout.Partition layers := by
  subst shared
  constructor
  case share => exact share
  case fits => exact Nat.le_mul_of_pos_right _ share
  case sized => exact fun _ _ => rfl
  case first => exact Nat.zero_mul _
  case consecutive =>
    intro logical _
    simp only [layers, stageAt_logical, Nat.add_mul, Nat.one_mul]
  case last =>
    intro logical ends
    simp only [layers, stageAt_logical, ← ends, Nat.add_mul, Nat.one_mul]
  case once =>
    intro layer
    simp only [mem_layers_iff share]
    rw [← Nat.div_lt_iff_lt_mul share]
    constructor
    · intro inside
      exact ⟨_, ⟨inside, rfl⟩, fun _ other => other.2.symm⟩
    · rintro ⟨logical, ⟨inside, rfl⟩, _⟩
      exact inside

end Layout

/-- The chunks of a layout number its stages one to one, the stages follow one another by number,
and their layers are the layers of the model. -/
theorem Topology.Built.tiles {depth layers chunks : Nat} {topology : Topology}
    {placement : Placement} {layout : Layout} (built : Topology.Built depth layers topology)
    (laid : topology.layout chunks placement = .ok layout) :
    layout.depth = depth ∧ layout.chunks = chunks ∧ layout.placement = placement ∧
      layout.Numbering ∧ layout.Walk ∧ layout.Partition layers := by
  obtain ⟨ranks, some, even, rfl, rfl⟩ := built.shares
  obtain ⟨sound, sameDepth, sameChunks, samePlacement⟩ := Topology.layout_ok ranks laid
  obtain ⟨_, evenChunks, form⟩ := Topology.layout_shares laid
  -- Both divisions leave nothing over: the layers among the ranks and a rank's among its chunks.
  have shared : layout.depth * layout.chunks * layout.layersPerChunk = topology.layers := by
    calc layout.depth * layout.chunks * layout.layersPerChunk
      _ = topology.depth * (chunks * (topology.layersPerRank / chunks)) := by
          rw [form, Nat.mul_assoc]
      _ = topology.depth * (topology.layers / topology.depth) := by
          rw [Nat.mul_div_cancel' evenChunks, layersPerRank]
      _ = topology.layers := Nat.mul_div_cancel' even
  have share : 0 < layout.layersPerChunk := by
    rw [← shared] at some
    exact Nat.pos_of_mul_pos_left some
  exact ⟨sameDepth, sameChunks, samePlacement, Layout.numbering sound, layout.walk,
    Layout.partition share shared⟩

/-- Three folded ranks that share twelve layers. -/
theorem Topology.tiles_folded :
    ∃ layout, (Topology.mk 3 12 (some 2)).layout 2 .vShape = .ok layout ∧
      layout.Numbering ∧ layout.Walk ∧ layout.Partition 12 := by
  have made : Topology.make 3 12 = .ok ⟨3, 12, none⟩ := rfl
  have kept : (Topology.mk 3 12 none).pin 2 = .ok ⟨3, 12, some 2⟩ := rfl
  have laid : (Topology.mk 3 12 (some 2)).layout 2 .vShape = .ok ⟨3, 2, 2, .vShape⟩ := rfl
  obtain ⟨_, _, _, numbering, walk, partition⟩ :=
    Topology.Built.tiles (.pin (.make made) kept) laid
  exact ⟨_, laid, numbering, walk, partition⟩

end PipelineTraining
