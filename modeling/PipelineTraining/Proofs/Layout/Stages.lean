import Mathlib.Tactic.Ring
import PipelineTraining.Topology

/-!
The stages of a sound layout. Ranks and chunks number the logical stages one to
one, a stage's neighbours are its neighbours by logical number, and walking
downstream never goes back to an earlier chunk.
-/

namespace PipelineTraining

theorem bind_eq_ok {ε α β : Type} {first : Except ε α} {next : α → Except ε β} {value : β} :
    first >>= next = .ok value ↔ ∃ middle, first = .ok middle ∧ next middle = .ok value := by
  cases first with
  | error fault => simp [bind, Except.bind]
  | ok middle => simp [bind, Except.bind]

theorem bind_eq_error {ε α β : Type} {first : Except ε α} {next : α → Except ε β} {fault : ε} :
    first >>= next = .error fault ↔
      first = .error fault ∨ ∃ middle, first = .ok middle ∧ next middle = .error fault := by
  cases first with
  | error other => simp [bind, Except.bind]
  | ok middle => simp [bind, Except.bind]

namespace Layout

structure Sound (layout : Layout) : Prop where
  ranks : 0 < layout.depth
  chunked : 0 < layout.chunks
  folded : layout.placement = .vShape → layout.chunks = 2

structure IsStage (layout : Layout) (stage : StageId) : Prop where
  inside : stage.logical < layout.stageCount
  named : layout.stageAt stage.logical = stage

variable {layout : Layout}

theorem stageCount_pos (sound : layout.Sound) : 0 < layout.stageCount :=
  Nat.mul_pos sound.ranks sound.chunked

theorem stageAt_logical (logical : Nat) : (layout.stageAt logical).logical = logical := rfl

theorem stage_chunk (rank chunk : Nat) : (layout.stage rank chunk).chunk = chunk := rfl

theorem stage_logical_lt (sound : layout.Sound) {rank chunk : Nat}
    (inside : rank < layout.depth) (held : chunk < layout.chunks) :
    (layout.stage rank chunk).logical < layout.stageCount := by
  unfold stage stageCount
  cases placed : layout.placement with
  | interleaved =>
      calc rank + chunk * layout.depth
        _ < layout.depth + chunk * layout.depth := Nat.add_lt_add_right inside _
        _ = layout.depth * (chunk + 1) := by ring
        _ ≤ layout.depth * layout.chunks := Nat.mul_le_mul_left _ held
  | vShape =>
      rw [sound.folded placed]
      dsimp only
      split <;> omega

theorem rankOf_stage {rank : Nat} (inside : rank < layout.depth) (chunk : Nat) :
    layout.rankOf (layout.stage rank chunk) = rank := by
  unfold stage rankOf
  cases placed : layout.placement with
  | interleaved => simp [Nat.mod_eq_of_lt inside]
  | vShape =>
      by_cases first : chunk = 0
      · simp [first, inside]
      · have beyond : ¬ 2 * layout.depth - 1 - rank < layout.depth := by omega
        simp only [first, beyond, if_false]
        omega

theorem stageAt_stage (sound : layout.Sound) {rank chunk : Nat}
    (inside : rank < layout.depth) (held : chunk < layout.chunks) :
    layout.stageAt (layout.stage rank chunk).logical = layout.stage rank chunk := by
  unfold stage stageAt
  cases placed : layout.placement with
  | interleaved =>
      simp only [StageId.mk.injEq, and_true]
      rw [Nat.add_mul_div_right _ _ sound.ranks, Nat.div_eq_of_lt inside, Nat.zero_add]
  | vShape =>
      have two := sound.folded placed
      simp only [StageId.mk.injEq, and_true]
      by_cases first : chunk = 0
      · simp [first, inside]
      · have beyond : ¬ 2 * layout.depth - 1 - rank < layout.depth := by omega
        simp only [first, beyond, if_false]
        omega

theorem isStage_stage (sound : layout.Sound) {rank chunk : Nat}
    (inside : rank < layout.depth) (held : chunk < layout.chunks) :
    layout.IsStage (layout.stage rank chunk) :=
  ⟨stage_logical_lt sound inside held, stageAt_stage sound inside held⟩

theorem isStage_stageAt {logical : Nat} (inside : logical < layout.stageCount) :
    layout.IsStage (layout.stageAt logical) :=
  ⟨inside, rfl⟩

theorem rankOf_stageAt_lt (sound : layout.Sound) {logical : Nat}
    (inside : logical < layout.stageCount) :
    layout.rankOf (layout.stageAt logical) < layout.depth := by
  unfold rankOf stageAt
  cases placed : layout.placement with
  | interleaved => exact Nat.mod_lt _ sound.ranks
  | vShape =>
      unfold stageCount at inside
      rw [sound.folded placed] at inside
      dsimp only
      split <;> omega

theorem stageAt_chunk_lt (sound : layout.Sound) {logical : Nat}
    (inside : logical < layout.stageCount) :
    (layout.stageAt logical).chunk < layout.chunks := by
  unfold stageAt
  cases placed : layout.placement with
  | interleaved => exact Nat.div_lt_of_lt_mul inside
  | vShape =>
      rw [sound.folded placed]
      dsimp only
      split <;> omega

theorem stage_of_stageAt (sound : layout.Sound) {logical : Nat}
    (inside : logical < layout.stageCount) :
    layout.stage (layout.rankOf (layout.stageAt logical)) (layout.stageAt logical).chunk =
      layout.stageAt logical := by
  unfold stage rankOf stageAt
  cases placed : layout.placement with
  | interleaved =>
      simp only [StageId.mk.injEq, true_and]
      rw [Nat.mul_comm]
      exact Nat.mod_add_div logical layout.depth
  | vShape =>
      unfold stageCount at inside
      rw [sound.folded placed] at inside
      simp only [StageId.mk.injEq, true_and]
      split <;> simp_all
      omega

namespace IsStage

theorem rank_lt (sound : layout.Sound) {stage : StageId} (known : layout.IsStage stage) :
    layout.rankOf stage < layout.depth := by
  rw [← known.named]
  exact rankOf_stageAt_lt sound known.inside

theorem chunk_lt (sound : layout.Sound) {stage : StageId} (known : layout.IsStage stage) :
    stage.chunk < layout.chunks := by
  rw [← known.named]
  exact stageAt_chunk_lt sound known.inside

theorem stage_rank_chunk (sound : layout.Sound) {stage : StageId}
    (known : layout.IsStage stage) :
    layout.stage (layout.rankOf stage) stage.chunk = stage := by
  have same := stage_of_stageAt sound known.inside
  rwa [known.named] at same

theorem eq_of_logical {left right : StageId} (first : layout.IsStage left)
    (second : layout.IsStage right) (same : left.logical = right.logical) : left = right := by
  rw [← first.named, ← second.named, same]

/-- Where there is one rank only, it has all stages. -/
theorem many_of_apart {left right : StageId} (first : layout.IsStage left)
    (second : layout.IsStage right) (apart : layout.rankOf left ≠ layout.rankOf right) :
    1 < layout.depth := by
  by_contra few
  have alone : ∀ stage, layout.IsStage stage → layout.rankOf stage = 0 := by
    intro stage known
    have inside := known.inside
    unfold stageCount at inside
    have depth : layout.depth = 1 := by
      have some := Nat.pos_of_mul_pos_right (Nat.zero_lt_of_lt inside)
      omega
    unfold rankOf
    rw [depth]
    split
    · exact Nat.mod_one _
    · split <;> omega
  exact apart ((alone left first).trans (alone right second).symm)

end IsStage

theorem prev_eq_none {stage : StageId} : layout.prev stage = none ↔ stage.logical = 0 := by
  simp [prev, isFirst]

theorem prev_eq_some {stage before : StageId} :
    layout.prev stage = some before ↔
      stage.logical ≠ 0 ∧ before = layout.stageAt (stage.logical - 1) := by
  by_cases first : stage.logical = 0 <;> simp [prev, isFirst, first, eq_comm (a := before)]

theorem next_eq_none {stage : StageId} :
    layout.next stage = none ↔ stage.logical + 1 = layout.stageCount := by
  simp [next, isLast]

theorem next_eq_some {stage behind : StageId} :
    layout.next stage = some behind ↔
      stage.logical + 1 ≠ layout.stageCount ∧ behind = layout.stageAt (stage.logical + 1) := by
  by_cases last : stage.logical + 1 = layout.stageCount <;>
    simp [next, isLast, last, eq_comm (a := behind)]

theorem isStage_prev {stage before : StageId} (known : layout.IsStage stage)
    (found : layout.prev stage = some before) : layout.IsStage before := by
  obtain ⟨_, rfl⟩ := prev_eq_some.mp found
  exact isStage_stageAt (Nat.lt_of_le_of_lt (Nat.sub_le _ _) known.inside)

theorem isStage_next {stage behind : StageId} (known : layout.IsStage stage)
    (found : layout.next stage = some behind) : layout.IsStage behind := by
  obtain ⟨notLast, rfl⟩ := next_eq_some.mp found
  exact isStage_stageAt (Nat.lt_of_le_of_ne known.inside notLast)

theorem logical_of_prev {stage before : StageId} (found : layout.prev stage = some before) :
    before.logical + 1 = stage.logical := by
  obtain ⟨notFirst, rfl⟩ := prev_eq_some.mp found
  exact Nat.succ_pred_eq_of_ne_zero notFirst

theorem logical_of_next {stage behind : StageId} (found : layout.next stage = some behind) :
    behind.logical = stage.logical + 1 := by
  obtain ⟨_, rfl⟩ := next_eq_some.mp found
  rfl

/-- The two walks are each other's inverse. -/
theorem next_of_prev {stage before : StageId} (known : layout.IsStage stage)
    (found : layout.prev stage = some before) : layout.next before = some stage := by
  have step := logical_of_prev found
  rw [next_eq_some, step, known.named]
  exact ⟨Nat.ne_of_lt known.inside, rfl⟩

theorem prev_of_next {stage behind : StageId} (known : layout.IsStage stage)
    (found : layout.next stage = some behind) : layout.prev behind = some stage := by
  have step := logical_of_next found
  rw [prev_eq_some, step, Nat.add_sub_cancel, known.named]
  exact ⟨Nat.succ_ne_zero _, rfl⟩

theorem chunk_of_prev {stage before : StageId}
    (known : layout.IsStage stage) (found : layout.prev stage = some before) :
    before.chunk = stage.chunk ∨ before.chunk + 1 = stage.chunk := by
  obtain ⟨notFirst, rfl⟩ := prev_eq_some.mp found
  have named := congrArg StageId.chunk known.named
  rw [← named]
  unfold stageAt
  cases placed : layout.placement with
  | interleaved =>
      obtain ⟨logical, step⟩ := Nat.exists_eq_succ_of_ne_zero notFirst
      simp only [step, Nat.succ_sub_one]
      rw [Nat.succ_div]
      split <;> omega
  | vShape =>
      dsimp only
      split <;> split <;> omega

theorem chunk_of_next {stage behind : StageId}
    (known : layout.IsStage stage) (found : layout.next stage = some behind) :
    stage.chunk = behind.chunk ∨ stage.chunk + 1 = behind.chunk :=
  chunk_of_prev (isStage_next known found) (prev_of_next known found)

theorem chunk_of_last (sound : layout.Sound) {stage : StageId} (known : layout.IsStage stage)
    (last : layout.next stage = none) : stage.chunk + 1 = layout.chunks := by
  have ends := next_eq_none.mp last
  have named := congrArg StageId.chunk known.named
  rw [← named]
  unfold stageAt
  unfold stageCount at ends
  have chunked := sound.chunked
  cases placed : layout.placement with
  | interleaved =>
      dsimp only
      rw [← Nat.add_div_right _ sound.ranks]
      have bound : stage.logical + layout.depth =
          (layout.depth - 1) + layout.chunks * layout.depth := by
        have comm := Nat.mul_comm layout.depth layout.chunks
        have ranks := sound.ranks
        omega
      rw [bound, Nat.add_mul_div_right _ _ sound.ranks,
        Nat.div_eq_of_lt (Nat.sub_lt sound.ranks Nat.one_pos), Nat.zero_add]
  | vShape =>
      have two := sound.folded placed
      have ranks := sound.ranks
      rw [two] at ends ⊢
      dsimp only
      split <;> omega

theorem places_of_sound (sound : layout.Sound) : layout.places = true := by
  have ranks := sound.ranks
  unfold places
  cases layout.placement with
  | interleaved => simpa using Nat.ne_of_gt ranks
  | vShape => rfl

end Layout

namespace Topology

variable {topology : Topology} {depth layers chunks : Nat} {placement : Placement} {layout : Layout}

theorem make_eq_ok : make depth layers = .ok topology ↔
    0 < depth ∧ 0 < layers ∧ depth ∣ layers ∧ topology = ⟨depth, layers, none⟩ := by
  have enough : 0 < layers → depth ∣ layers → depth ≤ layers := Nat.le_of_dvd
  rw [Nat.dvd_iff_mod_eq_zero] at enough ⊢
  unfold make
  grind

theorem checkChunks_eq_ok {layersPerRank : Nat} :
    checkChunks layersPerRank chunks = .ok () ↔ 0 < chunks ∧ chunks ∣ layersPerRank := by
  rw [Nat.dvd_iff_mod_eq_zero]
  unfold checkChunks
  grind

theorem layout_shares (laid : topology.layout chunks placement = .ok layout) :
    0 < chunks ∧ chunks ∣ topology.layersPerRank ∧
      layout = ⟨topology.depth, chunks, topology.layersPerRank / chunks, placement⟩ := by
  simp only [Topology.layout, bind_eq_ok] at laid
  obtain ⟨_, _, _, shared, _, _, rest⟩ := laid
  obtain ⟨some, even⟩ := checkChunks_eq_ok.mp shared
  exact ⟨some, even, (Except.ok.inj rest).symm⟩

theorem chunks_of_folded (laid : topology.layout chunks .vShape = .ok layout) : chunks = 2 := by
  simp only [Topology.layout, bind_eq_ok] at laid
  obtain ⟨_, placed, _⟩ := laid
  by_contra other
  simp [checkPlacement, Placement.requiredChunks, other] at placed

theorem layout_ok (ranks : 0 < topology.depth)
    (laid : topology.layout chunks placement = .ok layout) :
    layout.Sound ∧ layout.depth = topology.depth ∧ layout.chunks = chunks ∧
      layout.placement = placement := by
  obtain ⟨chunked, _, rfl⟩ := layout_shares laid
  refine ⟨⟨ranks, chunked, ?_⟩, rfl, rfl, rfl⟩
  rintro rfl
  exact chunks_of_folded laid

end Topology
end PipelineTraining
