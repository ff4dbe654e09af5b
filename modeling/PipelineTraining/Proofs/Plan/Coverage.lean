import PipelineTraining.Proofs.Clock.Exactness
import PipelineTraining.Proofs.Plan.Acceptance

/-!
What the check of a plan says about the work that is done. It counts different entries of
logical stage and micro-batch, so the right number of them may still be the wrong ones. It
finds every stage of a rank covered exactly if no operation strays from the stages of its
rank and the micro-batches of the plan where the check does not look.
-/

namespace PipelineTraining

namespace Layout

theorem mem_stagesOf {layout : Layout} (sound : layout.Sound) {rank : Nat}
    (inside : rank < layout.depth) {stage : StageId} :
    stage ∈ layout.stagesOf rank ↔ layout.IsStage stage ∧ layout.rankOf stage = rank := by
  simp only [stagesOf, List.mem_map, List.mem_range]
  constructor
  · rintro ⟨chunk, held, rfl⟩
    exact ⟨isStage_stage sound inside held, rankOf_stage inside chunk⟩
  · rintro ⟨known, rfl⟩
    exact ⟨stage.chunk, known.chunk_lt sound, known.stage_rank_chunk sound⟩

end Layout

namespace Plan

structure Covers (plan : Plan) (rankPlan : RankPlan) : Prop where
  passes : ∀ (way : Way) (stage : StageId) (microbatch : Nat),
    stage ∈ plan.layout.stagesOf rankPlan.rank → microbatch < plan.microbatches →
    rankPlan.operations.count (way.pass stage microbatch) = 1
  weights : ∀ (stage : StageId) (microbatch : Nat),
    stage ∈ plan.layout.stagesOf rankPlan.rank → microbatch < plan.microbatches →
    rankPlan.operations.count (.backwardWeights stage microbatch) = if plan.split then 1 else 0
  confined : ∀ operation ∈ rankPlan.operations,
    (∀ stage, operation.stage = some stage → stage ∈ plan.layout.stagesOf rankPlan.rank) ∧
      ∀ microbatch, operation.microbatch = some microbatch → microbatch < plan.microbatches

def Covered (plan : Plan) : Prop :=
  ∀ rank < plan.layout.depth, ∃ rankPlan,
    plan.ranks.filter (fun other => other.rank == rank) = [rankPlan] ∧ plan.Covers rankPlan

/-- What the check does not ask of an operation: that a forward is of a stage of the pipeline and
a micro-batch of the plan, that a weight pass names the chunk of its stage, and that the end of a
transfer on this rank is a stage of it. -/
def Keeps (plan : Plan) (rank : Nat) : Operation → Prop
  | .forward stage microbatch =>
      stage.logical < plan.layout.stageCount ∧ microbatch < plan.microbatches
  | .backwardWeights stage _ => plan.layout.stageAt stage.logical = stage
  | .send _ transfer =>
      transfer.source ∈ plan.layout.stagesOf rank ∧ transfer.microbatch < plan.microbatches
  | .receive _ transfer =>
      transfer.target ∈ plan.layout.stagesOf rank ∧ transfer.microbatch < plan.microbatches
  | .backward .. | .optimizerStep | .validationSync => True

end Plan

theorem nodup_of_fresh {ι δ : Type} {found? : ι → Option δ} {items : List ι}
    (fresh : ∀ front item back entry, items = front ++ item :: back → found? item = some entry →
      entry ∉ front.filterMap found?) : (items.filterMap found?).Nodup := by
  induction items using List.reverseRecOn with
  | nil => exact List.nodup_nil
  | append_singleton items last ih =>
      have earlier := ih fun front item back entry split => fresh front item (back ++ [last]) entry
        (by rw [split, List.append_assoc, List.cons_append])
      rw [List.filterMap_append]
      cases found : found? last with
      | none => simpa [found] using earlier
      | some entry =>
          have unseen := fresh items last [] entry rfl found
          rw [List.filterMap_cons_some found, List.nodup_append_comm]
          exact earlier.cons unseen

theorem count_eq_one_of_fresh {ι : Type} [DecidableEq ι] {items : List ι} {item : ι}
    (fresh : ∀ front back, items = front ++ item :: back → item ∉ front) (member : item ∈ items) :
    items.count item = 1 := by
  obtain ⟨front, back, split⟩ := List.append_of_mem member
  have before := List.count_eq_zero_of_not_mem (fresh front back split)
  have behind : item ∉ back := by
    intro again
    obtain ⟨middle, rest, later⟩ := List.append_of_mem again
    refine fresh (front ++ item :: middle) rest ?_ (by simp)
    rw [split, later, List.append_assoc, List.cons_append]
  rw [split, List.count_append, List.count_cons_self, before,
    List.count_eq_zero_of_not_mem behind]

/-- As many different passes of a rank's stages as there are in all are all of them, each once. -/
theorem Layout.tallied {layout : Layout} (sound : layout.Sound) {rank microbatches : Nat}
    (tracked : rank < layout.depth) {operations : List Operation}
    {key? : Operation → Option (Nat × Nat)} {pass : StageId → Nat → Operation}
    (keyed : ∀ stage microbatch, key? (pass stage microbatch) = some (stage.logical, microbatch))
    (fresh : ∀ before operation after key, operations = before ++ operation :: after →
      key? operation = some key → key ∉ before.filterMap key?)
    (placed : ∀ operation ∈ operations, ∀ key, key? operation = some key →
      ∃ stage microbatch, operation = pass stage microbatch ∧ stage ∈ layout.stagesOf rank ∧
        microbatch < microbatches)
    (all : (operations.filterMap key?).length = microbatches * layout.chunks)
    {stage : StageId} {microbatch : Nat} (owned : stage ∈ layout.stagesOf rank)
    (inside : microbatch < microbatches) : operations.count (pass stage microbatch) = 1 := by
  let whole := (Way.forward.order layout rank microbatches).map Pass.key
  have covered : operations.filterMap key? ⊆ whole := by
    intro key member
    obtain ⟨operation, listed, found⟩ := List.mem_filterMap.mp member
    obtain ⟨other, another, rfl, held, below⟩ := placed operation listed key found
    rw [keyed] at found
    exact List.mem_map.mpr ⟨(other, another), Way.forward.mem_order_iff.mpr ⟨held, below⟩,
      Option.some.inj found⟩
  have size : whole.length ≤ (operations.filterMap key?).length := by
    rw [all, List.length_map, Way.order, WorkOrder.forward_length]
  have perm := (List.subperm_of_subset (nodup_of_fresh fresh) covered).perm_of_length_le size
  have listed : (stage.logical, microbatch) ∈ operations.filterMap key? := by
    rw [perm.mem_iff]
    exact List.mem_map.mpr ⟨(stage, microbatch), Way.forward.mem_order_iff.mpr ⟨owned, inside⟩, rfl⟩
  obtain ⟨operation, member, found⟩ := List.mem_filterMap.mp listed
  obtain ⟨other, another, rfl, held, _⟩ := placed operation member _ found
  rw [keyed] at found
  obtain ⟨logical, rfl⟩ := Prod.mk.inj (Option.some.inj found)
  have same := ((mem_stagesOf sound tracked).mp held).1.eq_of_logical
    ((mem_stagesOf sound tracked).mp owned).1 logical
  rw [← same]
  refine count_eq_one_of_fresh (fun front back split behind => ?_) member
  exact fresh front _ back _ split (keyed other another)
    (List.mem_filterMap.mpr ⟨_, behind, keyed other another⟩)

namespace Plan.LawfulRank

variable {plan : Plan} {rankPlan : RankPlan} {stage : StageId} {microbatch : Nat}
  {before after : List Operation} {operation : Operation} {key : Nat × Nat}

theorem fresh_pass (lawful : plan.LawfulRank rankPlan) (way : Way)
    (split : rankPlan.operations = before ++ operation :: after)
    (keyed : way.key? operation = some key) : key ∉ before.filterMap way.key? := by
  have admissible := lawful.admissible before operation after split
  obtain ⟨stage, microbatch, rfl, rfl⟩ := Way.key?_eq_some keyed
  cases way with
  | forward =>
      cases admissible with
      | forward placed owned fresh => exact fresh
  | backward =>
      cases admissible with
      | backward placed owned follows fresh => exact fresh

theorem fresh_weights (lawful : plan.LawfulRank rankPlan)
    (split : rankPlan.operations = before ++ operation :: after)
    (keyed : operation.weightKey? = some key) : key ∉ before.filterMap Operation.weightKey? := by
  have admissible := lawful.admissible before operation after split
  cases admissible with
  | weights splits follows fresh =>
      obtain rfl := Option.some.inj keyed
      exact fresh
  | forward | backward | send | receive | optimizerStep | validationSync => cases keyed

theorem named (lawful : plan.LawfulRank rankPlan) {way : Way}
    (member : way.pass stage microbatch ∈ rankPlan.operations) :
    plan.layout.rankOf stage = rankPlan.rank ∧ plan.layout.stageAt stage.logical = stage := by
  obtain ⟨before, after, split⟩ := List.append_of_mem member
  have admissible := lawful.admissible before _ after split
  have owned : plan.layout.owns rankPlan.rank stage = true := by
    cases way with
    | forward =>
        cases admissible with
        | forward placed owned => exact owned
    | backward =>
        cases admissible with
        | backward placed owned => exact owned
  simpa [Layout.owns] using owned

theorem forwarded (lawful : plan.LawfulRank rankPlan)
    (member : .backward stage microbatch ∈ rankPlan.operations) :
    (stage.logical, microbatch) ∈ rankPlan.operations.filterMap Way.forward.key? := by
  obtain ⟨before, after, split⟩ := List.append_of_mem member
  cases lawful.admissible before _ after split with
  | backward placed owned follows =>
      rw [split, List.filterMap_append]
      exact List.mem_append_left _ follows

theorem backwarded (lawful : plan.LawfulRank rankPlan)
    (member : .backwardWeights stage microbatch ∈ rankPlan.operations) :
    plan.split = true ∧
      (stage.logical, microbatch) ∈ rankPlan.operations.filterMap Way.backward.key? := by
  obtain ⟨before, after, split⟩ := List.append_of_mem member
  cases lawful.admissible before _ after split with
  | weights splits follows =>
      rw [split, List.filterMap_append]
      exact ⟨splits, List.mem_append_left _ follows⟩

section keeps

variable (lawful : plan.LawfulRank rankPlan) (sound : plan.layout.Sound)
  (inside : rankPlan.rank < plan.layout.depth)
  (keeps : ∀ operation ∈ rankPlan.operations, plan.Keeps rankPlan.rank operation)

include lawful sound inside keeps

theorem placed_pass (way : Way) (member : way.pass stage microbatch ∈ rankPlan.operations) :
    stage ∈ plan.layout.stagesOf rankPlan.rank ∧ microbatch < plan.microbatches := by
  obtain ⟨owned, named⟩ := lawful.named member
  -- A backward is of a stage and a micro-batch that a forward was of.
  have within : stage.logical < plan.layout.stageCount ∧ microbatch < plan.microbatches := by
    cases way with
    | forward => exact keeps _ member
    | backward =>
        obtain ⟨operation, listed, keyed⟩ := List.mem_filterMap.mp (lawful.forwarded member)
        obtain ⟨other, another, rfl, same⟩ := Way.key?_eq_some keyed
        obtain ⟨logical, rfl⟩ := Prod.mk.inj same
        rw [logical]
        exact keeps _ listed
  exact ⟨(Layout.mem_stagesOf sound inside).mpr ⟨⟨within.1, named⟩, owned⟩, within.2⟩

theorem placed_weights (member : .backwardWeights stage microbatch ∈ rankPlan.operations) :
    stage ∈ plan.layout.stagesOf rankPlan.rank ∧ microbatch < plan.microbatches := by
  obtain ⟨operation, listed, keyed⟩ := List.mem_filterMap.mp (lawful.backwarded member).2
  obtain ⟨other, another, rfl, same⟩ := Way.key?_eq_some keyed
  obtain ⟨logical, rfl⟩ := Prod.mk.inj same
  obtain ⟨held, within⟩ := lawful.placed_pass sound inside keeps .backward listed
  have known := ((Layout.mem_stagesOf sound inside).mp held).1
  have named : plan.layout.stageAt stage.logical = stage := keeps _ member
  rw [← named, logical, known.named]
  exact ⟨held, within⟩

theorem covers : plan.Covers rankPlan := by
  constructor
  case passes =>
    intro way stage microbatch
    refine Layout.tallied sound inside way.key?_pass
      (fun before operation after key => lawful.fresh_pass way) ?_ (lawful.passes way)
    intro operation member key keyed
    obtain ⟨stage, microbatch, rfl, _⟩ := Way.key?_eq_some keyed
    exact ⟨stage, microbatch, rfl, lawful.placed_pass sound inside keeps way member⟩
  case weights =>
    intro stage microbatch owned below
    by_cases splits : plan.split = true
    · rw [if_pos splits]
      refine Layout.tallied sound inside (fun _ _ => rfl)
        (fun before operation after key => lawful.fresh_weights) ?_ (lawful.weights splits) owned
        below
      intro operation member key keyed
      cases operation with
      | backwardWeights stage microbatch =>
          exact ⟨stage, microbatch, rfl, lawful.placed_weights sound inside keeps member⟩
      | forward | backward | send | receive | optimizerStep | validationSync => cases keyed
    · rw [if_neg splits]
      exact List.count_eq_zero_of_not_mem fun member => splits (lawful.backwarded member).1
  case confined =>
    intro operation member
    have within : ∀ stage microbatch, operation.stage = some stage →
        operation.microbatch = some microbatch →
        stage ∈ plan.layout.stagesOf rankPlan.rank ∧ microbatch < plan.microbatches := by
      rintro stage microbatch here now
      cases operation with
      | forward =>
          cases here
          cases now
          exact lawful.placed_pass sound inside keeps .forward member
      | backward =>
          cases here
          cases now
          exact lawful.placed_pass sound inside keeps .backward member
      | backwardWeights =>
          cases here
          cases now
          exact lawful.placed_weights sound inside keeps member
      | send | receive =>
          cases here
          cases now
          exact keeps _ member
      | optimizerStep | validationSync => cases here
    -- Whatever has a stage has a micro-batch.
    cases operation with
    | optimizerStep | validationSync => exact ⟨nofun, nofun⟩
    | forward | backward | backwardWeights | send | receive =>
        obtain ⟨held, below⟩ := within _ _ rfl rfl
        exact ⟨fun _ same => Option.some.inj same ▸ held,
          fun _ same => Option.some.inj same ▸ below⟩

end keeps

end Plan.LawfulRank

namespace Plan

variable {plan : Plan} {rankPlan : RankPlan}

theorem Covers.keeps (covers : plan.Covers rankPlan) (sound : plan.layout.Sound)
    (inside : rankPlan.rank < plan.layout.depth) {operation : Operation}
    (member : operation ∈ rankPlan.operations) : plan.Keeps rankPlan.rank operation := by
  obtain ⟨held, below⟩ := covers.confined operation member
  cases operation with
  | forward stage microbatch =>
      have known := ((Layout.mem_stagesOf sound inside).mp (held stage rfl)).1
      exact ⟨known.inside, below microbatch rfl⟩
  | backwardWeights stage microbatch =>
      exact ((Layout.mem_stagesOf sound inside).mp (held stage rfl)).1.named
  | send peer transfer => exact ⟨held _ rfl, below _ rfl⟩
  | receive peer transfer => exact ⟨held _ rfl, below _ rfl⟩
  | backward | optimizerStep | validationSync => trivial

theorem Numbered.only {plan : Plan} (numbered : plan.Numbered) {rank : Nat} {rankPlan : RankPlan}
    (found : plan.rankPlan? rank = some rankPlan) :
    plan.ranks.filter (fun other => other.rank == rank) = [rankPlan] := by
  obtain ⟨inside, rfl⟩ := List.getElem?_eq_some_iff.mp found
  have number : ∀ index (within : index < plan.ranks.length), plan.ranks[index].rank = index :=
    fun index within => numbered index _ (List.getElem?_eq_getElem within)
  have split := (List.take_append_drop rank plan.ranks).symm
  rw [List.drop_eq_getElem_cons inside] at split
  have before : (plan.ranks.take rank).filter (fun other => other.rank == rank) = [] := by
    refine List.filter_eq_nil_iff.mpr fun other member => ?_
    obtain ⟨index, below, rfl⟩ := List.mem_take_iff_getElem.mp member
    rw [number, beq_iff_eq]
    omega
  have behind : (plan.ranks.drop (rank + 1)).filter (fun other => other.rank == rank) = [] := by
    refine List.filter_eq_nil_iff.mpr fun other member => ?_
    obtain ⟨index, below, rfl⟩ := List.mem_drop_iff_getElem.mp member
    rw [number, beq_iff_eq]
    omega
  calc plan.ranks.filter (fun other => other.rank == rank)
    _ = (plan.ranks.take rank ++ plan.ranks[rank] :: plan.ranks.drop (rank + 1)).filter
          (fun other => other.rank == rank) := congrArg _ split
    _ = [plan.ranks[rank]] := by
          rw [List.filter_append, before, List.nil_append, List.filter_cons_of_pos, behind]
          exact beq_iff_eq.mpr (number rank inside)

end Plan

namespace Scored

variable {plan : Plan} {course : List (Nat × Operation)} {rank : Nat} {rankPlan : RankPlan}

/-- Whoever follows a course keeps to its stages and to the micro-batches of the plan. -/
theorem keeps (scored : Scored plan course) (found : plan.rankPlan? rank = some rankPlan)
    {operation : Operation} (member : operation ∈ rankPlan.operations) :
    plan.Keeps rank operation := by
  have inside : rank < plan.layout.depth :=
    scored.ranks ▸ (List.getElem?_eq_some_iff.mp found).1
  rw [scored.script rank rankPlan found] at member
  obtain ⟨before, supplied⟩ := (scored.playable rank).supplied_of_mem member
  cases supplied with
  | pass way stage microbatch known owned below =>
      cases way with
      | forward => exact ⟨known.inside, below⟩
      | backward => trivial
  | weights stage microbatch known => exact known.named
  | receive way source stage microbatch known owned below =>
      exact ⟨(Layout.mem_stagesOf scored.sound inside).mpr ⟨known, owned⟩, below⟩
  | send way stage target microbatch known owned below =>
      exact ⟨(Layout.mem_stagesOf scored.sound inside).mpr ⟨known, owned⟩, below⟩
  | optimizer | sync => trivial

end Scored

namespace Plan

variable {plan : Plan}

/-- An accepted plan is covered exactly if every rank has one plan, and no operation strays where
the check does not look. -/
theorem covered_iff {topology : Topology} {chunks : Nat} {placement : Placement}
    (ranks : 0 < topology.depth) (laid : topology.layout chunks placement = .ok plan.layout)
    (accepted : plan.verify = .ok ()) :
    plan.Covered ↔ ∀ rank < plan.layout.depth, ∃ rankPlan,
      plan.ranks.filter (fun other => other.rank == rank) = [rankPlan] ∧
        ∀ operation ∈ rankPlan.operations, plan.Keeps rank operation := by
  obtain ⟨sound, _⟩ := Topology.layout_ok ranks laid
  have lawful := verify_eq_ok.mp accepted
  refine forall₂_congr fun rank inside => exists_congr fun rankPlan => ?_
  refine and_congr_right fun only => ?_
  have listed : rankPlan ∈ plan.ranks.filter (fun other => other.rank == rank) := by
    rw [only]
    exact List.mem_singleton_self rankPlan
  obtain ⟨member, owned⟩ := List.mem_filter.mp listed
  obtain rfl : rankPlan.rank = rank := beq_iff_eq.mp owned
  constructor
  · exact fun covers operation member => covers.keeps sound inside member
  · exact (lawful.ranks rankPlan member).covers sound inside

/-- What the clock plans for two folded ranks that split their backwards. -/
theorem covered_iff_folded :
    let blueprint : Blueprint := ⟨⟨2, 4, none⟩, 2, 3, 2, .vShape, true, true, ⟨2, 3, 1, 4⟩⟩
    ∃ plan, blueprint.build = .ok plan ∧ plan.Covered := by
  intro blueprint
  let layout : Layout := ⟨2, 2, 1, .vShape⟩
  have laid : (Topology.mk 2 4 none).layout 2 .vShape = .ok layout := rfl
  obtain ⟨timelines, built⟩ := blueprint.exists_build (by decide) rfl rfl laid (by decide)
  obtain ⟨course, scored⟩ := Blueprint.scored_of_build (by decide) built
  refine ⟨_, built, (covered_iff (by decide) laid (Blueprint.verified_of_build built)).mpr ?_⟩
  intro rank inside
  have counted : rank < (blueprint.assemble layout timelines).ranks.length := by
    rwa [scored.ranks]
  have found := List.getElem?_eq_getElem counted
  exact ⟨_, Blueprint.assemble_numbered.only found,
    fun operation member => scored.keeps found member⟩

/-- A rank with two chunks whose plan runs the first of them for two micro-batches instead of
both for one. -/
def lopsided : Plan where
  layout := ⟨1, 2, 1, .interleaved⟩
  microbatches := 1
  memoryLimit := 1
  split := false
  validates := false
  ranks := [⟨0, [.forward ⟨0, 0⟩ 0, .backward ⟨0, 0⟩ 0, .forward ⟨0, 0⟩ 1, .backward ⟨0, 0⟩ 1,
    .optimizerStep]⟩]
  statistics := ⟨0, [], []⟩

theorem lopsided_not_covered :
    (Topology.mk 1 2 none).layout 2 .interleaved = .ok lopsided.layout ∧
      lopsided.verify = .ok () ∧ ¬ lopsided.Covered := by
  refine ⟨rfl, rfl, ?_⟩
  intro covered
  obtain ⟨rankPlan, only, covers⟩ := covered 0 (by decide)
  obtain rfl := List.singleton_inj.mp only
  exact absurd (covers.passes .forward ⟨1, 1⟩ 0 (by decide) (by decide)) (by decide)

end Plan
end PipelineTraining
