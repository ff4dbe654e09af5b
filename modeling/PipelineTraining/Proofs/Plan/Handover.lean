import PipelineTraining.Proofs.Plan.Acceptance

/-!
What a plan adds to the timelines of the clock: the closing steps and the transfers, each
where it is needed. A payload for another rank goes out right behind the pass that makes it
and comes in right in front of the pass that takes it.
-/

namespace PipelineTraining

open Course

def Operation.payload? : Operation → Option Transfer
  | .send _ transfer => some transfer
  | .receive _ transfer => some transfer
  | _ => none

namespace Plan

structure HandsOver (plan : Plan) (way : Way) (source target : StageId) (microbatch : Nat) :
    Prop where
  sent : ∃ rankPlan, plan.rankPlan? (plan.layout.rankOf source) = some rankPlan ∧
    let send := Operation.send (plan.layout.rankOf target) (way.transfer source target microbatch)
    rankPlan.operations.count send = 1 ∧
      [way.pass source microbatch, send] <:+: rankPlan.operations
  received : ∃ rankPlan, plan.rankPlan? (plan.layout.rankOf target) = some rankPlan ∧
    let receive :=
      Operation.receive (plan.layout.rankOf source) (way.transfer source target microbatch)
    rankPlan.operations.count receive = 1 ∧
      [receive, way.pass target microbatch] <:+: rankPlan.operations

/-- A stage and the one behind it: on different ranks they hand activations down and gradients up,
on one rank there is nothing to transfer. -/
structure Joins (plan : Plan) (upper lower : StageId) (microbatch : Nat) : Prop where
  across : plan.layout.rankOf lower ≠ plan.layout.rankOf upper →
    plan.HandsOver .forward upper lower microbatch ∧ plan.HandsOver .backward lower upper microbatch
  within : plan.layout.rankOf lower = plan.layout.rankOf upper →
    ∀ rankPlan ∈ plan.ranks, ∀ operation ∈ rankPlan.operations,
      operation.payload? ≠ some (.activation upper lower microbatch) ∧
        operation.payload? ≠ some (.gradient lower upper microbatch)

end Plan

namespace Scored

variable {plan : Plan} {course : List (Nat × Operation)} {rank : Nat} {rankPlan : RankPlan}

theorem count_eq_one (scored : Scored plan course) (found : plan.rankPlan? rank = some rankPlan)
    {operation : Operation} (member : (rank, operation) ∈ course) :
    rankPlan.operations.count operation = 1 := by
  rw [scored.script rank rankPlan found]
  exact List.count_eq_one_of_mem (scored.playable rank).noDup (mem_partOf.mpr member)

theorem crossing_of_transfer (scored : Scored plan course)
    (found : plan.rankPlan? rank = some rankPlan) {operation : Operation}
    (member : operation ∈ rankPlan.operations) (moves : operation.isTransfer = true) :
    ∃ (side : Side) (delivery : Delivery), Crossing plan.layout delivery ∧
      delivery.transfer.microbatch < plan.microbatches ∧ rank = side.rank delivery ∧
      operation = side.operation delivery := by
  obtain ⟨side, delivery, ends⟩ := Side.exists_delivery? rank moves
  obtain ⟨rfl, rfl⟩ := Side.delivery?_eq_some.mp ends
  rw [scored.script _ rankPlan found] at member
  obtain ⟨crossing, inside⟩ := scored.crossing side (mem_partOf.mp member)
  exact ⟨side, delivery, crossing, inside, rfl, rfl⟩

/-- Stages of one rank exchange nothing. -/
theorem no_transfer (scored : Scored plan course) (way : Way) {source target : StageId}
    {microbatch : Nat} (here : plan.layout.rankOf target = plan.layout.rankOf source)
    (listed : rankPlan ∈ plan.ranks) {operation : Operation}
    (member : operation ∈ rankPlan.operations) :
    operation.payload? ≠ some (way.transfer source target microbatch) := by
  intro moved
  obtain ⟨rank, found⟩ := List.getElem?_of_mem listed
  have moves : operation.isTransfer = true := by
    cases operation with
    | send | receive => rfl
    | forward | backward | backwardWeights | optimizerStep | validationSync => cases moved
  obtain ⟨side, delivery, crossing, _, _, rfl⟩ := scored.crossing_of_transfer found member moves
  have carried : delivery.transfer = way.transfer source target microbatch := by
    cases side <;> exact Option.some.inj moved
  cases crossing with
  | pass other origin goal another known reached away =>
      obtain ⟨_, rfl, rfl, _⟩ := Transfer.mk.inj carried
      exact away here

end Scored

namespace Blueprint

variable {blueprint : Blueprint} {layout : Layout} {timelines : List (List TimedAction)}
  {rank : Nat} {rankPlan : RankPlan}

theorem wrap_withoutTransfers (layout : Layout) (rank : Nat) (action : Action) :
    (wrap layout rank action).filter (fun operation => !operation.isTransfer) =
      [action.operation] := by
  rcases Way.action_cases action with ⟨way, stage, microbatch, rfl⟩ | ⟨pass, rfl⟩
  · rw [wrap_pass]
    rcases receiveFrom_cases layout rank (way.source layout stage)
        (way.transfer · stage microbatch) with received | ⟨_, _, _, received⟩ <;>
    rcases sendTo_cases layout rank (way.target layout stage)
        (way.transfer stage · microbatch) with sent | ⟨_, _, _, sent⟩ <;>
    rw [received, sent] <;> cases way <;> rfl
  · rfl

theorem expand_withoutTransfers (validates : Bool) (layout : Layout) (rank : Nat)
    (timeline : List TimedAction) :
    (expand validates layout rank timeline).withoutTransfers =
      timeline.map (fun timed => timed.action.operation) ++ Plan.closing validates := by
  have closed : (Plan.closing validates).filter (fun operation => !operation.isTransfer) =
      Plan.closing validates := by
    cases validates <;> rfl
  rw [RankPlan.withoutTransfers, expand, List.filter_append, closed, List.filter_flatMap,
    List.map_eq_flatMap]
  simp only [wrap_withoutTransfers]

theorem closing_pass (way : Way) {validates : Bool} {stage : StageId} {microbatch : Nat} :
    way.pass stage microbatch ∉ Plan.closing validates := by
  intro member
  have none := Plan.closing_action? member
  rw [way.action?_pass] at none
  cases none

theorem wrap_unbroken (way : Way) {stage : StageId} {microbatch : Nat}
    (found : (blueprint.assemble layout timelines).rankPlan? rank = some rankPlan)
    (member : way.pass stage microbatch ∈ rankPlan.operations) :
    wrap layout rank (way.action (stage, microbatch)) <:+: rankPlan.operations := by
  simp only [Plan.rankPlan?, assemble, List.getElem?_mapIdx, Option.map_eq_some_iff] at found
  obtain ⟨timeline, _, rfl⟩ := found
  rcases List.mem_append.mp member with acting | closing
  · obtain ⟨timed, listed, wrapped⟩ := List.mem_flatMap.mp acting
    have same := (action?_of_wrap wrapped).symm.trans (way.action?_pass stage microbatch)
    obtain ⟨front, back, split⟩ := List.append_of_mem listed
    rw [← Option.some.inj same]
    refine ⟨front.flatMap fun timed => wrap layout rank timed.action,
      (back.flatMap fun timed => wrap layout rank timed.action) ++
        Plan.closing blueprint.validates, ?_⟩
    rw [expand, split, List.flatMap_append, List.flatMap_cons]
    simp only [List.append_assoc]
  · exact absurd closing (closing_pass way)

theorem handsOver {course : List (Nat × Operation)}
    (scored : Scored (blueprint.assemble layout timelines) course) (way : Way)
    {source target : StageId} {microbatch : Nat} (known : layout.IsStage source)
    (found : way.target layout source = some target)
    (away : layout.rankOf target ≠ layout.rankOf source)
    (inside : microbatch < blueprint.microbatches) :
    (blueprint.assemble layout timelines).HandsOver way source target microbatch := by
  have crossing : Crossing layout _ := .pass way source target microbatch known found away
  constructor
  case sent =>
    have sent : (layout.rankOf source, Operation.send (layout.rankOf target)
        (way.transfer source target microbatch)) ∈ course :=
      scored.exchanged .sender crossing inside
    obtain ⟨rankPlan, filed, _⟩ := scored.filed sent
    have passed : way.pass source microbatch ∈ rankPlan.operations := by
      rw [scored.script _ rankPlan filed]
      exact mem_partOf.mpr (scored.passes way source microbatch known inside)
    refine ⟨rankPlan, filed, scored.count_eq_one filed sent, ?_⟩
    refine List.IsInfix.trans (List.IsSuffix.isInfix ?_) (wrap_unbroken way filed passed)
    refine ⟨receiveFrom layout (layout.rankOf source) (way.source layout source)
      (way.transfer · source microbatch), ?_⟩
    rw [wrap_pass, found, sendTo]
    simp [assemble, away]
  case received =>
    have received : (layout.rankOf target, Operation.receive (layout.rankOf source)
        (way.transfer source target microbatch)) ∈ course :=
      scored.exchanged .receiver crossing inside
    obtain ⟨rankPlan, filed, _⟩ := scored.filed received
    have placed := way.isStage_target known found
    have passed : way.pass target microbatch ∈ rankPlan.operations := by
      rw [scored.script _ rankPlan filed]
      exact mem_partOf.mpr (scored.passes way target microbatch placed inside)
    refine ⟨rankPlan, filed, scored.count_eq_one filed received, ?_⟩
    refine List.IsInfix.trans (List.IsPrefix.isInfix ?_) (wrap_unbroken way filed passed)
    refine ⟨sendTo layout (layout.rankOf target) (way.target layout target)
      (way.transfer target · microbatch), ?_⟩
    rw [wrap_pass, way.source_of_target known found, receiveFrom]
    simp [assemble, away.symm]

theorem joins {course : List (Nat × Operation)}
    (scored : Scored (blueprint.assemble layout timelines) course) {logical microbatch : Nat}
    (within : logical + 1 < layout.stageCount) (inside : microbatch < blueprint.microbatches) :
    (blueprint.assemble layout timelines).Joins (layout.stageAt logical)
      (layout.stageAt (logical + 1)) microbatch := by
  have upper : layout.IsStage (layout.stageAt logical) := Layout.isStage_stageAt (by omega)
  have lower := Layout.isStage_stageAt within
  have below : layout.next (layout.stageAt logical) = some (layout.stageAt (logical + 1)) :=
    Layout.next_eq_some.mpr ⟨Nat.ne_of_lt within, rfl⟩
  have above := Layout.prev_of_next upper below
  constructor
  case across =>
    intro away
    exact ⟨handsOver scored .forward upper below away inside,
      handsOver scored .backward lower above away.symm inside⟩
  case within =>
    intro here rankPlan listed operation member
    exact ⟨scored.no_transfer .forward here listed member,
      scored.no_transfer .backward here.symm listed member⟩

/-- What a built plan is made of: the timeline of every rank and its closing steps, and between
neighbouring stages the transfers that they need. -/
theorem build_hands_over {plan : Plan} (ranks : 0 < blueprint.topology.depth)
    (built : blueprint.build = .ok plan) :
    blueprint.topology.layout blueprint.chunks blueprint.placement = .ok plan.layout ∧
      ∃ timelines, (blueprint.workload plan.layout).simulate = .ok timelines ∧
        plan.ranks.length = timelines.length ∧
        (∀ rank rankPlan, plan.rankPlan? rank = some rankPlan → rankPlan.rank = rank ∧
          ∃ timeline, timelines[rank]? = some timeline ∧ rankPlan.withoutTransfers =
            timeline.map (fun timed => timed.action.operation) ++
              .optimizerStep :: if blueprint.validates then [.validationSync] else []) ∧
        (∀ logical microbatch, logical + 1 < plan.layout.stageCount →
          microbatch < blueprint.microbatches → plan.Joins (plan.layout.stageAt logical)
            (plan.layout.stageAt (logical + 1)) microbatch) ∧
        ∀ rank rankPlan operation, plan.rankPlan? rank = some rankPlan →
          operation ∈ rankPlan.operations → operation.isTransfer = true →
          ∃ (side : Side) (delivery : Delivery), Crossing plan.layout delivery ∧
            delivery.transfer.microbatch < blueprint.microbatches ∧ rank = side.rank delivery ∧
            operation = side.operation delivery := by
  obtain ⟨busy, limit, layout, timelines, laid, timed, rfl⟩ := build_ok built
  obtain ⟨sound, _⟩ := Topology.layout_ok ranks laid
  obtain ⟨log, final, history, done, rfl⟩ := (blueprint.workload layout).simulated timed
  have scored := scored_of_history sound busy limit history done
  refine ⟨laid, _, timed, List.length_mapIdx, ?_, ?_, ?_⟩
  · intro rank rankPlan found
    refine ⟨assemble_numbered rank rankPlan found, ?_⟩
    simp only [Plan.rankPlan?, assemble, List.getElem?_mapIdx, Option.map_eq_some_iff] at found
    obtain ⟨timeline, present, rfl⟩ := found
    refine ⟨timeline, present, ?_⟩
    rw [expand_withoutTransfers]
    cases blueprint.validates <;> rfl
  · exact fun logical microbatch within inside => joins scored within inside
  · exact fun rank rankPlan operation found member moves =>
      scored.crossing_of_transfer found member moves

/-- Two ranks with two chunks each: from the last rank the pipeline goes back to the first. -/
theorem build_hands_over_around :
    let blueprint : Blueprint :=
      ⟨⟨2, 4, none⟩, 2, 3, 2, .interleaved, false, true, .uniform⟩
    ∃ plan, blueprint.build = .ok plan ∧
      plan.HandsOver .forward (plan.layout.stageAt 1) (plan.layout.stageAt 2) 0 ∧
      plan.HandsOver .backward (plan.layout.stageAt 2) (plan.layout.stageAt 1) 0 := by
  intro blueprint
  let layout : Layout := ⟨2, 2, 1, .interleaved⟩
  have laid : (Topology.mk 2 4 none).layout 2 .interleaved = .ok layout := rfl
  obtain ⟨timelines, built⟩ := blueprint.exists_build (by decide) rfl rfl laid (by decide)
  obtain ⟨_, _, _, _, _, joins, _⟩ := build_hands_over (by decide) built
  have around := joins 1 0 (show 2 < layout.stageCount by decide) (by decide)
  have away : layout.rankOf (layout.stageAt 2) ≠ layout.rankOf (layout.stageAt 1) := by decide
  exact ⟨_, built, around.across away⟩

end Blueprint
end PipelineTraining
