import PipelineTraining.Proofs.Plan.Lawful

/-!
What the ranks hand on to each other. A pass whose next stage lies on another rank
crosses over, and what a course sends and receives is exactly what crosses.
-/

namespace PipelineTraining

open Course

inductive Crossing (layout : Layout) : Delivery → Prop
  | pass (way : Way) (source target : StageId) (microbatch : Nat)
      (known : layout.IsStage source) (found : way.target layout source = some target)
      (away : layout.rankOf target ≠ layout.rankOf source) :
      Crossing layout
        ⟨layout.rankOf source, layout.rankOf target, way.transfer source target microbatch⟩

namespace Side

def rank : Side → Delivery → Nat
  | .sender => Delivery.sender
  | .receiver => Delivery.receiver

def operation : Side → Delivery → Operation
  | .sender, delivery => .send delivery.receiver delivery.transfer
  | .receiver, delivery => .receive delivery.sender delivery.transfer

theorem delivery?_eq_some {side : Side} {rank : Nat} {operation : Operation}
    {delivery : Delivery} :
    side.delivery? rank operation = some delivery ↔
      side.rank delivery = rank ∧ side.operation delivery = operation := by
  constructor
  · intro found
    cases side <;> cases operation <;> cases found <;> exact ⟨rfl, rfl⟩
  · rintro ⟨rfl, rfl⟩
    cases side <;> rfl

theorem exists_delivery? (rank : Nat) {operation : Operation}
    (moves : operation.isTransfer = true) :
    ∃ (side : Side) (delivery : Delivery), side.delivery? rank operation = some delivery := by
  cases operation with
  | send => exact ⟨.sender, _, rfl⟩
  | receive => exact ⟨.receiver, _, rfl⟩
  | forward | backward | backwardWeights | optimizerStep | validationSync => cases moves

theorem mem_deliveries {side : Side} {rankPlan : RankPlan} {delivery : Delivery} :
    delivery ∈ side.deliveries rankPlan ↔
      side.rank delivery = rankPlan.rank ∧ side.operation delivery ∈ rankPlan.operations := by
  simp only [deliveries, List.mem_filterMap, delivery?_eq_some]
  constructor
  · rintro ⟨_, member, rank, rfl⟩
    exact ⟨rank, member⟩
  · rintro ⟨rank, member⟩
    exact ⟨_, member, rank, rfl⟩

theorem deliveries_nodup {side : Side} {rankPlan : RankPlan}
    (noDup : rankPlan.operations.Nodup) : (side.deliveries rankPlan).Nodup := by
  refine noDup.filterMap fun first second delivery here there => ?_
  have left := (delivery?_eq_some.mp here).2
  have right := (delivery?_eq_some.mp there).2
  exact left.symm.trans right

end Side

namespace Scored

variable {plan : Plan} {course : List (Nat × Operation)} {delivery : Delivery}

theorem filed (scored : Scored plan course) {rank : Nat} {operation : Operation}
    (member : (rank, operation) ∈ course) : ∃ rankPlan, plan.rankPlan? rank = some rankPlan ∧
      operation ∈ rankPlan.operations := by
  have inside := scored.inside rank operation member
  rw [← scored.ranks] at inside
  have found := List.getElem?_eq_getElem inside
  refine ⟨_, found, ?_⟩
  rw [scored.script rank _ found]
  exact mem_partOf.mpr member

/-- Whoever follows a course sends and receives nothing but what crosses. -/
theorem crossing (scored : Scored plan course) (side : Side)
    (member : (side.rank delivery, side.operation delivery) ∈ course) :
    Crossing plan.layout delivery ∧ delivery.transfer.microbatch < plan.microbatches := by
  obtain ⟨sender, receiver, transfer⟩ := delivery
  have playable := scored.playable (side.rank ⟨sender, receiver, transfer⟩)
  have listed := mem_partOf.mpr member
  cases side with
  | sender =>
      obtain ⟨way, source, target, microbatch, rfl, known, _, owned, peer, away, inside, found⟩ :=
        playable.send_cases listed
      change plan.layout.rankOf source = sender at owned
      change receiver ≠ sender at away
      subst owned
      subst peer
      exact ⟨.pass way source target microbatch known found away, inside⟩
  | receiver =>
      obtain ⟨way, source, target, microbatch, rfl, known, other, owned, peer, away, inside,
        found⟩ := playable.receive_cases listed
      change plan.layout.rankOf target = receiver at owned
      change sender ≠ receiver at away
      subst owned
      subst peer
      exact ⟨.pass way source target microbatch known (way.target_of_source other found) away.symm,
        inside⟩

theorem exchanged (scored : Scored plan course) (side : Side)
    (crossing : Crossing plan.layout delivery)
    (inside : delivery.transfer.microbatch < plan.microbatches) :
    (side.rank delivery, side.operation delivery) ∈ course := by
  cases crossing with
  | pass way source target microbatch known found away =>
      have listed := scored.passes way target microbatch (way.isStage_target known found) inside
      obtain ⟨before, after, split⟩ := List.append_of_mem listed
      have supplied := scored.supplied before _ _ after split
      have received : (plan.layout.rankOf target, Operation.receive (plan.layout.rankOf source)
          (way.transfer source target microbatch)) ∈ course := by
        generalize same : way.pass target microbatch = operation at supplied
        cases supplied with
        | pass other stage another _ _ _ fed =>
            obtain ⟨rfl, rfl, rfl⟩ := Way.pass_inj same
            have inflow := fed source (way.source_of_target known found)
            rw [Way.inflow, if_neg away.symm] at inflow
            rw [split]
            exact List.mem_append_left _ (mem_partOf.mp inflow)
        | weights | receive | send | optimizer | sync => cases way <;> cases same
      cases side with
      | receiver => exact received
      | sender =>
          obtain ⟨front, back, split⟩ := List.append_of_mem received
          have sent := scored.sent front _ _ _ back split
          rw [split]
          exact List.mem_append_left _ sent

theorem crosses (scored : Scored plan course) (side : Side) :
    (side.rank delivery, side.operation delivery) ∈ course ↔
      Crossing plan.layout delivery ∧ delivery.transfer.microbatch < plan.microbatches :=
  ⟨scored.crossing side, fun ⟨crossing, inside⟩ => scored.exchanged side crossing inside⟩

end Scored

namespace Plan

def Numbered (plan : Plan) : Prop :=
  ∀ rank rankPlan, plan.rankPlan? rank = some rankPlan → rankPlan.rank = rank

variable {plan : Plan} {course : List (Nat × Operation)} {side : Side}

theorem mem_deliveries {delivery : Delivery} :
    delivery ∈ plan.deliveries side ↔ ∃ rankPlan ∈ plan.ranks,
      side.rank delivery = rankPlan.rank ∧ side.operation delivery ∈ rankPlan.operations := by
  simp only [deliveries, List.mem_flatMap, Side.mem_deliveries]

theorem Numbered.mem_deliveries (numbered : plan.Numbered) (scored : Scored plan course)
    {delivery : Delivery} : delivery ∈ plan.deliveries side ↔
      Crossing plan.layout delivery ∧ delivery.transfer.microbatch < plan.microbatches := by
  rw [Plan.mem_deliveries, ← scored.crosses side]
  constructor
  · rintro ⟨rankPlan, member, owned, listed⟩
    obtain ⟨rank, found⟩ := List.getElem?_of_mem member
    rw [owned, numbered rank rankPlan found, ← mem_partOf, ← scored.script rank rankPlan found]
    exact listed
  · intro member
    obtain ⟨rankPlan, found, listed⟩ := scored.filed member
    exact ⟨rankPlan, List.mem_of_getElem? found, (numbered _ rankPlan found).symm, listed⟩

theorem Numbered.deliveries_nodup (numbered : plan.Numbered) (scored : Scored plan course) :
    (plan.deliveries side).Nodup := by
  refine List.nodup_flatMap.mpr ⟨fun rankPlan member => ?_, ?_⟩
  · obtain ⟨rank, found⟩ := List.getElem?_of_mem member
    apply Side.deliveries_nodup
    rw [scored.script rank rankPlan found]
    exact (scored.playable rank).noDup
  · refine List.pairwise_iff_getElem.mpr fun first second inside within less => ?_
    simp only [Function.onFun, List.disjoint_left]
    intro delivery here there
    -- A delivery names the rank at this end, and no two ranks have one number.
    have left := (Side.mem_deliveries.mp here).1
    have right := (Side.mem_deliveries.mp there).1
    rw [numbered first _ (List.getElem?_eq_getElem inside)] at left
    rw [numbered second _ (List.getElem?_eq_getElem within)] at right
    omega

end Plan
end PipelineTraining
