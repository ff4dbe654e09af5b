import PipelineTraining.Proofs.Plan.Acceptance

/-!
What the check of a plan says about the transfers. It compares what is sent with what is
received, so that no transfer is lost, made twice or taken by a rank that it is not meant for.
That the ranks which exchange a payload are those of its stages, it leaves to the plan.
-/

namespace PipelineTraining

open Course

theorem Crossing.sender_eq {layout : Layout} {delivery : Delivery}
    (crossing : Crossing layout delivery) :
    delivery.sender = layout.rankOf delivery.transfer.source := by
  cases crossing with
  | pass way source target microbatch => rfl

namespace Plan

def Runs (plan : Plan) (microbatch : Nat) : Prop :=
  ∃ rankPlan ∈ plan.ranks, ∃ (way : Way) (stage : StageId),
    way.pass stage microbatch ∈ rankPlan.operations

/-- What the ranks have to exchange: whatever crosses, for every micro-batch of the plan. -/
def Due (plan : Plan) (delivery : Delivery) : Prop :=
  Crossing plan.layout delivery ∧ plan.Runs delivery.transfer.microbatch

/-- Whatever is due goes out once and comes in once, and nothing else does. -/
structure Exchanged (plan : Plan) : Prop where
  due : ∀ delivery, plan.Due delivery → ∀ side, (plan.deliveries side).count delivery = 1
  only : ∀ side, ∀ delivery ∈ plan.deliveries side, plan.Due delivery

variable {plan : Plan}

theorem Lawful.matched_perm (lawful : plan.Lawful) :
    (plan.deliveries .sender).Perm (plan.deliveries .receiver) :=
  (List.perm_ext_iff_of_nodup (lawful.once .sender) (lawful.once .receiver)).mpr lawful.matched

theorem Lawful.mem_deliveries (lawful : plan.Lawful) (side : Side) {delivery : Delivery} :
    delivery ∈ plan.deliveries side ↔ delivery ∈ plan.deliveries .sender := by
  cases side with
  | sender => rfl
  | receiver => exact (lawful.matched delivery).symm

/-- In an accepted plan every transfer is made once and taken once between the ranks that it
names. These are the right ones everywhere exactly if what is sent is what is due. -/
theorem exchanged_iff (accepted : plan.verify = .ok ()) :
    (∀ delivery, (plan.deliveries .sender).count delivery =
        (plan.deliveries .receiver).count delivery ∧
      (plan.deliveries .sender).count delivery ≤ 1) ∧
      (plan.Exchanged ↔ ∀ delivery, delivery ∈ plan.deliveries .sender ↔ plan.Due delivery) := by
  have lawful := verify_eq_ok.mp accepted
  constructor
  · intro delivery
    exact ⟨lawful.matched_perm.count_eq delivery,
      List.nodup_iff_count_le_one.mp (lawful.once .sender) delivery⟩
  constructor
  · intro exchanged delivery
    constructor
    · exact exchanged.only .sender delivery
    · intro due
      have once := exchanged.due delivery due .sender
      exact List.count_pos_iff.mp (Nat.lt_of_lt_of_eq Nat.one_pos once.symm)
  · intro sent
    constructor
    case due =>
      intro delivery due side
      refine List.count_eq_one_of_mem (lawful.once side) ?_
      rw [lawful.mem_deliveries side, sent]
      exact due
    case only =>
      intro side delivery member
      rw [lawful.mem_deliveries side, sent] at member
      exact member

theorem runs_iff {course : List (Nat × Operation)} (scored : Scored plan course)
    {microbatch : Nat} : plan.Runs microbatch ↔ microbatch < plan.microbatches := by
  constructor
  · rintro ⟨rankPlan, member, way, stage, passed⟩
    obtain ⟨rank, found⟩ := List.getElem?_of_mem member
    rw [scored.script rank rankPlan found] at passed
    exact ((scored.playable rank).known_pass passed).2.2
  · intro inside
    have known := Layout.isStage_stageAt (Layout.stageCount_pos scored.sound)
    have passed := scored.passes .forward _ _ known inside
    obtain ⟨rankPlan, found, member⟩ := scored.filed passed
    exact ⟨rankPlan, List.mem_of_getElem? found, .forward, _, member⟩

/-- What the clock plans for two ranks that hand on around the ring. -/
theorem exchanged_iff_around :
    let blueprint : Blueprint := ⟨⟨2, 4, none⟩, 2, 3, 2, .interleaved, false, true, .uniform⟩
    ∃ plan, blueprint.build = .ok plan ∧ plan.Exchanged := by
  intro blueprint
  let layout : Layout := ⟨2, 2, 1, .interleaved⟩
  have laid : (Topology.mk 2 4 none).layout 2 .interleaved = .ok layout := rfl
  obtain ⟨timelines, built⟩ := blueprint.exists_build (by decide) rfl rfl laid (by decide)
  obtain ⟨course, scored⟩ := Blueprint.scored_of_build (by decide) built
  refine ⟨_, built, (exchanged_iff (Blueprint.verified_of_build built)).2.mpr ?_⟩
  intro delivery
  rw [Blueprint.assemble_numbered.mem_deliveries scored, Due, runs_iff scored]

/-- Two ranks that exchange the right payloads the wrong way round. -/
def crossed : Plan where
  layout := ⟨2, 1, 1, .interleaved⟩
  microbatches := 1
  memoryLimit := 1
  split := false
  validates := false
  ranks := [
    ⟨0, [.forward ⟨0, 0⟩ 0, .receive 1 (.activation ⟨0, 0⟩ ⟨0, 1⟩ 0),
      .send 1 (.gradient ⟨0, 1⟩ ⟨0, 0⟩ 0), .backward ⟨0, 0⟩ 0, .optimizerStep]⟩,
    ⟨1, [.send 0 (.activation ⟨0, 0⟩ ⟨0, 1⟩ 0), .forward ⟨0, 1⟩ 0, .backward ⟨0, 1⟩ 0,
      .receive 0 (.gradient ⟨0, 1⟩ ⟨0, 0⟩ 0), .optimizerStep]⟩]
  statistics := ⟨0, [], []⟩

theorem crossed_not_exchanged :
    (Topology.mk 2 2 none).layout 1 .interleaved = .ok crossed.layout ∧
      crossed.verify = .ok () ∧ ¬ crossed.Exchanged := by
  refine ⟨rfl, rfl, ?_⟩
  intro exchanged
  have sent : ⟨1, 0, .activation ⟨0, 0⟩ ⟨0, 1⟩ 0⟩ ∈ crossed.deliveries .sender := by decide
  have owner := (exchanged.only .sender _ sent).1.sender_eq
  exact absurd owner (by decide)

end Plan
end PipelineTraining
