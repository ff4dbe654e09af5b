import PipelineTraining.Proofs.Plan.Acceptance

/-!
The plan of a single rank, whatever the order of its operations. Nothing crosses ranks, and
what is listed are the passes of all stages for all micro-batches and the closing steps,
each once.
-/

namespace PipelineTraining

open Course

namespace Plan

def Holds (plan : Plan) (stage : StageId) (microbatch : Nat) : Prop :=
  plan.layout.IsStage stage ∧ microbatch < plan.microbatches

def Homely (plan : Plan) : Operation → Prop
  | .forward stage microbatch => plan.Holds stage microbatch
  | .backward stage microbatch => plan.Holds stage microbatch
  | .backwardWeights stage microbatch => plan.Holds stage microbatch ∧ plan.split = true
  | .send _ _ => False
  | .receive _ _ => False
  | .optimizerStep => True
  | .validationSync => True

structure Solitary (plan : Plan) (operations : List Operation) : Prop where
  sound : plan.layout.Sound
  alone : plan.layout.depth = 1
  limit : 0 < plan.memoryLimit
  once : operations.Nodup
  homely : ∀ operation ∈ operations, plan.Homely operation
  complete : ∀ (way : Way) stage microbatch, plan.Holds stage microbatch →
    way.pass stage microbatch ∈ operations
  passes : ∀ way : Way, (operations.filterMap way.key?).length = plan.passesPerRank
  weights : plan.split = true →
    (operations.filterMap Operation.weightKey?).length = plan.passesPerRank
  ends : .optimizerStep ∈ operations

def reordered (plan : Plan) (operations : List Operation) : Plan :=
  { plan with ranks := [⟨0, operations⟩] }

variable {plan : Plan} {operations others part : List Operation} {stage : StageId}
  {microbatch : Nat}

namespace Solitary

theorem perm (solitary : plan.Solitary operations) (permuted : others.Perm operations) :
    plan.Solitary others where
  sound := solitary.sound
  alone := solitary.alone
  limit := solitary.limit
  once := permuted.nodup_iff.mpr solitary.once
  homely operation member := solitary.homely operation (permuted.subset member)
  complete way stage microbatch held :=
    permuted.symm.subset (solitary.complete way stage microbatch held)
  passes way := (permuted.filterMap way.key?).length_eq.trans (solitary.passes way)
  weights split := (permuted.filterMap _).length_eq.trans (solitary.weights split)
  ends := permuted.symm.subset solitary.ends

/-- No field of a plan but the layout, the counts and the flags matters to its one rank. -/
theorem reordered (solitary : plan.Solitary operations) :
    (plan.reordered operations).Solitary operations := by
  obtain ⟨sound, alone, limit, once, homely, complete, passes, weights, ends⟩ := solitary
  refine ⟨sound, alone, limit, once, fun operation member => ?_, complete, passes, weights, ends⟩
  have listed := homely operation member
  cases operation <;> exact listed

theorem rankOf (solitary : plan.Solitary operations) (known : plan.layout.IsStage stage) :
    plan.layout.rankOf stage = 0 := by
  have inside := known.rank_lt solitary.sound
  rw [solitary.alone] at inside
  exact Nat.lt_one_iff.mp inside

theorem holds_of_mem (solitary : plan.Solitary operations) {way : Way}
    (member : way.pass stage microbatch ∈ operations) : plan.Holds stage microbatch := by
  have homely := solitary.homely _ member
  cases way <;> exact homely

theorem mem_keys (solitary : plan.Solitary operations) (among : part ⊆ operations) {way : Way}
    (known : plan.layout.IsStage stage) :
    (stage.logical, microbatch) ∈ part.filterMap way.key? ↔ way.pass stage microbatch ∈ part := by
  rw [List.mem_filterMap]
  constructor
  · rintro ⟨operation, member, keyed⟩
    obtain ⟨other, another, rfl, same⟩ := Way.key?_eq_some keyed
    obtain ⟨logical, rfl⟩ := Prod.mk.inj same
    rwa [known.eq_of_logical (solitary.holds_of_mem (among member)).1 logical]
  · exact fun member => ⟨_, member, way.key?_pass _ _⟩

theorem keys_nodup (solitary : plan.Solitary operations) (way : Way) :
    (operations.filterMap way.key?).Nodup := by
  refine List.pairwise_filterMap.mpr (solitary.once.imp_of_mem ?_)
  intro first second firstListed secondListed different key keyed other otherKeyed same
  subst same
  obtain ⟨stage, microbatch, rfl, rfl⟩ := Way.key?_eq_some keyed
  obtain ⟨another, micro, rfl, same⟩ := Way.key?_eq_some otherKeyed
  obtain ⟨logical, rfl⟩ := Prod.mk.inj same
  have known := (solitary.holds_of_mem firstListed).1
  exact different (by rw [known.eq_of_logical (solitary.holds_of_mem secondListed).1 logical])

theorem isLast_of_single (solitary : plan.Solitary operations) (single : plan.layout.chunks = 1)
    (known : plan.layout.IsStage stage) : plan.layout.isLast stage = true := by
  have count : plan.layout.stageCount = 1 := by
    rw [Layout.stageCount, solitary.alone, single]
  have inside := known.inside
  rw [count] at inside
  simp only [Layout.isLast, count, beq_iff_eq]
  omega

end Solitary
end Plan

theorem Supplied.homely {plan : Plan} {before : List Operation} {operation : Operation}
    (alone : plan.layout.depth = 1) (supplied : Supplied plan 0 before operation) :
    plan.Homely operation := by
  cases supplied with
  | pass way stage microbatch known _ inside => cases way <;> exact ⟨known, inside⟩
  | weights stage microbatch known _ inside _ split => exact ⟨⟨known, inside⟩, split⟩
  | receive way source stage microbatch known owned inside found away =>
      have many := (way.isStage_source known found).many_of_apart known (by rwa [owned])
      omega
  | send way stage target microbatch known owned inside found away =>
      have many := (way.isStage_target known found).many_of_apart known (by rwa [owned])
      omega
  | optimizer | sync => trivial

namespace Blueprint

variable {blueprint : Blueprint} {plan : Plan} {rankPlan : RankPlan}

theorem solitary_of_build (single : blueprint.topology.depth = 1)
    (built : blueprint.build = .ok plan) (found : plan.rankPlan? 0 = some rankPlan) :
    plan.Solitary rankPlan.operations := by
  obtain ⟨course, scored⟩ := scored_of_build (by omega) built
  have alone : plan.layout.depth = 1 :=
    scored.ranks.symm.trans ((rank_count_of_build built).trans single)
  have numbered : plan.Numbered := by
    obtain ⟨_, _, _, _, _, _, rfl⟩ := build_ok built
    exact assemble_numbered
  have closes := closes_of_build built (List.mem_of_getElem? found)
  have lawful := scored.lawfulRank found (numbered 0 rankPlan found) closes
  have playable := scored.playable 0
  have script := scored.script 0 rankPlan found
  rw [← script] at playable
  constructor
  · exact scored.sound
  · exact alone
  · exact scored.limit
  · exact playable.noDup
  · intro operation member
    obtain ⟨before, supplied⟩ := playable.supplied_of_mem member
    exact supplied.homely alone
  · rintro way stage microbatch ⟨known, inside⟩
    have home : plan.layout.rankOf stage = 0 := by
      have below := known.rank_lt scored.sound
      omega
    have listed := scored.mem_of_pass way known inside
    rwa [home, ← script] at listed
  · exact lawful.passes
  · exact lawful.weights
  · obtain ⟨rest, ends⟩ := Plan.closing_eq plan.validates
    exact closes.subset (ends ▸ List.mem_cons_self)

theorem built_sizes (ranks : 0 < blueprint.topology.depth) (built : blueprint.build = .ok plan) :
    plan.layout.chunks = blueprint.chunks ∧ plan.microbatches = blueprint.microbatches ∧
      plan.memoryLimit = blueprint.memoryLimit := by
  obtain ⟨_, _, _, _, laid, _, rfl⟩ := build_ok built
  exact ⟨(Topology.layout_ok ranks laid).2.2.1, rfl, rfl⟩

end Blueprint
end PipelineTraining
