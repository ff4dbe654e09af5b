import PipelineTraining.Proofs.Plan.Coverage

/-!
What may be relied on once a plan has been checked, wherever it comes from. Every list of
operations keeps its passes in order and within the memory limit by itself, even where two
of them are filed under one rank, and every transfer that is sent is received. Beyond that
the check asks only that passes are of stages which the layout gives to their rank.
-/

namespace PipelineTraining

def pendingAfter (operations : List Operation) : Int :=
  operations.countP (fun operation => operation.kind == .forward) -
    operations.countP (fun operation => operation.kind == .backward)

namespace Plan

structure Disciplined (plan : Plan) (rankPlan : RankPlan) : Prop where
  once : ∀ way : Way, (rankPlan.operations.filterMap way.key?).Nodup
  weightsOnce : (rankPlan.operations.filterMap Operation.weightKey?).Nodup
  backwards : ∀ before stage microbatch after,
    rankPlan.operations = before ++ .backward stage microbatch :: after →
    (stage.logical, microbatch) ∈ before.filterMap Way.forward.key?
  weights : ∀ before stage microbatch after,
    rankPlan.operations = before ++ .backwardWeights stage microbatch :: after →
    plan.split = true ∧ (stage.logical, microbatch) ∈ before.filterMap Way.backward.key?
  forwardCount : rankPlan.count .forward = plan.microbatches * plan.layout.chunks
  backwardCount : rankPlan.count .backward = plan.microbatches * plan.layout.chunks
  weightCount : rankPlan.count .backwardWeights =
    if plan.split then plan.microbatches * plan.layout.chunks else 0
  bounded : ∀ before, before <+: rankPlan.operations →
    0 ≤ pendingAfter before ∧ pendingAfter before ≤ plan.memoryLimit
  drained : pendingAfter rankPlan.operations = 0
  steps : rankPlan.count .optimizerStep = 1
  closes : (if plan.validates then [.optimizerStep, .validationSync] else [.optimizerStep]) <:+
    rankPlan.operations

/-- Passes are of stages that the layout gives to the rank, and the plan has such a rank. -/
def Houses (plan : Plan) (rankPlan : RankPlan) : Prop :=
  ∀ (way : Way) stage microbatch, way.pass stage microbatch ∈ rankPlan.operations →
    plan.layout.places = true ∧ plan.layout.owns rankPlan.rank stage = true ∧
      rankPlan.rank < plan.ranks.length

/-- Over all ranks nothing is sent or received twice, and what is sent is what is received. -/
structure Matched (plan : Plan) : Prop where
  once : ∀ side, (plan.deliveries side).Nodup
  same : ∀ delivery,
    delivery ∈ plan.deliveries .sender ↔ delivery ∈ plan.deliveries .receiver

end Plan

theorem Way.length_keys (way : Way) (operations : List Operation) :
    (operations.filterMap way.key?).length =
      operations.countP (fun operation => operation.kind == (way.pass ⟨0, 0⟩ 0).kind) := by
  rw [List.length_filterMap_eq_countP]
  refine List.countP_congr fun operation _ => ?_
  cases way <;> cases operation <;> simp [key?, pass, Operation.kind]

theorem Operation.length_weightKeys (operations : List Operation) :
    (operations.filterMap weightKey?).length =
      operations.countP (fun operation => operation.kind == .backwardWeights) := by
  rw [List.length_filterMap_eq_countP]
  refine List.countP_congr fun operation _ => ?_
  cases operation <;> simp [weightKey?, kind]

theorem pendingAfter_eq (operations : List Operation) :
    pendingAfter operations = ((operations.filterMap Way.forward.key?).length : Int) -
      (operations.filterMap Way.backward.key?).length := by
  rw [Way.length_keys, Way.length_keys]
  rfl

theorem pendingAfter_snoc (operations : List Operation) (operation : Operation) :
    pendingAfter (operations ++ [operation]) =
      pendingAfter operations + pendingAfter [operation] := by
  simp only [pendingAfter, List.countP_append]
  omega

namespace Plan

variable {plan : Plan} {rankPlan : RankPlan}

namespace LawfulRank

variable (lawful : plan.LawfulRank rankPlan)

include lawful

/-- By induction on the prefix: a forward finds room and a backward finds a forward. -/
theorem bounded {before : List Operation} (front : before <+: rankPlan.operations) :
    0 ≤ pendingAfter before ∧ pendingAfter before ≤ plan.memoryLimit := by
  induction before using List.reverseRecOn with
  | nil => exact ⟨Int.le_refl 0, Int.natCast_nonneg _⟩
  | append_singleton before operation ih =>
      obtain ⟨after, split⟩ := front
      rw [List.append_assoc, List.singleton_append] at split
      have earlier := ih ⟨_, split⟩
      have pending := pendingAfter_eq before
      rw [pendingAfter_snoc]
      cases lawful.admissible before operation after split.symm with
      | forward _ _ _ _ room =>
          change 0 ≤ pendingAfter before + 1 ∧ pendingAfter before + 1 ≤ _
          omega
      | backward _ _ _ _ _ waiting =>
          change 0 ≤ pendingAfter before - 1 ∧ pendingAfter before - 1 ≤ _
          omega
      | weights | send | receive | optimizerStep | validationSync =>
          change 0 ≤ pendingAfter before + 0 ∧ pendingAfter before + 0 ≤ _
          rwa [Int.add_zero]

theorem disciplined : plan.Disciplined rankPlan := by
  have forwards : rankPlan.count .forward = plan.passesPerRank :=
    (Way.forward.length_keys _).symm.trans (lawful.passes .forward)
  have backwards : rankPlan.count .backward = plan.passesPerRank :=
    (Way.backward.length_keys _).symm.trans (lawful.passes .backward)
  constructor
  case once => exact fun way => nodup_of_fresh fun _ _ _ _ => lawful.fresh_pass way
  case weightsOnce => exact nodup_of_fresh fun _ _ _ _ => lawful.fresh_weights
  case backwards =>
    intro before stage microbatch after split
    cases lawful.admissible before _ after split with
    | backward _ _ follows => exact follows
  case weights =>
    intro before stage microbatch after split
    cases lawful.admissible before _ after split with
    | weights splits follows => exact ⟨splits, follows⟩
  case forwardCount => exact forwards
  case backwardCount => exact backwards
  case weightCount =>
    change rankPlan.operations.countP _ = _
    rw [← Operation.length_weightKeys]
    split
    case isTrue splits => exact lawful.weights splits
    case isFalse fused =>
      rw [List.length_eq_zero_iff, List.filterMap_eq_nil_iff]
      intro operation member
      cases operation with
      | backwardWeights stage microbatch => exact absurd (lawful.backwarded member).1 fused
      | forward | backward | send | receive | optimizerStep | validationSync => rfl
  case bounded => exact fun before => lawful.bounded
  case drained =>
    change ((rankPlan.count .forward : Nat) : Int) - rankPlan.count .backward = 0
    rw [forwards, backwards, Int.sub_self]
  case steps => exact lawful.steps
  case closes => exact lawful.closes

theorem houses : plan.Houses rankPlan := by
  intro way stage microbatch member
  obtain ⟨before, after, split⟩ := List.append_of_mem member
  have admissible := lawful.admissible before _ after split
  cases way with
  | forward =>
      cases admissible with
      | forward placed owned _ tracked => exact ⟨placed, owned, tracked⟩
  | backward =>
      cases admissible with
      | backward placed owned _ _ tracked => exact ⟨placed, owned, tracked⟩

end LawfulRank

theorem Disciplined.fresh {key? : Operation → Option (Nat × Nat)}
    {operations before after : List Operation} {operation : Operation} {key : Nat × Nat}
    (once : (operations.filterMap key?).Nodup) (split : operations = before ++ operation :: after)
    (keyed : key? operation = some key) : key ∉ before.filterMap key? := by
  have noDup : ([] ++ operations.filterMap key?).Nodup := once
  exact (fresh_of_nodup noDup split keyed).1

/-- The bounds on all prefixes leave room for a forward and a backward where each stands. -/
theorem Disciplined.admissible (disciplined : plan.Disciplined rankPlan)
    (houses : plan.Houses rankPlan) {before after : List Operation} {operation : Operation}
    (split : rankPlan.operations = before ++ operation :: after) :
    Admissible plan rankPlan.rank before operation := by
  have member : operation ∈ rankPlan.operations := by simp [split]
  have bounds := disciplined.bounded (before ++ [operation]) ⟨after, by simp [split]⟩
  rw [pendingAfter_snoc, pendingAfter_eq before] at bounds
  cases operation with
  | forward stage microbatch =>
      obtain ⟨placed, owned, tracked⟩ := houses .forward stage microbatch member
      change 0 ≤ _ - _ + (1 : Int) ∧ _ - _ + (1 : Int) ≤ _ at bounds
      exact .forward placed owned (Disciplined.fresh (disciplined.once .forward) split rfl) tracked
        (by omega)
  | backward stage microbatch =>
      obtain ⟨placed, owned, tracked⟩ := houses .backward stage microbatch member
      change 0 ≤ _ - _ + (-1 : Int) ∧ _ - _ + (-1 : Int) ≤ _ at bounds
      exact .backward placed owned (disciplined.backwards before stage microbatch after split)
        (Disciplined.fresh (disciplined.once .backward) split rfl) tracked (by omega)
  | backwardWeights stage microbatch =>
      obtain ⟨splits, follows⟩ := disciplined.weights before stage microbatch after split
      exact .weights splits follows (Disciplined.fresh disciplined.weightsOnce split rfl)
  | send => exact .send
  | receive => exact .receive
  | optimizerStep => exact .optimizerStep
  | validationSync => exact .validationSync

theorem Disciplined.lawful (disciplined : plan.Disciplined rankPlan)
    (houses : plan.Houses rankPlan) : plan.LawfulRank rankPlan := by
  constructor
  case admissible => exact fun _ _ _ => disciplined.admissible houses
  case passes =>
    intro way
    rw [Way.length_keys]
    cases way with
    | forward => exact disciplined.forwardCount
    | backward => exact disciplined.backwardCount
  case weights =>
    intro splits
    rw [Operation.length_weightKeys]
    exact disciplined.weightCount.trans (if_pos splits)
  case closes => exact disciplined.closes
  case steps => exact disciplined.steps

/-- The check accepts a plan exactly if all its lists are disciplined and house their passes, and
its transfers match. -/
theorem verify_ok_iff_disciplined (plan : Plan) :
    plan.verify = .ok () ↔ 0 < plan.memoryLimit ∧
      (∀ rankPlan ∈ plan.ranks, plan.Disciplined rankPlan ∧ plan.Houses rankPlan) ∧
      plan.Matched := by
  rw [verify_eq_ok]
  constructor
  · intro lawful
    refine ⟨lawful.limit, fun rankPlan member => ?_, lawful.once, lawful.matched⟩
    have rank := lawful.ranks rankPlan member
    exact ⟨rank.disciplined, rank.houses⟩
  · rintro ⟨limit, ranks, once, same⟩
    refine ⟨limit, fun rankPlan member => ?_, once, same⟩
    obtain ⟨disciplined, houses⟩ := ranks rankPlan member
    exact disciplined.lawful houses

/-- Two lists may share a rank, each within the limit by itself. -/
example : (⟨⟨1, 1, 1, .interleaved⟩, 1, 1, false, false,
    List.replicate 2 ⟨0, [.forward ⟨0, 0⟩ 0, .backward ⟨0, 0⟩ 0, .optimizerStep]⟩,
    ⟨2, [2], [0]⟩⟩ : Plan).verify = .ok () := rfl

end Plan
end PipelineTraining
