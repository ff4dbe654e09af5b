import PipelineTraining.Proofs.Plan.Building
import PipelineTraining.Proofs.Plan.Crossings

/-!
The check accepts whatever the clock comes up with: what a rank finds before each
operation is what the check asks for, and no transfer is without its counterpart. Building
can therefore fail on its settings alone.
-/

namespace PipelineTraining

open Course

namespace Playable

variable {plan : Plan} {rank : Nat} {script before after : List Operation} {operation : Operation}

theorem known_weights (playable : Playable plan rank script) {stage : StageId} {microbatch : Nat}
    (member : .backwardWeights stage microbatch ∈ script) : plan.layout.IsStage stage := by
  obtain ⟨before, supplied⟩ := playable.supplied_of_mem member
  generalize same : Operation.backwardWeights stage microbatch = operation at supplied
  cases supplied with
  | weights other another known =>
      obtain ⟨rfl, rfl⟩ := Operation.backwardWeights.inj same
      exact known
  | pass way => cases way <;> cases same
  | receive | send | optimizer | sync => cases same

theorem not_weighed (playable : Playable plan rank script) {stage : StageId} {microbatch : Nat}
    (split : script = before ++ .backwardWeights stage microbatch :: after)
    (known : plan.layout.IsStage stage) :
    (stage.logical, microbatch) ∉ before.filterMap Operation.weightKey? := by
  intro keyed
  obtain ⟨operation, member, found⟩ := List.mem_filterMap.mp keyed
  cases operation with
  | backwardWeights other another =>
      obtain ⟨logical, rfl⟩ := Prod.mk.inj (Option.some.inj found)
      have placed := playable.known_weights (split ▸ List.mem_append_left _ member)
      rw [placed.eq_of_logical known logical] at member
      exact playable.not_before split member
  | forward | backward | send | receive | optimizerStep | validationSync => cases found

theorem complete (playable : Playable plan rank script)
    (split : script = before ++ .optimizerStep :: after) :
    (∀ way : Way, (before.filterMap way.key?).length = plan.passesPerRank) ∧
      (plan.split = true →
        (before.filterMap Operation.weightKey?).length = plan.passesPerRank) := by
  have supplied := playable.supplied before .optimizerStep after split
  generalize step : Operation.optimizerStep = operation at supplied
  cases supplied with
  | optimizer all weights => exact ⟨all, weights⟩
  | pass way => cases way <;> cases step
  | weights | send | receive | sync => cases step

theorem admissible (playable : Playable plan rank script) (sound : plan.layout.Sound)
    (tracked : rank < plan.ranks.length) (split : script = before ++ operation :: after) :
    plan.Admissible rank before operation := by
  have supplied := playable.supplied before operation after split
  cases supplied with
  | pass way stage microbatch known owned inside fed room own =>
      have placed := Layout.places_of_sound sound
      have owns : plan.layout.owns rank stage = true := by simp [Layout.owns, owned, known.named]
      have fresh : (stage.logical, microbatch) ∉ before.filterMap way.key? := by
        rw [playable.entered_iff split known]
        exact playable.not_before split
      cases way with
      | forward => exact .forward placed owns fresh tracked (room rfl)
      | backward =>
          refine .backward placed owns ?_ fresh tracked (playable.backwards_lt split)
          exact (playable.entered_iff split known).mpr (own rfl)
  | weights stage microbatch known owned inside fed splits =>
      refine .weights splits ?_ (playable.not_weighed split known)
      exact (playable.entered_iff split known).mpr fed
  | send => exact .send
  | receive => exact .receive
  | optimizer => exact .optimizerStep
  | sync => exact .validationSync

end Playable

theorem RankPlan.count_optimizerStep (rankPlan : RankPlan) :
    rankPlan.count .optimizerStep = rankPlan.operations.count .optimizerStep := by
  refine List.countP_congr fun operation _ => ?_
  cases operation <;> simp [Operation.kind]

namespace Plan

theorem closing_eq (validates : Bool) : ∃ rest, closing validates = .optimizerStep :: rest := by
  cases validates with
  | false => exact ⟨_, rfl⟩
  | true => exact ⟨_, rfl⟩

theorem closing_keys (validates : Bool) (way : Way) :
    (closing validates).filterMap way.key? = [] := by
  cases validates <;> cases way <;> rfl

theorem closing_weights (validates : Bool) :
    (closing validates).filterMap Operation.weightKey? = [] := by
  cases validates <;> rfl

end Plan

namespace Scored

variable {plan : Plan} {course : List (Nat × Operation)}

theorem lawfulRank (scored : Scored plan course) {rank : Nat} {rankPlan : RankPlan}
    (found : plan.rankPlan? rank = some rankPlan) (numbered : rankPlan.rank = rank)
    (closes : Plan.closing plan.validates <:+ rankPlan.operations) :
    plan.LawfulRank rankPlan := by
  have playable := scored.playable rank
  rw [← scored.script rank rankPlan found] at playable
  obtain ⟨acting, closed⟩ := closes
  obtain ⟨rest, ends⟩ := Plan.closing_eq plan.validates
  have split : rankPlan.operations = acting ++ .optimizerStep :: rest := by rw [← closed, ends]
  obtain ⟨all, weights⟩ := playable.complete split
  constructor
  case admissible =>
    intro before operation after split
    rw [numbered]
    exact playable.admissible scored.sound (List.getElem?_eq_some_iff.mp found).1 split
  -- Behind the optimizer step there are no passes.
  case passes =>
    intro way
    rw [← closed, List.filterMap_append, Plan.closing_keys, List.append_nil]
    exact all way
  case weights =>
    intro splits
    rw [← closed, List.filterMap_append, Plan.closing_weights, List.append_nil]
    exact weights splits
  case closes => exact ⟨acting, closed⟩
  case steps =>
    rw [rankPlan.count_optimizerStep]
    refine List.count_eq_one_of_mem playable.noDup ?_
    rw [split]
    exact List.mem_append_right _ List.mem_cons_self

/-- A plan whose ranks follow a course, each to its closing steps, is accepted. -/
theorem lawful (scored : Scored plan course) (numbered : plan.Numbered)
    (closes : ∀ rankPlan ∈ plan.ranks, Plan.closing plan.validates <:+ rankPlan.operations) :
    plan.Lawful := by
  constructor
  case limit => exact scored.limit
  case ranks =>
    intro rankPlan member
    obtain ⟨rank, found⟩ := List.getElem?_of_mem member
    exact scored.lawfulRank found (numbered rank rankPlan found) (closes rankPlan member)
  case once => exact fun side => numbered.deliveries_nodup scored
  case matched =>
    intro delivery
    rw [numbered.mem_deliveries scored, numbered.mem_deliveries scored]

end Scored

theorem Plan.lawful_of_no_ranks {plan : Plan} (limit : 0 < plan.memoryLimit)
    (none : plan.ranks = []) : plan.Lawful := by
  constructor
  case limit => exact limit
  case ranks => simp [none]
  case once => simp [deliveries, none]
  case matched => simp [deliveries, none]

namespace Topology

theorem layout_depth {topology : Topology} {chunks : Nat} {placement : Placement} {layout : Layout}
    (laid : topology.layout chunks placement = .ok layout) : layout.depth = topology.depth := by
  simp only [Topology.layout, bind_eq_ok] at laid
  obtain ⟨_, _, _, _, _, _, rest⟩ := laid
  cases rest
  rfl

theorem layout_fault {topology : Topology} {chunks : Nat} {placement : Placement} {fault : Fault}
    (refused : topology.layout chunks placement = .error fault) :
    ∃ cause, fault = .configuration cause := by
  simp only [layout, bind_eq_error] at refused
  rcases refused with unplaced | ⟨_, _, uneven | ⟨_, _, pinned | ⟨_, _, ended⟩⟩⟩
  · unfold checkPlacement at unplaced
    grind
  · unfold checkChunks at uneven
    grind
  · unfold checkPinned at pinned
    grind
  · cases ended

end Topology

namespace Blueprint

variable {blueprint : Blueprint} {layout : Layout} {timelines : List (List TimedAction)}

theorem assemble_numbered : (blueprint.assemble layout timelines).Numbered := by
  intro rank rankPlan found
  simp only [Plan.rankPlan?, assemble, List.getElem?_mapIdx, Option.map_eq_some_iff] at found
  obtain ⟨_, _, rfl⟩ := found
  rfl

theorem assemble_closes {rankPlan : RankPlan}
    (member : rankPlan ∈ (blueprint.assemble layout timelines).ranks) :
    Plan.closing blueprint.validates <:+ rankPlan.operations := by
  obtain ⟨rank, timeline, rfl⟩ := List.mem_mapIdx.mp member
  exact List.suffix_append _ _

theorem closes_of_build {plan : Plan} (built : blueprint.build = .ok plan) {rankPlan : RankPlan}
    (member : rankPlan ∈ plan.ranks) : Plan.closing plan.validates <:+ rankPlan.operations := by
  obtain ⟨_, _, _, _, _, _, rfl⟩ := build_ok built
  exact assemble_closes member

theorem rank_count_of_build {plan : Plan} (built : blueprint.build = .ok plan) :
    plan.ranks.length = blueprint.topology.depth := by
  obtain ⟨_, _, layout, timelines, laid, timed, rfl⟩ := build_ok built
  obtain ⟨log, final, history, done, rfl⟩ := (blueprint.workload layout).simulated timed
  simp only [assemble, Simulation.timetable, List.length_mapIdx, List.length_map]
  exact history.rank_count.trans (Topology.layout_depth laid)

theorem checkCounts_eq_ok :
    blueprint.checkCounts = .ok () ↔ 0 < blueprint.memoryLimit ∧ 0 < blueprint.microbatches := by
  unfold checkCounts
  grind

theorem verify_assemble (counted : blueprint.checkCounts = .ok ())
    (laid : blueprint.topology.layout blueprint.chunks blueprint.placement = .ok layout)
    (timed : (blueprint.workload layout).simulate = .ok timelines) :
    (blueprint.assemble layout timelines).verify = .ok () := by
  rw [Plan.verify_eq_ok]
  obtain ⟨limit, busy⟩ := checkCounts_eq_ok.mp counted
  obtain ⟨log, final, history, done, rfl⟩ := (blueprint.workload layout).simulated timed
  by_cases ranks : 0 < blueprint.topology.depth
  · obtain ⟨sound, _⟩ := Topology.layout_ok ranks laid
    have scored := scored_of_history sound busy limit history done
    exact scored.lawful assemble_numbered fun rankPlan member => assemble_closes member
  · -- A clock without ranks has no timelines.
    have depth := Topology.layout_depth laid
    have counted := history.rank_count
    change final.ranks.length = layout.depth at counted
    apply Plan.lawful_of_no_ranks limit
    have none : final.ranks = [] := List.eq_nil_of_length_eq_zero (by omega)
    simp [assemble, Simulation.timetable, none]

theorem build_of_simulate (counted : blueprint.checkCounts = .ok ())
    (costed : blueprint.cost.check = .ok ())
    (laid : blueprint.topology.layout blueprint.chunks blueprint.placement = .ok layout)
    (timed : (blueprint.workload layout).simulate = .ok timelines) :
    blueprint.build = .ok (blueprint.assemble layout timelines) := by
  have verified := verify_assemble counted laid timed
  exact bind_eq_ok.mpr ⟨_, counted, bind_eq_ok.mpr ⟨_, costed, bind_eq_ok.mpr ⟨layout, laid,
    bind_eq_ok.mpr ⟨timelines, timed, bind_eq_ok.mpr ⟨_, verified, rfl⟩⟩⟩⟩⟩

theorem exists_build (ranks : 0 < blueprint.topology.depth)
    (counted : blueprint.checkCounts = .ok ()) (costed : blueprint.cost.check = .ok ())
    (laid : blueprint.topology.layout blueprint.chunks blueprint.placement = .ok layout)
    (room : (blueprint.workload layout).leastMemory ≤ blueprint.memoryLimit) :
    ∃ timelines, blueprint.build = .ok (blueprint.assemble layout timelines) := by
  obtain ⟨sound, _⟩ := Topology.layout_ok ranks laid
  have busy := (checkCounts_eq_ok.mp counted).2
  obtain ⟨timelines, timed⟩ := (Workload.simulate_ok sound busy).mpr room
  exact ⟨timelines, build_of_simulate counted costed laid timed⟩

theorem verified_of_build {plan : Plan} (built : blueprint.build = .ok plan) :
    plan.verify = .ok () := by
  simp only [build, bind_eq_ok] at built
  obtain ⟨_, _, _, _, layout, _, timelines, _, _, verified, rest⟩ := built
  cases rest
  exact verified

theorem checkCounts_fault {fault : Fault} (refused : blueprint.checkCounts = .error fault) :
    ∃ cause, fault = .configuration cause := by
  unfold checkCounts at refused
  grind

/-- Building never fails on its own check. Once the settings are in order and the clock has come
to its end the plan is accepted, and whatever refuses a blueprint refuses its settings. -/
theorem build_accepts (blueprint : Blueprint) :
    (∀ layout timelines, blueprint.checkCounts = .ok () → blueprint.cost.check = .ok () →
        blueprint.topology.layout blueprint.chunks blueprint.placement = .ok layout →
        (blueprint.workload layout).simulate = .ok timelines →
        (blueprint.assemble layout timelines).verify = .ok () ∧
          blueprint.build = .ok (blueprint.assemble layout timelines)) ∧
      ∀ fault, blueprint.build = .error fault → ∃ cause, fault = .configuration cause := by
  constructor
  · intro layout timelines counted costed laid timed
    exact ⟨verify_assemble counted laid timed, build_of_simulate counted costed laid timed⟩
  · intro fault failed
    simp only [build, bind_eq_error] at failed
    rcases failed with uncounted | ⟨_, counted, uncosted | ⟨_, _, unlaid |
      ⟨layout, laid, stuck | ⟨timelines, timed, rejected | ⟨_, _, ended⟩⟩⟩⟩⟩
    · exact checkCounts_fault uncounted
    · unfold CostModel.check at uncosted
      grind
    · exact Topology.layout_fault unlaid
    · obtain ⟨cause, same, _⟩ := Workload.simulate_fault stuck
      exact ⟨cause, same⟩
    · rw [verify_assemble counted laid timed] at rejected
      cases rejected
    · cases ended

/-- Two folded ranks need room for three micro-batches; with less the limit is to blame. -/
theorem build_accepts_folded :
    let blueprint (limit : Nat) : Blueprint :=
      ⟨⟨2, 4, none⟩, 2, limit, 2, .vShape, true, true, ⟨2, 3, 1, 4⟩⟩
    (∃ plan, (blueprint 3).build = .ok plan ∧ plan.verify = .ok ()) ∧
      ∃ cause, (blueprint 2).build = .error (.configuration cause) := by
  intro blueprint
  have laid : (Topology.mk 2 4 none).layout 2 .vShape = .ok ⟨2, 2, 1, .vShape⟩ := rfl
  have sound := (Topology.layout_ok (by decide) laid).1
  constructor
  · have room : ((blueprint 3).workload ⟨2, 2, 1, .vShape⟩).leastMemory ≤ 3 := by decide
    obtain ⟨timelines, timed⟩ := (Workload.simulate_ok sound (by decide)).mpr room
    obtain ⟨verified, built⟩ := (build_accepts (blueprint 3)).1 _ timelines rfl rfl laid timed
    exact ⟨_, built, verified⟩
  · cases built : (blueprint 2).build with
    | error fault =>
        obtain ⟨cause, rfl⟩ := (build_accepts (blueprint 2)).2 fault built
        exact ⟨cause, rfl⟩
    | ok plan =>
        obtain ⟨_, _, layout, timelines, cut, timed, _⟩ := build_ok built
        obtain rfl := Except.ok.inj (laid.symm.trans cut)
        have room := (Workload.simulate_ok sound (by decide)).mp ⟨timelines, timed⟩
        exact absurd room (by decide)

end Blueprint
end PipelineTraining
