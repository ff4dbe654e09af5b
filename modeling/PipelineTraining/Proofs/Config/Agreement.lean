import PipelineTraining.Config.Basic
import PipelineTraining.Proofs.Plan.Acceptance

/-!
Which configurations are in order, and that planning agrees. A plan is refused wherever the
check refuses, for the same cause; of what the check accepts, only a limit that was fixed too
low is refused, and a limit left to itself never is.
-/

namespace PipelineTraining

theorem ValidationSettings.check_eq_ok {settings : ValidationSettings} :
    settings.check = .ok () ↔ (settings.exact = false →
      0.0 ≤ settings.tolerance ∧ settings.tolerance.isFinite = true) := by
  unfold check
  cases settings.exact <;> simp

namespace Topology

variable {topology : Topology} {chunks : Nat} {placement : Placement}

theorem exists_layout_iff (unpinned : topology.pinned = none)
    (fits : ∀ required, placement.requiredChunks = some required → chunks = required) :
    (∃ layout, topology.layout chunks placement = .ok layout) ↔
      0 < chunks ∧ chunks ∣ topology.layersPerRank := by
  have pinned : topology.checkPinned chunks = .ok () := by rw [checkPinned, unpinned]
  rw [← checkChunks_eq_ok]
  constructor
  · rintro ⟨layout, laid⟩
    simp only [Topology.layout, bind_eq_ok] at laid
    obtain ⟨_, _, _, shared, _⟩ := laid
    exact shared
  · intro shared
    have placed : topology.checkPlacement chunks placement = .ok () := by
      have even := (checkChunks_eq_ok.mp shared).2
      rw [Nat.dvd_iff_mod_eq_zero] at even
      unfold checkPlacement
      cases required : placement.requiredChunks with
      | none => rfl
      | some count =>
          obtain rfl := fits count required
          simp [even]
    exact ⟨_, bind_eq_ok.mpr ⟨(), placed, bind_eq_ok.mpr ⟨(), shared,
      bind_eq_ok.mpr ⟨(), pinned, rfl⟩⟩⟩⟩

end Topology

theorem Blueprint.build_eq_map {blueprint : Blueprint} {layout : Layout}
    (counted : blueprint.checkCounts = .ok ()) (costed : blueprint.cost.check = .ok ())
    (laid : blueprint.topology.layout blueprint.chunks blueprint.placement = .ok layout) :
    blueprint.build = (blueprint.workload layout).simulate.map (blueprint.assemble layout) := by
  cases timed : (blueprint.workload layout).simulate with
  | ok timelines => exact build_of_simulate counted costed laid timed
  | error fault =>
      exact bind_eq_error.mpr (Or.inr ⟨(), counted, bind_eq_error.mpr (Or.inr ⟨(), costed,
        bind_eq_error.mpr (Or.inr ⟨layout, laid, bind_eq_error.mpr (Or.inl timed)⟩)⟩)⟩)

namespace Config

/-- A configuration that can be planned, unless its limit is fixed too low. -/
structure Admissible (config : Config) : Prop where
  microbatches : 1 ≤ config.microbatches
  limit : 1 ≤ config.memoryLimit
  timeout : 0 < config.timeoutMilliseconds
  fold : config.folded = true → config.interleave = 1 ∨ config.interleave = 2
  tolerance : config.validation.exact = false →
    0.0 ≤ config.validation.tolerance ∧ config.validation.tolerance.isFinite = true
  forward : 1 ≤ config.cost.forward
  backward : 1 ≤ config.cost.backward
  weight : 1 ≤ config.cost.weight
  ranks : 1 ≤ config.depth
  chunked : 1 ≤ config.chunks
  layered : 1 ≤ config.layers
  even : config.depth * config.chunks ∣ config.layers

structure Describes (config : Config) (plan : Plan) : Prop where
  ranks : plan.ranks.length = config.depth
  microbatches : plan.microbatches = config.microbatches
  limit : plan.memoryLimit = config.memoryLimit
  depth : plan.layout.depth = config.depth
  chunks : plan.layout.chunks = config.chunks
  placement : plan.layout.placement = config.placement
  split : plan.split = config.split
  validates : plan.validates = config.validation.enabled

structure Agrees (config : Config) : Prop where
  accepts : config.check = .ok () ↔ config.Admissible
  refuses : ∀ fault, config.check = .error fault → config.buildPlan = .error fault
  auto : config.check = .ok () → config.limit = .auto → ∃ plan, config.buildPlan = .ok plan
  fixed : config.check = .ok () → ∀ count, config.limit = .fixed count →
    ((∃ plan, config.buildPlan = .ok plan) ↔
      (config.chunks - 1) * min config.depth config.microbatches + 1 ≤ count)
  blames : config.check = .ok () → ∀ fault, config.buildPlan = .error fault →
    ∃ cause, fault = .configuration cause ∧ cause.parameter = "memory_limit"
  describes : ∀ plan, config.buildPlan = .ok plan → config.Describes plan

variable {config : Config} {plan : Plan}

theorem checkCounts_eq_ok : config.checkCounts = .ok () ↔
    1 ≤ config.microbatches ∧ 1 ≤ config.memoryLimit ∧ 0 < config.timeoutMilliseconds := by
  unfold checkCounts
  grind

theorem checkFold_eq_ok : config.checkFold = .ok () ↔
    (config.folded = true → config.interleave = 1 ∨ config.interleave = 2) := by
  unfold checkFold
  grind

theorem chunks_of_required (required : Nat)
    (same : config.placement.requiredChunks = some required) : config.chunks = required := by
  unfold placement at same
  unfold chunks
  cases folded : config.folded with
  | false => simp [folded, Placement.requiredChunks] at same
  | true => simpa [folded, Placement.requiredChunks] using same

theorem exists_layout_iff : (∃ topology layout, config.topology = .ok topology ∧
      topology.layout config.chunks config.placement = .ok layout) ↔
    1 ≤ config.depth ∧ 1 ≤ config.chunks ∧ 1 ≤ config.layers ∧
      config.depth * config.chunks ∣ config.layers := by
  have cut : ∀ topology : Topology, topology.pinned = none →
      ((∃ layout, topology.layout config.chunks config.placement = .ok layout) ↔
        0 < config.chunks ∧ config.chunks ∣ topology.layersPerRank) :=
    fun _ unpinned => Topology.exists_layout_iff unpinned chunks_of_required
  constructor
  · rintro ⟨topology, layout, made, laid⟩
    obtain ⟨ranks, layered, shared, rfl⟩ := Topology.make_eq_ok.mp made
    obtain ⟨chunked, even⟩ := (cut _ rfl).mp ⟨layout, laid⟩
    exact ⟨ranks, chunked, layered, Nat.mul_dvd_of_dvd_div shared even⟩
  · rintro ⟨ranks, chunked, layered, even⟩
    have shared := (Nat.dvd_mul_right config.depth config.chunks).trans even
    have each : config.chunks ∣ config.layers / config.depth := Nat.dvd_div_of_mul_dvd even
    obtain ⟨layout, laid⟩ := (cut ⟨config.depth, config.layers, none⟩ rfl).mpr
      ⟨chunked, each⟩
    exact ⟨_, layout, Topology.make_eq_ok.mpr ⟨ranks, layered, shared, rfl⟩, laid⟩

theorem check_eq_ok_iff_parts : config.check = .ok () ↔
    config.checkCounts = .ok () ∧ config.checkFold = .ok () ∧ config.validation.check = .ok () ∧
      config.cost.check = .ok () ∧ ∃ topology layout, config.topology = .ok topology ∧
        topology.layout config.chunks config.placement = .ok layout := by
  have discarded : ∀ {topology : Topology},
      discard (topology.layout config.chunks config.placement) = .ok () ↔
        ∃ layout, topology.layout config.chunks config.placement = .ok layout := by
    intro topology
    cases topology.layout config.chunks config.placement <;>
      simp [discard, Functor.discard, Functor.mapConst, Except.map]
  simp only [check, bind_eq_ok, discarded]
  grind

theorem check_eq_ok : config.check = .ok () ↔ config.Admissible := by
  rw [check_eq_ok_iff_parts, checkCounts_eq_ok, checkFold_eq_ok, ValidationSettings.check_eq_ok,
    CostModel.check_eq_ok, exists_layout_iff]
  constructor
  · rintro ⟨⟨microbatches, limit, timeout⟩, fold, tolerance, ⟨forward, backward, weight⟩,
      ranks, chunked, layered, even⟩
    exact ⟨microbatches, limit, timeout, fold, tolerance, forward, backward, weight, ranks, chunked,
      layered, even⟩
  · rintro ⟨microbatches, limit, timeout, fold, tolerance, forward, backward, weight, ranks,
      chunked, layered, even⟩
    exact ⟨⟨microbatches, limit, timeout⟩, fold, tolerance, ⟨forward, backward, weight⟩,
      ranks, chunked, layered, even⟩

theorem buildPlan_of_refused {fault : Fault} (refused : config.check = .error fault) :
    config.buildPlan = .error fault :=
  bind_eq_error.mpr (Or.inl refused)

def drawn (config : Config) : Blueprint where
  topology := ⟨config.depth, config.layers, none⟩
  microbatches := config.microbatches
  memoryLimit := config.memoryLimit
  chunks := config.chunks
  placement := config.placement
  split := config.split
  validates := config.validation.enabled
  cost := config.cost

theorem buildPlan_of_accepted (accepted : config.check = .ok ()) :
    config.buildPlan = config.drawn.build := by
  obtain ⟨_, _, _, _, _, _, made, _⟩ := check_eq_ok_iff_parts.mp accepted
  obtain ⟨_, _, _, rfl⟩ := Topology.make_eq_ok.mp made
  have blueprint : config.blueprint = .ok config.drawn := bind_eq_ok.mpr ⟨_, made, rfl⟩
  rw [buildPlan, accepted, blueprint]
  rfl

/-- What is in order meets all checks of the builder, so the clock alone decides. -/
theorem buildPlan_of_simulate (accepted : config.check = .ok ()) :
    ∃ layout, config.drawn.topology.layout config.drawn.chunks config.drawn.placement = .ok layout ∧
      config.drawn.checkCounts = .ok () ∧
      config.buildPlan =
        (config.drawn.workload layout).simulate.map (config.drawn.assemble layout) := by
  obtain ⟨counted, _, _, costed, topology, layout, made, laid⟩ :=
    check_eq_ok_iff_parts.mp accepted
  obtain ⟨microbatches, limit, _⟩ := checkCounts_eq_ok.mp counted
  obtain ⟨_, _, _, rfl⟩ := Topology.make_eq_ok.mp made
  have counts : config.drawn.checkCounts = .ok () :=
    Blueprint.checkCounts_eq_ok.mpr ⟨limit, microbatches⟩
  exact ⟨layout, laid, counts,
    (buildPlan_of_accepted accepted).trans (Blueprint.build_eq_map counts costed laid)⟩

/-- With the limit as it is resolved, a plan is built exactly if there is room for the forwards in
front of the first backward; otherwise the limit is to blame. -/
theorem exists_plan_iff (accepted : config.check = .ok ()) :
    ((∃ plan, config.buildPlan = .ok plan) ↔
      (config.chunks - 1) * min config.depth config.microbatches + 1 ≤ config.memoryLimit) ∧
    ∀ fault, config.buildPlan = .error fault →
      ∃ cause, fault = .configuration cause ∧ cause.parameter = "memory_limit" := by
  obtain ⟨layout, laid, counted, decided⟩ := buildPlan_of_simulate accepted
  have ranks := (check_eq_ok.mp accepted).ranks
  obtain ⟨sound, depth, cut, _⟩ :=
    Topology.layout_ok (show 0 < config.drawn.topology.depth from ranks) laid
  have busy := (Blueprint.checkCounts_eq_ok.mp counted).2
  have least : (config.drawn.workload layout).leastMemory =
      (config.chunks - 1) * min config.depth config.microbatches + 1 := by
    rw [Workload.leastMemory, Workload.lead]
    exact congrArg₂ (fun chunks depth => (chunks - 1) * min depth config.microbatches + 1) cut depth
  have timed : (∃ timelines, (config.drawn.workload layout).simulate = .ok timelines) ↔
      (config.chunks - 1) * min config.depth config.microbatches + 1 ≤ config.memoryLimit := by
    rw [← least]
    exact Workload.simulate_ok sound busy
  rw [decided, ← timed]
  cases simulated : (config.drawn.workload layout).simulate with
  | ok timelines => simp [Except.map]
  | error fault =>
      refine ⟨by simp [Except.map], fun other same => ?_⟩
      obtain rfl := Except.error.inj same
      exact Workload.simulate_fault simulated

/-- One micro-batch for every stage is room enough. -/
theorem auto_suffices (ranks : 1 ≤ config.depth) (chunked : 1 ≤ config.chunks) :
    (config.chunks - 1) * min config.depth config.microbatches + 1 ≤
      config.depth * config.chunks := by
  calc (config.chunks - 1) * min config.depth config.microbatches + 1
    _ ≤ (config.chunks - 1) * config.depth + config.depth := by
        exact Nat.add_le_add (Nat.mul_le_mul_left _ (Nat.min_le_left _ _)) ranks
    _ = config.depth * config.chunks := by
        rw [← Nat.succ_mul, Nat.succ_eq_add_one, Nat.sub_add_cancel chunked, Nat.mul_comm]

theorem describes_of_buildPlan (built : config.buildPlan = .ok plan) : config.Describes plan := by
  obtain ⟨_, accepted, _⟩ := bind_eq_ok.mp built
  have ranks := (check_eq_ok.mp accepted).ranks
  rw [buildPlan_of_accepted accepted] at built
  obtain ⟨_, _, layout, timelines, laid, _, rfl⟩ := Blueprint.build_ok built
  obtain ⟨_, depth, cut, placed⟩ :=
    Topology.layout_ok (show 0 < config.drawn.topology.depth from ranks) laid
  exact ⟨Blueprint.rank_count_of_build built, rfl, rfl, depth, cut, placed, rfl, rfl⟩

/-- The check of a configuration accepts what can be planned, and planning agrees with it. -/
theorem check_agrees (config : Config) : config.Agrees := by
  constructor
  · exact check_eq_ok
  · exact fun fault => buildPlan_of_refused
  · intro accepted same
    have admissible := check_eq_ok.mp accepted
    rw [(exists_plan_iff accepted).1, memoryLimit, same]
    exact auto_suffices admissible.ranks admissible.chunked
  · intro accepted count same
    rw [(exists_plan_iff accepted).1, memoryLimit, same]
    rfl
  · exact fun accepted => (exists_plan_iff accepted).2
  · exact fun plan => describes_of_buildPlan

end Config
end PipelineTraining
