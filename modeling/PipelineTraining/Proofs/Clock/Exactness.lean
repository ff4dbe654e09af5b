import PipelineTraining.Proofs.Clock.Punctuality

/-!
A clock that comes to its end has put each rank's whole work onto its timeline: every
pass of every micro-batch once, in the order in which the rank takes up its work, and
none of them a tick later than its rank and its input allow.
-/

namespace PipelineTraining

theorem Way.mem_order_iff (way : Way) {layout : Layout} {rank microbatches : Nat} {pass : Pass} :
    pass ∈ way.order layout rank microbatches ↔
      pass.1 ∈ layout.stagesOf rank ∧ pass.2 < microbatches := by
  obtain ⟨stage, microbatch⟩ := pass
  simp only [way.mem_order, Layout.stagesOf, List.mem_map, List.mem_range]
  constructor
  · rintro ⟨chunk, held, _, below, same⟩
    obtain ⟨rfl, rfl⟩ := Prod.mk.inj same
    exact ⟨⟨chunk, held, rfl⟩, below⟩
  · rintro ⟨⟨chunk, held, rfl⟩, below⟩
    exact ⟨chunk, held, microbatch, below, rfl⟩

namespace Timetable

/-- The timeline of a rank for a whole iteration: all of its passes and nothing else, in order
and on time. -/
structure Exact (work : Workload) (table : Timetable) (rank : Nat) (timeline : List TimedAction) :
    Prop where
  once : ∀ (way : Way) (pass : Pass), (timeline.map TimedAction.action).count (way.action pass) =
    if pass.1 ∈ work.layout.stagesOf rank ∧ pass.2 < work.microbatches then 1 else 0
  weighed : ∀ pass : Pass, (timeline.map TimedAction.action).count (.weights pass) =
    if work.split = true ∧ pass.1 ∈ work.layout.stagesOf rank ∧ pass.2 < work.microbatches
      then 1 else 0
  forwards : (timeline.map TimedAction.action).filterMap Action.forward? =
    WorkOrder.forward work.layout rank work.microbatches
  backwards : (timeline.map TimedAction.action).filterMap Action.backward? =
    WorkOrder.backward work.layout rank work.microbatches
  weights : (timeline.map TimedAction.action).filterMap Action.weights? =
    if work.split then (timeline.map TimedAction.action).filterMap Action.backward? else []
  onTime : ∀ before timed after, timeline = before ++ timed :: after →
    OnTime work table rank before timed

end Timetable

namespace Simulation
open Course

variable {work : Workload} {state : Simulation} {rank : Nat} {log : List Commit}

theorem History.order_of_done (history : History work log state) (done : state.done = true)
    (way : Way) (inside : rank < work.layout.depth) :
    passesOf way.select rank (taken log) = way.order work.layout rank work.microbatches := by
  obtain ⟨forwards, backwards, _⟩ := history.finished done inside
  cases way
  · exact forwards
  · exact backwards

theorem History.exact (sound : work.layout.Sound) (history : History work log state)
    (done : state.done = true) {clock : RankClock} (present : state.ranks[rank]? = some clock) :
    Timetable.Exact work state.timetable rank clock.timeline := by
  have actions := (history.tracked present).timeline
  obtain ⟨forwards, backwards, weights⟩ := history.finished done (history.inside present)
  -- A timeline is the part of the log that its rank took, and no commit is made twice.
  have noDup := partOf_nodup rank history.nodup
  constructor
  case once =>
    intro way pass
    have member : way.action pass ∈ partOf rank (taken log) ↔
        pass.1 ∈ work.layout.stagesOf rank ∧ pass.2 < work.microbatches := by
      rw [mem_partOf, ← way.mem_passesOf, history.order_of_done done way (history.inside present),
        way.mem_order_iff]
    rw [actions, noDup.count, if_congr member rfl rfl]
  case weighed =>
    intro pass
    have member : Action.weights pass ∈ partOf rank (taken log) ↔ work.split = true ∧
        pass.1 ∈ work.layout.stagesOf rank ∧ pass.2 < work.microbatches := by
      rw [mem_partOf, ← mem_weights, weights, ← Way.mem_order_iff .backward, Way.order]
      cases work.split <;> simp
    rw [actions, noDup.count, if_congr member rfl rfl]
  case forwards => exact actions ▸ forwards
  case backwards => exact actions ▸ backwards
  case weights =>
    rw [actions]
    exact weights.trans (by rw [← backwards, passesOf])
  case onTime => exact (history.punctual sound present).onTime

end Simulation

namespace Workload

/-- Every timeline that the clock gives out is exact. -/
theorem simulate_exact {topology : Topology} {chunks : Nat} {placement : Placement}
    {work : Workload} {timelines : Timetable} (ranks : 0 < topology.depth)
    (laid : topology.layout chunks placement = .ok work.layout)
    (simulated : work.simulate = .ok timelines) :
    timelines.length = work.layout.depth ∧
      ∀ rank timeline, timelines[rank]? = some timeline →
        timelines.Exact work rank timeline := by
  obtain ⟨sound, _⟩ := Topology.layout_ok ranks laid
  obtain ⟨log, final, history, done, rfl⟩ := work.simulated simulated
  constructor
  · rw [Simulation.timetable, List.length_map, history.rank_count]
  · intro rank timeline present
    obtain ⟨clock, here, rfl⟩ := Simulation.timetable_eq_some.mp present
    exact history.exact sound done here

/-- Two folded ranks that split their backwards, with four different costs. -/
theorem simulate_exact_folded :
    let work : Workload := ⟨⟨2, 2, 1, .vShape⟩, 2, 3, true, ⟨2, 3, 1, 4⟩⟩
    ∃ timelines : Timetable, work.simulate = .ok timelines ∧ timelines.length = 2 ∧
      ∀ rank timeline, timelines[rank]? = some timeline → timelines.Exact work rank timeline := by
  intro work
  have laid : (Topology.mk 2 4 none).layout 2 .vShape = .ok work.layout := rfl
  have sound := (Topology.layout_ok (by decide) laid).1
  obtain ⟨timelines, simulated⟩ := (simulate_ok sound (by decide)).mpr (by decide)
  exact ⟨timelines, simulated, simulate_exact (by decide) laid simulated⟩

end Workload
end PipelineTraining
