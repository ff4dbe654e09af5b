import Mathlib.Order.Bounds.Basic
import Mathlib.Order.Interval.Finset.Nat
import PipelineTraining.Proofs.Clock.CriticalPath
import PipelineTraining.Proofs.Plan.Acceptance
import PipelineTraining.Proofs.Plan.Coverage

/-!
The statistics of a plan account for every tick of the clock. A rank runs one action at a
time, so what it does not spend at work it spends idle, and all ranks have the same work.
The whole takes as long as the last action, which comes behind the longest way.
-/

namespace PipelineTraining

def Workload.ticksPerRank (work : Workload) : Nat :=
  work.microbatches * work.layout.chunks *
    (work.cost.forward + work.cost.backward + if work.split then work.cost.weight else 0)

namespace Timetable

def idle (timeline : List TimedAction) (horizon : Nat) : Finset Nat :=
  (Finset.range horizon).filter fun tick =>
    ∀ timed ∈ timeline, ¬ (timed.start ≤ tick ∧ tick < timed.finish)

def InTurn (timeline : List TimedAction) : Prop :=
  ∀ before timed after, timeline = before ++ timed :: after →
    Statistics.lastTick before ≤ timed.start ∧ timed.start ≤ timed.finish

variable {timeline : List TimedAction} {timed : TimedAction} {horizon : Nat}

theorem InTurn.snoc (inTurn : InTurn (timeline ++ [timed])) :
    InTurn timeline ∧ Statistics.lastTick timeline ≤ timed.start ∧
      timed.start ≤ timed.finish := by
  refine ⟨fun before earlier after split => ?_, inTurn timeline timed [] rfl⟩
  exact inTurn before earlier (after ++ [timed]) (by simp [split])

theorem InTurn.finish_le (inTurn : InTurn timeline) (member : timed ∈ timeline) :
    timed.finish ≤ Statistics.lastTick timeline := by
  induction timeline using List.reverseRecOn with
  | nil => cases member
  | append_singleton timeline last ih =>
      obtain ⟨earlier, later, runs⟩ := inTurn.snoc
      rw [Simulation.lastTick_snoc]
      rcases List.mem_append.mp member with old | new
      · exact (ih earlier old).trans (later.trans runs)
      · rw [List.mem_singleton.mp new]

theorem busyTicks_snoc (timeline : List TimedAction) (timed : TimedAction) :
    Statistics.busyTicks (timeline ++ [timed]) =
      Statistics.busyTicks timeline + (timed.finish - timed.start) := by
  rw [Statistics.busyTicks, List.foldl_append]
  rfl

theorem idle_snoc (timeline : List TimedAction) (timed : TimedAction) (horizon : Nat) :
    idle (timeline ++ [timed]) horizon =
      idle timeline horizon \ Finset.Ico timed.start timed.finish := by
  ext tick
  simp only [idle, Finset.mem_filter, Finset.mem_sdiff, Finset.mem_Ico, List.forall_mem_append,
    List.forall_mem_singleton, and_assoc]

/-- In front of the horizon a rank is either at work or idle. -/
theorem InTurn.busy_add_idle (inTurn : InTurn timeline)
    (past : Statistics.lastTick timeline ≤ horizon) :
    Statistics.busyTicks timeline + (idle timeline horizon).card = horizon := by
  induction timeline using List.reverseRecOn with
  | nil => simp [Statistics.busyTicks, idle]
  | append_singleton timeline timed ih =>
      obtain ⟨earlier, later, runs⟩ := inTurn.snoc
      rw [Simulation.lastTick_snoc] at past
      have before := ih earlier (later.trans (runs.trans past))
      -- While the last action runs, all others are over.
      have free : Finset.Ico timed.start timed.finish ⊆ idle timeline horizon := by
        intro tick running
        obtain ⟨started, ends⟩ := Finset.mem_Ico.mp running
        refine Finset.mem_filter.mpr ⟨Finset.mem_range.mpr (ends.trans_le past), ?_⟩
        rintro other member ⟨_, lasting⟩
        have ended := earlier.finish_le member
        omega
      have taken := Finset.card_sdiff_add_card_eq_card free
      rw [Nat.card_Ico] at taken
      rw [busyTicks_snoc, idle_snoc]
      omega

theorem busyTicks_eq (cost : CostModel)
    (takes : ∀ timed ∈ timeline, timed.finish = timed.start + timed.action.cost cost) :
    Statistics.busyTicks timeline =
      ((timeline.map TimedAction.action).filterMap Action.forward?).length * cost.forward +
      ((timeline.map TimedAction.action).filterMap Action.backward?).length * cost.backward +
      ((timeline.map TimedAction.action).filterMap Action.weights?).length * cost.weight := by
  induction timeline using List.reverseRecOn with
  | nil => simp [Statistics.busyTicks]
  | append_singleton timeline timed ih =>
      rw [busyTicks_snoc, ih fun earlier member => takes earlier (List.mem_append_left _ member),
        takes timed (by simp), Nat.add_sub_cancel_left]
      simp only [List.map_append, List.filterMap_append, List.map_singleton, List.length_append]
      cases timed.action <;>
        simp only [Action.cost, List.filterMap_cons, List.filterMap_nil, Action.forward?,
          Action.backward?, Action.weights?, List.length_cons, List.length_nil] <;>
        ring

variable {work : Workload} {table : Timetable} {rank : Nat}

theorem Exact.takes (exact : Exact work table rank timeline) (member : timed ∈ timeline) :
    timed.finish = timed.start + timed.action.cost work.cost := by
  obtain ⟨before, after, split⟩ := List.append_of_mem member
  exact (exact.onTime before timed after split).takes

theorem Exact.inTurn (exact : Exact work table rank timeline) : InTurn timeline := by
  intro before timed after split
  have onTime := exact.onTime before timed after split
  obtain ⟨arrival, _, starts⟩ := onTime.starts
  exact ⟨starts ▸ Nat.le_max_left _ _, onTime.takes ▸ Nat.le_add_right _ _⟩

theorem Exact.busyTicks (exact : Exact work table rank timeline) :
    Statistics.busyTicks timeline = work.ticksPerRank := by
  rw [busyTicks_eq work.cost fun _ => exact.takes, exact.weights, exact.forwards]
  cases split : work.split <;>
    simp only [exact.backwards, WorkOrder.forward_length, WorkOrder.backward_length,
      Workload.ticksPerRank, split, if_true, Bool.false_eq_true, if_false, List.length_nil] <;>
    ring

/-- The first stage is the last to run its backward. -/
theorem path_le (sound : work.layout.Sound) (busy : 0 < work.microbatches)
    (ranks : table.length = work.layout.depth)
    (exact : ∀ rank timeline, table[rank]? = some timeline → Exact work table rank timeline) :
    ∃ timeline ∈ table, ∃ timed ∈ timeline,
      work.layout.stageCount * (work.cost.forward + work.cost.backward) +
        2 * work.layout.crossings * work.cost.transfer ≤ timed.finish := by
  have inside : 0 < work.layout.stageCount := Nat.mul_pos sound.ranks sound.chunked
  let stage := work.layout.stageAt 0
  have known : work.layout.IsStage stage := Layout.isStage_stageAt inside
  have present := List.getElem?_eq_getElem (ranks ▸ known.rank_lt sound)
  have once := (exact _ _ present).once .backward (stage, 0)
  have held := (Layout.mem_stagesOf sound (known.rank_lt sound)).mpr ⟨known, rfl⟩
  rw [if_pos ⟨held, busy⟩] at once
  obtain ⟨timed, member, same⟩ := List.mem_map.mp (List.count_pos_iff.mp (once ▸ Nat.one_pos))
  obtain ⟨first, listed, _, finished⟩ := finish?_of_mem present member
  rw [same] at finished
  refine ⟨_, List.getElem_mem _, first, listed, ?_⟩
  have punctual : Punctual work table := fun rank timeline present =>
    (exact rank timeline present).onTime
  have last : 0 + (work.layout.stageCount - 1) + 1 = work.layout.stageCount := by omega
  have behind := punctual.backward_le last finished
  rw [Nat.sub_add_cancel inside] at behind
  simpa [Layout.crossingsTo, Nat.mul_add] using behind

end Timetable

theorem isGreatest_foldl_max {ticks : List Nat} (some : ticks ≠ []) :
    IsGreatest {tick | tick ∈ ticks} (ticks.foldl max 0) := by
  obtain ⟨last, greatest⟩ := Option.ne_none_iff_exists'.mp (mt List.max?_eq_none_iff.mp some)
  rw [List.foldl_max, greatest, Option.getD_some, Nat.zero_max]
  exact List.max?_eq_some_iff.mp greatest

namespace Statistics

structure Shares (statistics : Statistics) (work : Workload) (rank : Nat)
    (timeline : List TimedAction) : Prop where
  busy : statistics.busy[rank]? = some work.ticksPerRank
  fits : work.ticksPerRank ≤ statistics.makespan
  bubble : statistics.bubble[rank]? = some (Timetable.idle timeline statistics.makespan).card
  whole : (Timetable.idle timeline statistics.makespan).card + work.ticksPerRank =
    statistics.makespan

/-- What statistics say about the timelines that they were made from. -/
structure Accounts (statistics : Statistics) (work : Workload) (table : Timetable) : Prop where
  ranks : table.length = work.layout.depth
  busy : statistics.busy.length = table.length
  bubble : statistics.bubble.length = table.length
  makespan : IsGreatest {tick | ∃ timeline ∈ table, ∃ timed ∈ timeline, timed.finish = tick}
    statistics.makespan
  shares : ∀ rank timeline, table[rank]? = some timeline →
    statistics.Shares work rank timeline
  path : work.layout.stageCount * (work.cost.forward + work.cost.backward) +
    2 * work.layout.crossings * work.cost.transfer ≤ statistics.makespan

variable {work : Workload} {table : Timetable} {rank : Nat} {timeline : List TimedAction}

theorem lastTick_le_makespan (listed : timeline ∈ table) :
    lastTick timeline ≤ (ofTimelines table).makespan := by
  have ends : lastTick timeline ∈ table.map lastTick := List.mem_map_of_mem listed
  exact (isGreatest_foldl_max (List.ne_nil_of_mem ends)).2 ends

theorem makespan_isGreatest (ranks : table ≠ []) (filled : ∀ timeline ∈ table, timeline ≠ [])
    (inTurn : ∀ timeline ∈ table, Timetable.InTurn timeline) :
    IsGreatest {tick | ∃ timeline ∈ table, ∃ timed ∈ timeline, timed.finish = tick}
      (ofTimelines table).makespan := by
  constructor
  · have ends : table.map lastTick ≠ [] := mt List.map_eq_nil_iff.mp ranks
    obtain ⟨timeline, listed, reached⟩ := List.mem_map.mp (isGreatest_foldl_max ends).1
    obtain ⟨before, last, rfl⟩ := (List.eq_nil_or_concat timeline).resolve_left (filled _ listed)
    rw [List.concat_eq_append] at listed reached
    rw [Simulation.lastTick_snoc] at reached
    exact ⟨_, listed, last, List.mem_concat_self, reached⟩
  · rintro tick ⟨timeline, listed, timed, member, rfl⟩
    exact ((inTurn timeline listed).finish_le member).trans (lastTick_le_makespan listed)

theorem shares_ofTimelines (exact : table.Exact work rank timeline)
    (present : table[rank]? = some timeline) :
    (ofTimelines table).Shares work rank timeline := by
  have all := exact.inTurn.busy_add_idle (lastTick_le_makespan (List.mem_of_getElem? present))
  rw [exact.busyTicks] at all
  have busy : (ofTimelines table).busy[rank]? = some work.ticksPerRank := by
    simp only [ofTimelines, List.getElem?_map, present, Option.map_some, exact.busyTicks]
  constructor
  case busy => exact busy
  case fits => omega
  case bubble =>
    calc (ofTimelines table).bubble[rank]?
      _ = ((ofTimelines table).busy[rank]?).map ((ofTimelines table).makespan - ·) :=
          List.getElem?_map
      _ = some (Timetable.idle timeline (ofTimelines table).makespan).card := by
          rw [busy, Option.map_some]
          exact congrArg some (by omega)
  case whole => omega

theorem accounts_ofTimelines (sound : work.layout.Sound) (busy : 0 < work.microbatches)
    (ranks : table.length = work.layout.depth)
    (exact : ∀ rank timeline, table[rank]? = some timeline → table.Exact work rank timeline) :
    (ofTimelines table).Accounts work table := by
  have inTurn : ∀ timeline ∈ table, Timetable.InTurn timeline := by
    intro timeline listed
    obtain ⟨rank, present⟩ := List.getElem?_of_mem listed
    exact (exact rank timeline present).inTurn
  have filled : ∀ timeline ∈ table, timeline ≠ [] := by
    rintro _ listed rfl
    obtain ⟨rank, present⟩ := List.getElem?_of_mem listed
    have passes := congrArg List.length (exact rank [] present).forwards
    rw [WorkOrder.forward_length] at passes
    exact (Nat.mul_pos busy sound.chunked).ne passes
  have manned : table ≠ [] := List.length_pos_iff.mp (ranks ▸ sound.ranks)
  have makespan := makespan_isGreatest manned filled inTurn
  constructor
  case ranks => exact ranks
  case busy => exact List.length_map _
  case bubble => rw [ofTimelines, List.length_map, List.length_map]
  case makespan => exact makespan
  case shares => exact fun rank timeline present => shares_ofTimelines (exact _ _ present) present
  case path =>
    obtain ⟨timeline, listed, timed, member, behind⟩ :=
      Timetable.path_le sound busy ranks exact
    exact behind.trans (makespan.2 ⟨timeline, listed, timed, member, rfl⟩)

end Statistics

namespace Blueprint

/-- The statistics of a plan that was built account for the timelines that it was built from. -/
theorem build_accounts {blueprint : Blueprint} {plan : Plan}
    (ranks : 0 < blueprint.topology.depth) (built : blueprint.build = .ok plan) :
    blueprint.topology.layout blueprint.chunks blueprint.placement = .ok plan.layout ∧
      plan.layout.stageCount = blueprint.topology.depth * blueprint.chunks ∧
      ∃ timelines, (blueprint.workload plan.layout).simulate = .ok timelines ∧
        plan = blueprint.assemble plan.layout timelines ∧
        plan.statistics.Accounts (blueprint.workload plan.layout) timelines := by
  obtain ⟨busy, _, layout, timelines, laid, timed, rfl⟩ := build_ok built
  obtain ⟨sound, depth, chunks, _⟩ := Topology.layout_ok ranks laid
  obtain ⟨log, final, history, done, rfl⟩ := (blueprint.workload layout).simulated timed
  refine ⟨laid, congrArg₂ (· * ·) depth chunks, _, timed, rfl, ?_⟩
  have counted : final.timetable.length = layout.depth := by
    rw [Simulation.timetable, List.length_map]
    exact history.rank_count
  refine Statistics.accounts_ofTimelines sound busy counted fun rank timeline present => ?_
  obtain ⟨clock, here, rfl⟩ := Simulation.timetable_eq_some.mp present
  exact history.exact sound done here

/-- Two folded ranks that split their backwards. The pipeline goes over to the second rank and
comes back, and both transfers take longer than any pass. -/
theorem build_accounts_folded :
    let blueprint : Blueprint :=
      ⟨⟨2, 4, none⟩, 3, 4, 2, .vShape, true, true, ⟨2, 3, 1, 5⟩⟩
    ∃ plan, blueprint.build = .ok plan ∧ plan.layout.crossings = 2 ∧
      plan.statistics.busy[1]? = some 36 ∧ 40 ≤ plan.statistics.makespan := by
  intro blueprint
  let layout : Layout := ⟨2, 2, 1, .vShape⟩
  have laid : (Topology.mk 2 4 none).layout 2 .vShape = .ok layout := rfl
  obtain ⟨timelines, built⟩ := blueprint.exists_build (by decide) rfl rfl laid (by decide)
  obtain ⟨_, _, table, _, _, accounts⟩ := build_accounts (by decide) built
  have present := List.getElem?_eq_getElem (accounts.ranks ▸ (by decide : 1 < layout.depth))
  exact ⟨_, built, rfl, (accounts.shares 1 _ present).busy, accounts.path⟩

end Blueprint
end PipelineTraining
