import PipelineTraining.Proofs.Clock.Foresight

/-!
Ranks that hold one stage each. Their micro-batches go in order both ways, and a rank whose
next forward is never late takes it whenever the limit has room and its next backward
otherwise. So the passes of the first rank, which never waits for an activation, are known
without a clock: forwards up to the limit, a backward and a forward in turn, and the
backwards that are left.
-/

namespace PipelineTraining

theorem Layout.stage_zero (layout : Layout) (rank : Nat) : layout.stage rank 0 = ⟨0, rank⟩ := by
  unfold stage
  cases layout.placement <;> simp

theorem Layout.prev_stage_first (layout : Layout) : layout.prev (layout.stage 0 0) = none := by
  rw [prev_eq_none, stage_zero]

theorem Way.order_single (way : Way) {layout : Layout} (single : layout.chunks = 1)
    (rank microbatches : Nat) : way.order layout rank microbatches =
      (List.range microbatches).map fun microbatch => (layout.stage rank 0, microbatch) := by
  have held : 0 < layout.chunks := by omega
  have place : ∀ microbatch, way.place layout microbatches 0 microbatch = microbatch := by
    intro microbatch
    cases way <;>
      simp [Way.place, WorkOrder.forwardPlace, WorkOrder.backwardPlace, WorkOrder.place, single,
        Nat.div_add_mod']
  have length : (way.order layout rank microbatches).length = microbatches := by
    cases way <;> simp [Way.order, WorkOrder.forward_length, WorkOrder.backward_length, single]
  refine List.ext_getElem? fun index => ?_
  by_cases below : index < microbatches
  · have placed := way.order_place layout rank held below
    rw [place] at placed
    simp [placed, below]
  · rw [List.getElem?_eq_none (by omega), List.getElem?_eq_none (by simp; omega)]

namespace Workload

/-- What a rank with one stage does behind so many forwards and backwards, if forwards are never
late. -/
def turn (work : Workload) (rank forwards backwards : Nat) : Action :=
  if forwards < work.microbatches ∧ forwards < backwards + work.memoryLimit then
    .forward (work.layout.stage rank 0, forwards)
  else .backward (work.layout.stage rank 0, backwards)

def turns (work : Workload) (rank : Nat) : Nat → Nat → Nat → List Action
  | 0, _, _ => []
  | length + 1, forwards, backwards =>
      work.turn rank forwards backwards ::
        if forwards < work.microbatches ∧ forwards < backwards + work.memoryLimit then
          work.turns rank length (forwards + 1) backwards
        else work.turns rank length forwards (backwards + 1)

def held (work : Workload) : Nat :=
  min work.memoryLimit work.microbatches

variable {work : Workload} {rank : Nat}

end Workload

namespace Timetable

def tally (way : Way) (before : List TimedAction) : Nat :=
  ((before.map TimedAction.action).filterMap way.select).length

theorem tally_snoc (way : Way) (before : List TimedAction) (timed : TimedAction) :
    tally way (before ++ [timed]) = tally way before + (way.select timed.action).toList.length := by
  rw [tally, tally, List.map_append, List.filterMap_append, List.length_append]
  cases selected : way.select timed.action <;> simp [selected]

/-- The next forward of a rank with one stage, if the limit has room for it, is there when the rank
is free. -/
def Prompt (work : Workload) (table : Timetable) (rank : Nat) (before : List TimedAction) : Prop :=
  tally .forward before < work.microbatches →
    tally .forward before < tally .backward before + work.memoryLimit →
    ∀ tick, table.arrival? work rank
      (.forward (work.layout.stage rank 0, tally .forward before)) = some tick →
      tick ≤ Statistics.lastTick before

/-- With one stage on a rank and a prompt next forward, the preference depends on the tallies
alone. -/
theorem turn_of_preferred {work : Workload} {table : Timetable} {rank : Nat}
    {before : List TimedAction} {action : Action}
    (unmet : ∀ way : Way, unmet way work rank before = if tally way before < work.microbatches then
      some (work.layout.stage rank 0, tally way before) else none)
    (prompt : table.Prompt work rank before)
    (preferred : table.preferred? work rank before = some action) :
    action = work.turn rank (tally .forward before) (tally .backward before) := by
  have room : hasRoom work before = true ↔
      tally .forward before < tally .backward before + work.memoryLimit := decide_eq_true_iff
  rw [preferred?, unmet, unmet] at preferred
  unfold Workload.turn
  by_cases more : tally .forward before < work.microbatches
  · rw [if_pos more] at preferred
    by_cases back : tally .backward before < work.microbatches
    · -- Both are ahead, and the estimate of the forward is the earliest possible.
      simp only [if_pos back, Option.bind_eq_bind, Option.bind_eq_some_iff] at preferred
      obtain ⟨first, forward, second, backward, same⟩ := preferred
      obtain ⟨tick, arrived, rfl⟩ := Option.map_eq_some_iff.mp forward
      obtain ⟨_, _, rfl⟩ := Option.map_eq_some_iff.mp backward
      rw [← Option.some.inj same]
      refine if_congr ?_ rfl rfl
      rw [room]
      constructor
      · rintro ⟨space, _⟩
        exact ⟨more, space⟩
      · rintro ⟨_, space⟩
        exact ⟨space, max_le (le_max_left _ _) (le_max_of_le_left (prompt more space tick arrived))⟩
    · simp only [if_neg back, Option.ite_none_right_eq_some, Option.some.injEq, room] at preferred
      rw [if_pos ⟨more, preferred.1⟩, ← preferred.2]
  · rw [if_neg more] at preferred
    obtain ⟨pass, found, rfl⟩ := Option.map_eq_some_iff.mp preferred
    obtain ⟨_, same⟩ := Option.ite_none_right_eq_some.mp found
    rw [if_neg fun both => more both.1, ← Option.some.inj same]

end Timetable

namespace Simulation
open Course

variable {work : Workload} {state : Simulation} {rank : Nat} {clock : RankClock}
  {log : List Commit} {before after : List TimedAction} {timed : TimedAction}

namespace History

theorem unmet_single (single : work.layout.chunks = 1) (history : History work log state)
    (present : state.ranks[rank]? = some clock) (way : Way) :
    Timetable.unmet way work rank clock.timeline =
      if Timetable.tally way clock.timeline < work.microbatches then
        some (work.layout.stage rank 0, Timetable.tally way clock.timeline) else none := by
  rw [history.unmet_eq present, head?_of_front (history.order_split way present),
    (history.tracked present).passesOf_eq, ← Timetable.tally, way.order_single single,
    List.getElem?_map]
  split
  · rw [List.getElem?_range ‹_›, Option.map_some]
  · rw [List.getElem?_eq_none (by simp; omega), Option.map_none]

theorem turn (sound : work.layout.Sound) (single : work.layout.chunks = 1)
    (costs : work.cost.check = .ok ()) (history : History work log state)
    (done : state.done = true) (present : state.ranks[rank]? = some clock)
    (split : clock.timeline = before ++ timed :: after) (pass : timed.action.weights? = none)
    (prompt : state.timetable.Prompt work rank before) :
    timed.action = work.turn rank (Timetable.tally .forward before)
      (Timetable.tally .backward before) := by
  obtain ⟨forward, backward, _⟩ := CostModel.check_eq_ok.mp costs
  obtain ⟨past, chosen, here, rfl, rfl, onward⟩ := history.moment present split
  exact Timetable.turn_of_preferred (past.unmet_single single here) prompt
    (preferred_of_chosen sound forward backward pass past chosen onward done here)

theorem tally_of_done (single : work.layout.chunks = 1) (history : History work log state)
    (done : state.done = true) (present : state.ranks[rank]? = some clock) (way : Way) :
    Timetable.tally way clock.timeline = work.microbatches := by
  rw [Timetable.tally, ← (history.tracked present).passesOf_eq,
    history.order_of_done done way (history.inside present), way.order_single single,
    List.length_map, List.length_range]

end History
end Simulation
end PipelineTraining
