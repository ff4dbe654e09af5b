import PipelineTraining.Proofs.Clock.Turns

/-!
The phases of a pipeline whose ranks hold one stage each. A rank warms up with as many
forwards as it may hold, one behind the other as the first rank sends them down, and then
turns to its first backward. What follows on the first rank is its rhythm.
-/

namespace PipelineTraining

theorem Layout.prev_stage_zero {layout : Layout} {rank : Nat} (inside : rank < layout.depth) :
    layout.prev (layout.stage (rank + 1) 0) = some (layout.stage rank 0) := by
  rw [prev_eq_some, stage_zero, stage_zero]
  refine ⟨Nat.succ_ne_zero _, ?_⟩
  unfold stageAt
  cases layout.placement <;> simp [inside, Nat.div_eq_of_lt inside]

namespace Workload

/-- A forward of a rank that starts with the first activation that can reach it and is never
interrupted. -/
def opening (work : Workload) (rank microbatch : Nat) : TimedAction :=
  let start := rank * (work.cost.forward + work.cost.transfer) + microbatch * work.cost.forward
  ⟨.forward (work.layout.stage rank 0, microbatch), start, start + work.cost.forward⟩

def warmUp (work : Workload) (rank count : Nat) : List TimedAction :=
  (List.range count).map (work.opening rank)

theorem warmUp_succ (work : Workload) (rank count : Nat) :
    work.warmUp rank (count + 1) = work.warmUp rank count ++ [work.opening rank count] := by
  rw [warmUp, List.range_succ, List.map_append, List.map_singleton, warmUp]

theorem warmUp_actions (work : Workload) (rank count : Nat) :
    (work.warmUp rank count).map TimedAction.action =
      (List.range count).map fun microbatch =>
        .forward (work.layout.stage rank 0, microbatch) := by
  rw [warmUp, List.map_map]
  rfl

theorem lastTick_warmUp (work : Workload) (rank count : Nat) :
    Statistics.lastTick (work.warmUp rank (count + 1)) = (work.opening rank (count + 1)).start := by
  rw [warmUp_succ, Simulation.lastTick_snoc]
  simp only [opening]
  ring

end Workload

theorem Timetable.tally_warmUp (work : Workload) (rank count : Nat) :
    tally .forward (work.warmUp rank count) = count ∧
      tally .backward (work.warmUp rank count) = 0 := by
  induction count with
  | zero => exact ⟨rfl, rfl⟩
  | succ count ih =>
      rw [Workload.warmUp_succ, tally_snoc, tally_snoc, ih.1, ih.2]
      exact ⟨rfl, rfl⟩

namespace Simulation
open Course

variable {work : Workload} {state : Simulation} {rank : Nat} {clock : RankClock}
  {log : List Commit} {pass : Pass} {before after : List TimedAction}
  {timed : TimedAction}

namespace History

theorem pass_at (history : History work log state) (done : state.done = true)
    (present : state.ranks[rank]? = some clock) (way : Way)
    (split : clock.timeline = before ++ timed :: after) (given : timed.action = way.action pass) :
    (way.order work.layout rank work.microbatches)[Timetable.tally way before]? = some pass := by
  have order := history.order_of_done done way (history.inside present)
  have selected : way.select (way.action pass) = some pass := by cases way <;> rfl
  rw [(history.tracked present).passesOf_eq, split, List.map_append, List.map_cons, given,
    List.filterMap_append, List.filterMap_cons_some selected] at order
  rw [← order, Timetable.tally, List.getElem?_append_right (Nat.le_refl _), Nat.sub_self,
    List.getElem?_cons_zero]

/-- A backward stands behind its forward, and a weight pass behind its backward. -/
theorem preceded (sound : work.layout.Sound) (history : History work log state)
    (present : state.ranks[rank]? = some clock)
    (split : clock.timeline = before ++ timed :: after) :
    (timed.action = .backward pass → .forward pass ∈ before.map TimedAction.action) ∧
      (timed.action = .weights pass → .backward pass ∈ before.map TimedAction.action) := by
  have part := (history.tracked present).timeline
  rw [split, List.map_append, List.map_cons] at part
  obtain ⟨front, back, logged, same⟩ := partOf_split part.symm
  rw [← same]
  constructor
  · intro given
    rw [given] at logged
    exact mem_partOf.mpr (history.own_forward sound logged)
  · intro given
    have fed := history.ordered sound front rank _ back logged
    rw [given] at fed
    exact mem_partOf.mpr fed

theorem finish_of_mem (history : History work log state)
    (present : state.ranks[rank]? = some clock) (member : timed ∈ clock.timeline) :
    state.timetable.finish? rank timed.action = some timed.finish := by
  obtain ⟨same, listed, action, entered⟩ :=
    Timetable.finish?_of_mem (timetable_at present) member
  have noDup := partOf_nodup rank history.nodup
  rw [← (history.tracked present).timeline] at noDup
  rwa [List.inj_on_of_nodup_map noDup listed member action] at entered

theorem entry_behind (single : work.layout.chunks = 1) (history : History work log state)
    (done : state.done = true) (present : state.ranks[rank]? = some clock) (way : Way)
    (split : clock.timeline = before ++ after)
    (fewer : Timetable.tally way before < work.microbatches) :
    ∃ timed rest, after = timed :: rest := by
  cases after with
  | cons timed rest => exact ⟨timed, rest, rfl⟩
  | nil =>
      have whole := history.tally_of_done single done present way
      rw [split, List.append_nil] at whole
      omega

theorem next_of_warmUp (sound : work.layout.Sound) (history : History work log state)
    (present : state.ranks[rank]? = some clock) {count : Nat}
    (split : clock.timeline = work.warmUp rank count ++ timed :: after) :
    timed.action.weights? = none ∧ ∀ pass, timed.action = .backward pass → 0 < count := by
  constructor
  · cases weights : timed.action.weights? with
    | none => rfl
    | some spent =>
        have listed := (history.preceded sound present split).2
          (Action.weights?_eq_some.mp weights)
        simp [Workload.warmUp_actions] at listed
  · intro pass given
    have listed := (history.preceded sound present split).1 given
    rw [Workload.warmUp_actions, List.mem_map] at listed
    obtain ⟨microbatch, below, _⟩ := listed
    rw [List.mem_range] at below
    omega

theorem opening_action (sound : work.layout.Sound) (single : work.layout.chunks = 1)
    (costs : work.cost.check = .ok ()) (history : History work log state)
    (done : state.done = true) (present : state.ranks[rank]? = some clock) {count tick : Nat}
    (room : count < work.held)
    (split : clock.timeline = work.warmUp rank count ++ timed :: after)
    (arrived : state.timetable.arrival? work rank
      (.forward (work.layout.stage rank 0, count)) = some tick)
    (starts : max (Statistics.lastTick (work.warmUp rank count)) tick =
      (work.opening rank count).start) :
    timed.action = .forward (work.layout.stage rank 0, count) := by
  obtain ⟨pass, opened⟩ := history.next_of_warmUp sound present split
  obtain ⟨forwards, backwards⟩ := Timetable.tally_warmUp work rank count
  obtain ⟨limit, below⟩ := Nat.lt_min.mp room
  cases action : timed.action with
  | weights => simp [action, Action.weights?] at pass
  | forward pass =>
      have placed := history.pass_at done present .forward split action
      rw [Way.order_single _ single, forwards, List.getElem?_map, List.getElem?_range below] at placed
      rw [← Option.some.inj placed]
  | backward back =>
      -- Its forward is behind it, so the next forward is there when the rank is free.
      obtain ⟨previous, rfl⟩ := Nat.exists_eq_add_one.mpr (opened back action)
      have prompt : state.timetable.Prompt work rank (work.warmUp rank (previous + 1)) := by
        intro _ _ other found
        rw [forwards] at found
        obtain rfl := Option.some.inj (arrived.symm.trans found)
        rw [← Workload.lastTick_warmUp] at starts
        exact max_eq_left_iff.mp starts
      have turn := history.turn sound single costs done present split pass prompt
      rw [forwards, backwards, Workload.turn, if_pos ⟨below, by omega⟩] at turn
      exact action.symm.trans turn

theorem opening_next (sound : work.layout.Sound) (history : History work log state)
    (present : state.ranks[rank]? = some clock) {count tick : Nat}
    (split : clock.timeline = work.warmUp rank count ++ timed :: after)
    (given : timed.action = .forward (work.layout.stage rank 0, count))
    (arrived : state.timetable.arrival? work rank
      (.forward (work.layout.stage rank 0, count)) = some tick)
    (starts : max (Statistics.lastTick (work.warmUp rank count)) tick =
      (work.opening rank count).start) :
    timed = work.opening rank count := by
  obtain ⟨takes, ⟨arrival, found, start⟩, _⟩ :=
    (history.punctual sound present).onTime _ _ _ split
  rw [given] at takes found
  obtain rfl := Option.some.inj (arrived.symm.trans found)
  rw [starts] at start
  calc timed
    _ = ⟨timed.action, timed.start, timed.finish⟩ := rfl
    _ = work.opening rank count := by
        rw [takes, start, given]
        rfl

theorem opening_arrival (history : History work log state)
    (present : state.ranks[rank]? = some clock) {count : Nat}
    (sent : ∀ previous, rank = previous + 1 →
      state.timetable.finish? previous (.forward (work.layout.stage previous 0, count)) =
        some (work.opening previous count).finish) :
    ∃ tick, state.timetable.arrival? work rank
        (.forward (work.layout.stage rank 0, count)) = some tick ∧
      max (Statistics.lastTick (work.warmUp rank count)) tick =
        (work.opening rank count).start := by
  have inside := history.inside present
  cases rank with
  | zero =>
      refine ⟨0, by simp only [Timetable.arrival?, Layout.prev_stage_first], ?_⟩
      cases count with
      | zero => simp [Workload.warmUp, Workload.opening, Statistics.lastTick]
      | succ count => rw [Workload.lastTick_warmUp, Nat.max_zero]
  | succ previous =>
      have sent := sent previous rfl
      have source := Layout.prev_stage_zero (Nat.lt_of_succ_lt inside)
      have owner := Layout.rankOf_stage (Nat.lt_of_succ_lt inside) 0
      have hop : hop work (previous + 1) (work.layout.stage previous 0) = work.cost.transfer := by
        rw [hop, owner, if_neg (by omega)]
      refine ⟨(work.opening (previous + 1) count).start, ?_, Nat.max_eq_right ?_⟩
      · simp only [Timetable.arrival?, source, owner, sent, hop, Option.map_some, Workload.opening]
        congr 1
        ring
      · cases count with
        | zero => exact Nat.zero_le _
        | succ count => rw [Workload.lastTick_warmUp]

/-- Every rank with one stage opens with the forwards of its warm-up. -/
theorem opens (sound : work.layout.Sound) (single : work.layout.chunks = 1)
    (costs : work.cost.check = .ok ()) (history : History work log state)
    (done : state.done = true) (present : state.ranks[rank]? = some clock) {count : Nat}
    (room : count ≤ work.held) :
    ∃ rest, clock.timeline = work.warmUp rank count ++ rest := by
  -- Induction on the ranks, as activations come from the rank before, and on the forwards.
  induction rank using Nat.strong_induction_on generalizing clock count with
  | _ rank earlier =>
      induction count with
      | zero => exact ⟨_, rfl⟩
      | succ count ih =>
          obtain ⟨rest, split⟩ := ih (Nat.le_of_lt room)
          have fewer : Timetable.tally .forward (work.warmUp rank count) < work.microbatches := by
            rw [(Timetable.tally_warmUp work rank count).1]
            exact Nat.lt_of_lt_of_le room (Nat.min_le_right _ _)
          obtain ⟨timed, rest, rfl⟩ :=
            history.entry_behind single done present .forward split fewer
          have sent : ∀ previous, rank = previous + 1 →
              state.timetable.finish? previous (.forward (work.layout.stage previous 0, count)) =
                some (work.opening previous count).finish := by
            rintro previous rfl
            obtain ⟨clock, there⟩ :=
              history.clock_of_rank (Nat.lt_of_succ_lt (history.inside present))
            obtain ⟨later, opened⟩ := earlier previous (Nat.lt_succ_self _) there room
            have listed : work.opening previous count ∈ clock.timeline := by
              rw [opened, Workload.warmUp_succ]
              simp
            exact history.finish_of_mem there listed
          obtain ⟨tick, arrived, starts⟩ := history.opening_arrival present sent
          have given :=
            history.opening_action sound single costs done present room split arrived starts
          obtain rfl := history.opening_next sound present split given arrived starts
          refine ⟨rest, ?_⟩
          rw [split, Workload.warmUp_succ, List.append_assoc, List.singleton_append]

end History
end Simulation

namespace Workload

end Workload
end PipelineTraining
