import PipelineTraining.Proofs.Clock.Outcome
import PipelineTraining.Proofs.Clock.Punctuality

/-!
How large the ticks get. A tick is a natural number here and a machine word where the clock
runs; the two agree as long as every sum that the clock forms is a word. `Workload.Fits` says
that they all are. With every action the clock goes on by a transfer and a pass at most, so
the counts and the costs bound all sums before the clock is started.
-/

namespace PipelineTraining

namespace Simulation

inductive Adds (work : Workload) (state : Simulation) : Nat → Prop
  | forward {rank tick : Nat} {clock : RankClock} {pass : Pass} {rest : List Pass}
      {before : StageId} (present : state.ranks[rank]? = some clock)
      (next : clock.forwards = pass :: rest) (room : clock.pending < work.memoryLimit)
      (behind : work.layout.prev pass.1 = some before)
      (finished : state.forwardDone.at? before pass.2 = some tick) :
      Adds work state (tick + hop work rank before)
  | backward {rank tick : Nat} {clock : RankClock} {pass : Pass} {rest : List Pass}
      {behind : StageId} (present : state.ranks[rank]? = some clock)
      (next : clock.backwards = pass :: rest) (before : work.layout.next pass.1 = some behind)
      (finished : state.backwardDone.at? behind pass.2 = some tick) :
      Adds work state (tick + hop work rank behind)
  -- Whether a weight pass fits into the gap is asked only where there is an action behind it.
  | gap {rank : Nat} {clock : RankClock} {critical weights : Candidate}
      (present : state.ranks[rank]? = some clock)
      (next : earlier (state.nextForward work rank clock) (state.nextBackward work rank clock) =
        some critical)
      (waits : nextWeights clock = some weights) :
      Adds work state (clock.freeAt + work.cost.weight)
  | finish {rank : Nat} {choice : Candidate}
      (chosen : state.earliest work 0 state.ranks = some (rank, choice)) :
      Adds work state (choice.start + choice.action.cost work.cost)

end Simulation

namespace Workload
open Simulation

/-- Every sum of ticks that the clock ever forms stays below a bound. -/
def Fits (work : Workload) (bound : Nat) : Prop :=
  ∀ log state, History work log state → ∀ sum, state.Adds work sum → sum < bound

def reach (work : Workload) : Nat :=
  work.cost.transfer + max (max work.cost.forward work.cost.backward) work.cost.weight

end Workload

namespace Simulation

variable {work : Workload} {state : Simulation} {log : List Commit} {rank tick sum : Nat}
  {clock : RankClock} {choice : Candidate}

structure Within (state : Simulation) (tick : Nat) : Prop where
  entered : ∀ (way : Way) (logical microbatch finish : Nat),
    state.entered way logical microbatch = some finish → finish ≤ tick
  free : ∀ (rank : Nat) (clock : RankClock), state.ranks[rank]? = some clock →
    clock.freeAt ≤ tick

theorem hop_le (work : Workload) (rank : Nat) (neighbour : StageId) :
    hop work rank neighbour ≤ work.cost.transfer := by
  unfold hop
  split
  · exact Nat.zero_le _
  · exact Nat.le_refl _

theorem cost_le (work : Workload) (action : Action) :
    work.cost.transfer + action.cost work.cost ≤ work.reach := by
  have bound : action.cost work.cost ≤
      max (max work.cost.forward work.cost.backward) work.cost.weight := by
    cases action with
    | forward => exact Nat.le_trans (Nat.le_max_left _ _) (Nat.le_max_left _ _)
    | backward => exact Nat.le_trans (Nat.le_max_right _ _) (Nat.le_max_left _ _)
    | weights => exact Nat.le_max_right _ _
  exact Nat.add_le_add_left bound _

namespace Within

theorem initial (work : Workload) : Within (.initial work) 0 where
  entered way logical microbatch finish found := by
    cases way <;> cases found
  free rank clock present := by
    simp only [Simulation.initial, List.getElem?_map, Option.map_eq_some_iff] at present
    obtain ⟨_, _, rfl⟩ := present
    exact Nat.le_refl 0

theorem hops (within : state.Within tick) (way : Way) {neighbour : StageId} {microbatch finish : Nat}
    (finished : (state.entered way).at? neighbour microbatch = some finish) :
    finish + hop work rank neighbour ≤ tick + work.cost.transfer :=
  Nat.add_le_add (within.entered way _ _ _ finished) (hop_le work rank neighbour)

theorem forwardArrival_le (within : state.Within tick) {pass : Pass} {arrival : Nat}
    (arrived : state.forwardArrival work rank pass = some arrival) :
    arrival ≤ tick + work.cost.transfer := by
  unfold forwardArrival at arrived
  cases before : work.layout.prev pass.1 with
  | none =>
      rw [before] at arrived
      obtain rfl := Option.some.inj arrived
      exact Nat.zero_le _
  | some stage =>
      rw [before] at arrived
      obtain ⟨finish, finished, rfl⟩ := Option.map_eq_some_iff.mp arrived
      exact within.hops .forward finished

theorem backwardArrival_le (within : state.Within tick) {pass : Pass} {arrival : Nat}
    (arrived : state.backwardArrival work rank pass = some arrival) :
    arrival ≤ tick + work.cost.transfer := by
  unfold backwardArrival at arrived
  cases behind : work.layout.next pass.1 with
  | none =>
      rw [behind] at arrived
      exact Nat.le_add_right_of_le (within.entered .forward _ _ _ arrived)
  | some stage =>
      rw [behind] at arrived
      obtain ⟨finish, finished, rfl⟩ := Option.map_eq_some_iff.mp arrived
      exact within.hops .backward finished

theorem start_le (within : state.Within tick) (present : state.ranks[rank]? = some clock)
    (granted : Granted work state rank clock choice) :
    choice.start ≤ tick + work.cost.transfer := by
  have free : clock.freeAt ≤ tick + work.cost.transfer :=
    Nat.le_add_right_of_le (within.free rank clock present)
  cases granted with
  | forward next room arrived => exact Nat.max_le.mpr ⟨within.forwardArrival_le arrived, free⟩
  | backward next arrived => exact Nat.max_le.mpr ⟨within.backwardArrival_le arrived, free⟩
  | weights next => exact free

theorem finish_le (within : state.Within tick)
    (chosen : state.earliest work 0 state.ranks = some (rank, choice)) :
    choice.start + choice.action.cost work.cost ≤ tick + work.reach := by
  obtain ⟨clock, present, granted⟩ := granted_of_earliest chosen
  have start := within.start_le present granted
  have cost := cost_le work choice.action
  omega

theorem adds_le (within : state.Within tick) (adds : state.Adds work sum) :
    sum ≤ tick + work.reach := by
  have transfer : work.cost.transfer ≤ work.reach := Nat.le_add_right _ _
  cases adds with
  | forward present next room behind finished =>
      exact Nat.le_trans (within.hops .forward finished) (Nat.add_le_add_left transfer _)
  | backward present next before finished =>
      exact Nat.le_trans (within.hops .backward finished) (Nat.add_le_add_left transfer _)
  | gap present =>
      have weight : work.cost.weight ≤ work.reach :=
        Nat.le_trans (Nat.le_max_right _ _) (Nat.le_add_left _ _)
      exact Nat.add_le_add (within.free _ _ present) weight
  | finish chosen => exact within.finish_le chosen

theorem commit (within : state.Within tick)
    (chosen : state.earliest work 0 state.ranks = some (rank, choice)) :
    (state.commit work rank choice).Within (tick + work.reach) := by
  have finish : (choice.timed work).finish ≤ tick + work.reach := within.finish_le chosen
  constructor
  · intro way logical microbatch entry found
    rw [entered_commit] at found
    cases selected : way.select choice.action with
    | none =>
        rw [selected] at found
        exact Nat.le_add_right_of_le (within.entered way _ _ _ found)
    | some pass =>
        simp only [selected, Completion.record] at found
        split at found
        · obtain rfl := Option.some.inj found
          exact finish
        · exact Nat.le_add_right_of_le (within.entered way _ _ _ found)
  · intro other clock present
    rcases clock_commit present with ⟨_, old, _, rfl⟩ | ⟨_, found⟩
    · rw [advance_freeAt]
      exact finish
    · exact Nat.le_add_right_of_le (within.free other clock found)

end Within

namespace History

theorem within (history : History work log state) : state.Within (log.length * work.reach) := by
  induction history with
  | initial =>
      rw [List.length_nil, Nat.zero_mul]
      exact .initial work
  | commit past chosen ih =>
      rw [List.length_append, List.length_singleton, Nat.succ_mul]
      exact ih.commit chosen

theorem length_le (history : History work log state) :
    log.length + state.ahead ≤ (Simulation.initial work).ahead := by
  induction history with
  | initial => simp
  | commit past chosen ih =>
      obtain ⟨clock, present, granted⟩ := granted_of_earliest chosen
      have less := ahead_commit present granted
      rw [List.length_append, List.length_singleton]
      omega

/-- The timelines of a clock that fits do so too. -/
theorem lastTick_lt {bound : Nat} (history : History work log state) (fits : work.Fits bound)
    (positive : 0 < bound) (present : state.ranks[rank]? = some clock) :
    Statistics.lastTick clock.timeline < bound := by
  induction history generalizing rank clock with
  | initial =>
      simp only [Simulation.initial, List.getElem?_map, Option.map_eq_some_iff] at present
      obtain ⟨_, _, rfl⟩ := present
      exact positive
  | commit past chosen ih =>
      rcases clock_commit present with ⟨_, old, _, rfl⟩ | ⟨_, found⟩
      · rw [advance_timeline, lastTick_snoc]
        exact fits _ _ past _ (.finish chosen)
      · exact ih found

end History

theorem ahead_initial (work : Workload) : (initial work).ahead =
    work.layout.depth * (3 * (work.microbatches * work.layout.chunks)) := by
  have rank : ∀ rank, (RankClock.start work rank).ahead =
      3 * (work.microbatches * work.layout.chunks) := by
    intro rank
    simp only [RankClock.ahead, RankClock.start, WorkOrder.forward_length,
      WorkOrder.backward_length, List.length_nil]
    omega
  simp [ahead, initial, Function.comp_def, rank]

end Simulation

namespace Workload
open Simulation

/-- A bound for every sum of ticks that is known before the clock is started. -/
theorem fits_of_reach {work : Workload} {bound : Nat}
    (small : (work.layout.depth * (3 * (work.microbatches * work.layout.chunks)) + 1) *
      work.reach < bound) : work.Fits bound := by
  intro log state history sum adds
  have committed := history.length_le
  rw [ahead_initial] at committed
  have late : sum ≤ (log.length + 1) * work.reach := by
    rw [Nat.succ_mul]
    exact history.within.adds_le adds
  have few := Nat.mul_le_mul_right work.reach
    (Nat.succ_le_succ (Nat.le_of_add_right_le committed))
  exact Nat.lt_of_le_of_lt (Nat.le_trans late few) small

theorem Fits.makespan_lt {work : Workload} {bound : Nat} {timelines : List (List TimedAction)}
    (fits : work.Fits bound) (positive : 0 < bound) (timed : work.simulate = .ok timelines) :
    (Statistics.ofTimelines timelines).makespan < bound := by
  rcases work.simulate_ends with ⟨log, final, ended, history, _⟩ | ⟨log, final, stuck, _⟩
  · obtain rfl := Except.ok.inj (timed.symm.trans ended)
    have last : ∀ tick ∈ (final.ranks.map RankClock.timeline).map Statistics.lastTick,
        tick < bound := by
      intro tick member
      obtain ⟨timeline, listed, rfl⟩ := List.mem_map.mp member
      obtain ⟨clock, held, rfl⟩ := List.mem_map.mp listed
      obtain ⟨rank, present⟩ := List.mem_iff_getElem?.mp held
      exact history.lastTick_lt fits positive present
    unfold Statistics.ofTimelines
    rw [List.foldl_max]
    cases greatest : ((final.ranks.map RankClock.timeline).map Statistics.lastTick).max? with
    | none => simpa using positive
    | some tick => simpa using last tick (List.max?_eq_some_iff.mp greatest).1
  · cases timed.symm.trans stuck

end Workload
end PipelineTraining
