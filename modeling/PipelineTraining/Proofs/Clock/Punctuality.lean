import PipelineTraining.Proofs.Clock.Feasibility
import PipelineTraining.Proofs.Clock.Timetable

/-!
A clock that ran to its end gives every rank a timeline with each of its passes
once, in the order of its work, and every action on time.
-/

namespace PipelineTraining

def Candidate.timed (choice : Candidate) (work : Workload) : TimedAction :=
  ⟨choice.action, choice.start, choice.start + choice.action.cost work.cost⟩

namespace Simulation
open Course

variable {work : Workload} {state : Simulation} {rank : Nat} {clock : RankClock}
  {choice : Candidate} {log : List Commit}

def timetable (state : Simulation) : Timetable :=
  state.ranks.map RankClock.timeline

def entered (state : Simulation) : Way → Completion
  | .forward => state.forwardDone
  | .backward => state.backwardDone

theorem timetable_eq_some {timeline : List TimedAction} :
    state.timetable[rank]? = some timeline ↔
      ∃ clock, state.ranks[rank]? = some clock ∧ clock.timeline = timeline := by
  rw [timetable, List.getElem?_map, Option.map_eq_some_iff]

theorem timetable_at (present : state.ranks[rank]? = some clock) :
    state.timetable[rank]? = some clock.timeline :=
  timetable_eq_some.mpr ⟨clock, present, rfl⟩

theorem advance_timeline (clock : RankClock) :
    (advance work choice clock).timeline = clock.timeline ++ [choice.timed work] := by
  obtain ⟨start, action⟩ := choice
  cases action <;> rfl

theorem timetable_commit : (state.commit work rank choice).timetable =
    state.timetable.extend rank (choice.timed work) := by
  refine List.ext_getElem? fun index => ?_
  rw [timetable, Timetable.extend, timetable, ranks_commit, List.getElem?_map, List.getElem?_modify,
    List.getElem?_modify, List.getElem?_map]
  split <;> cases state.ranks[index]? <;> simp [advance_timeline]

theorem entered_commit (way : Way) : (state.commit work rank choice).entered way =
    match way.select choice.action with
    | some pass => (state.entered way).record pass (choice.timed work).finish
    | none => state.entered way := by
  obtain ⟨start, action⟩ := choice
  cases way <;> cases action <;> rfl

structure Punctual (work : Workload) (table : Timetable) (rank : Nat) (clock : RankClock) :
    Prop where
  free : clock.freeAt = Statistics.lastTick clock.timeline
  past : ∀ timed ∈ clock.timeline, timed.finish ≤ clock.freeAt
  onTime : ∀ before timed after, clock.timeline = before ++ timed :: after →
    Timetable.OnTime work table rank before timed

theorem Punctual.mono {larger : Timetable} {table : Timetable}
    (grown : ∀ rank action tick, table.finish? rank action = some tick →
      larger.finish? rank action = some tick)
    (punctual : Punctual work table rank clock) : Punctual work larger rank clock :=
  ⟨punctual.free, punctual.past,
    fun before timed after split => (punctual.onTime before timed after split).mono grown⟩

theorem advance_freeAt (clock : RankClock) :
    (advance work choice clock).freeAt = (choice.timed work).finish := by
  obtain ⟨start, action⟩ := choice
  cases action <;> rfl

theorem lastTick_snoc (timeline : List TimedAction) (timed : TimedAction) :
    Statistics.lastTick (timeline ++ [timed]) = timed.finish := by
  simp [Statistics.lastTick]

theorem Punctual.advanced {table : Timetable} (punctual : Punctual work table rank clock)
    (later : clock.freeAt ≤ choice.start)
    (onTime : Timetable.OnTime work table rank clock.timeline (choice.timed work)) :
    Punctual work table rank (advance work choice clock) := by
  have finish : clock.freeAt ≤ (choice.timed work).finish :=
    Nat.le_trans later (Nat.le_add_right _ _)
  constructor
  · rw [advance_freeAt, advance_timeline, lastTick_snoc]
  · intro timed member
    rw [advance_timeline] at member
    rw [advance_freeAt]
    rcases List.mem_append.mp member with old | new
    · exact Nat.le_trans (punctual.past timed old) finish
    · rw [List.mem_singleton.mp new]
  · intro before timed after split
    rw [advance_timeline] at split
    rcases snoc_split split with ⟨rfl, rfl, _⟩ | ⟨rest, _, same⟩
    · exact onTime
    · exact punctual.onTime before timed rest same

namespace History

theorem unfinished (history : History work log state) {action : Action}
    (unseen : (rank, action) ∉ taken log) : state.timetable.finish? rank action = none := by
  cases found : state.timetable.finish? rank action with
  | none => rfl
  | some tick =>
      obtain ⟨timeline, present, listed⟩ := Timetable.mem_of_finish? found
      obtain ⟨clock, here, rfl⟩ := timetable_eq_some.mp present
      rw [(history.tracked here).timeline] at listed
      exact absurd (mem_partOf.mp listed) unseen

theorem entered (history : History work log state) {action : Action}
    (member : (rank, action) ∈ taken log) :
    ∃ tick, state.timetable.finish? rank action = some tick := by
  obtain ⟨clock, present⟩ := history.clock_of_rank (history.rank_lt member)
  have listed : action ∈ clock.timeline.map TimedAction.action := by
    rw [(history.tracked present).timeline]
    exact mem_partOf.mpr member
  obtain ⟨timed, here, rfl⟩ := List.mem_map.mp listed
  obtain ⟨first, _, _, finished⟩ := Timetable.finish?_of_mem (timetable_at present) here
  exact ⟨first.finish, finished⟩

/-- Once the action that a pass waits for is committed, the tick at which its input comes is
known. -/
theorem supplied (history : History work log state) {way : Way} {pass : Pass}
    (fed : Fed work.layout (taken log) rank (way.action pass)) :
    ∃ tick, state.timetable.arrival? work rank (way.action pass) = some tick := by
  obtain ⟨stage, microbatch⟩ := pass
  cases way with
  | forward =>
      simp only [Way.action, Fed, Timetable.arrival?] at fed ⊢
      cases found : work.layout.prev stage with
      | none => exact ⟨0, rfl⟩
      | some source =>
          obtain ⟨tick, finished⟩ := history.entered (fed source found)
          exact ⟨_, Option.map_eq_some_iff.mpr ⟨tick, finished, rfl⟩⟩
  | backward =>
      simp only [Way.action, Fed, Timetable.arrival?] at fed ⊢
      cases found : work.layout.next stage with
      | none =>
          simp only [found] at fed
          exact history.entered fed
      | some source =>
          simp only [found] at fed
          obtain ⟨tick, finished⟩ := history.entered fed
          exact ⟨_, Option.map_eq_some_iff.mpr ⟨tick, finished, rfl⟩⟩

theorem agrees (sound : work.layout.Sound) (history : History work log state) (way : Way)
    {stage : StageId} (known : work.layout.IsStage stage) (microbatch : Nat) :
    (state.entered way).at? stage microbatch =
      state.timetable.finish? (work.layout.rankOf stage) (way.action (stage, microbatch)) := by
  induction history with
  | initial =>
      rw [unfinished .initial (by simp [taken])]
      cases way <;> rfl
  | commit past chosen ih =>
      rename_i log state rank choice
      obtain ⟨clock, present, granted⟩ := granted_of_earliest chosen
      have fresh := past.unfinished (past.unseen present granted)
      rw [timetable_commit, entered_commit]
      by_cases here : rank = work.layout.rankOf stage ∧
          choice.action = way.action (stage, microbatch)
      · obtain ⟨rfl, same⟩ := here
        have inside : work.layout.rankOf stage < state.timetable.length := by
          rw [timetable, List.length_map]
          exact (List.getElem?_eq_some_iff.mp present).1
        have self : (choice.timed work).action = way.action (stage, microbatch) := same
        rw [same] at fresh
        rw [← self] at fresh ⊢
        rw [Timetable.finish?_extend_self inside fresh]
        cases way <;> simp [same, Way.select, Way.action, Completion.at?, Completion.record,
          Action.forward?, Action.backward?]
      · rw [Timetable.finish?_extend_unlike here, ← ih]
        cases selected : way.select choice.action with
        | none => rfl
        | some pass =>
            -- Another pass of the way has another logical stage or another micro-batch.
            obtain ⟨other, another⟩ := pass
            have action : choice.action = way.action (other, another) := by
              cases way
              · exact Action.forward?_eq_some.mp selected
              · exact Action.backward?_eq_some.mp selected
            refine if_neg fun same => here ?_
            have listed : (rank, way.action (other, another)) ∈
                taken (log ++ [(rank, choice)]) := by
              rw [taken_snoc, ← action]
              exact List.mem_append_right _ List.mem_cons_self
            obtain ⟨placed, owned, _⟩ := (past.commit chosen).placed_pass sound listed
            obtain rfl := known.eq_of_logical placed same.1
            obtain rfl : microbatch = another := same.2
            exact ⟨owned.symm, action⟩

theorem forwardArrival_eq (sound : work.layout.Sound) (history : History work log state)
    {stage : StageId} (known : work.layout.IsStage stage) (rank microbatch : Nat) :
    state.forwardArrival work rank (stage, microbatch) =
      state.timetable.arrival? work rank (.forward (stage, microbatch)) := by
  simp only [forwardArrival, Timetable.arrival?]
  cases found : work.layout.prev stage with
  | none => rfl
  | some source =>
      have agreed := history.agrees sound .forward (Layout.isStage_prev known found) microbatch
      exact congrArg (Option.map (· + hop work rank source)) agreed

theorem backwardArrival_eq (sound : work.layout.Sound) (history : History work log state)
    {stage : StageId} (known : work.layout.IsStage stage) (owned : work.layout.rankOf stage = rank)
    (microbatch : Nat) : state.backwardArrival work rank (stage, microbatch) =
      state.timetable.arrival? work rank (.backward (stage, microbatch)) := by
  simp only [backwardArrival, Timetable.arrival?]
  cases found : work.layout.next stage with
  | none =>
      have agreed := history.agrees sound .forward known microbatch
      rwa [owned] at agreed
  | some source =>
      have agreed := history.agrees sound .backward (Layout.isStage_next known found) microbatch
      exact congrArg (Option.map (· + hop work rank source)) agreed

theorem grown (work : Workload) (state : Simulation) (rank : Nat) (choice : Candidate)
    (other : Nat) (action : Action) (tick : Nat)
    (before : state.timetable.finish? other action = some tick) :
    (state.commit work rank choice).timetable.finish? other action = some tick := by
  rw [timetable_commit]
  exact Timetable.finish?_extend_kept before

theorem known_ahead (sound : work.layout.Sound) (history : History work log state)
    (present : state.ranks[rank]? = some clock) (way : Way) {stage : StageId} {microbatch : Nat}
    {rest : List Pass} (next : way.ahead clock = (stage, microbatch) :: rest) :
    work.layout.IsStage stage ∧ work.layout.rankOf stage = rank ∧
      microbatch < work.microbatches := by
  have inside := history.inside present
  have listed : (stage, microbatch) ∈ way.order work.layout rank work.microbatches := by
    rw [← history.order_split way present, next]
    exact List.mem_append_right _ List.mem_cons_self
  obtain ⟨chunk, held, other, below, same⟩ := way.mem_order.mp listed
  obtain ⟨rfl, rfl⟩ := Prod.mk.inj same
  exact ⟨Layout.isStage_stage sound inside held, Layout.rankOf_stage inside chunk, below⟩

theorem onTime_of_granted (sound : work.layout.Sound) (history : History work log state)
    (present : state.ranks[rank]? = some clock) (granted : Granted work state rank clock choice)
    (punctual : Punctual work state.timetable rank clock) :
    clock.freeAt ≤ choice.start ∧
      Timetable.OnTime work state.timetable rank clock.timeline (choice.timed work) := by
  have fed := history.fed sound present granted
  cases granted with
  | @forward pass rest tick next room arrived =>
      obtain ⟨stage, microbatch⟩ := pass
      obtain ⟨known, _⟩ := history.known_ahead sound present .forward next
      rw [history.forwardArrival_eq sound known] at arrived
      refine ⟨Nat.le_max_right .., rfl, ⟨tick, arrived, ?_⟩, fun _ same => by cases same⟩
      rw [← punctual.free]
      exact Nat.max_comm ..
  | @backward pass rest tick next arrived =>
      obtain ⟨stage, microbatch⟩ := pass
      obtain ⟨known, owned, _⟩ := history.known_ahead sound present .backward next
      rw [history.backwardArrival_eq sound known owned] at arrived
      refine ⟨Nat.le_max_right .., rfl, ⟨tick, arrived, ?_⟩, fun _ same => by cases same⟩
      rw [← punctual.free]
      exact Nat.max_comm ..
  | @weights pass rest next =>
      -- Its backward stands behind on the same timeline.
      have listed : Action.backward pass ∈ clock.timeline.map TimedAction.action := by
        rw [(history.tracked present).timeline]
        exact mem_partOf.mpr fed
      obtain ⟨timed, member, same⟩ := List.mem_map.mp listed
      obtain ⟨first, earlier, _, finished⟩ :=
        Timetable.finish?_of_mem (timetable_at present) member
      rw [same] at finished
      refine ⟨Nat.le_refl _, rfl, ⟨first.finish, finished, ?_⟩, fun _ _ => punctual.free⟩
      rw [← punctual.free]
      exact (Nat.max_eq_left (punctual.past first earlier)).symm

theorem punctual (sound : work.layout.Sound) (history : History work log state)
    (present : state.ranks[rank]? = some clock) :
    Punctual work state.timetable rank clock := by
  induction history generalizing rank clock with
  | initial =>
      simp only [Simulation.initial, List.getElem?_map, Option.map_eq_some_iff] at present
      obtain ⟨index, _, rfl⟩ := present
      refine ⟨rfl, fun timed member => ?_, fun before timed after split => ?_⟩
      · simp [RankClock.start] at member
      · simp [RankClock.start] at split
  | commit past chosen ih =>
      rename_i log state taker choice
      have grown := grown work state taker choice
      rcases clock_commit present with ⟨rfl, old, found, rfl⟩ | ⟨_, found⟩
      · obtain ⟨clock, here, granted⟩ := granted_of_earliest chosen
        obtain rfl := Option.some.inj (found.symm.trans here)
        obtain ⟨later, onTime⟩ := past.onTime_of_granted sound found granted (ih found)
        exact ((ih found).mono grown).advanced later (onTime.mono grown)
      · exact (ih found).mono grown

end History

inductive Onward (work : Workload) (first : Simulation) : Simulation → Prop
  | refl : Onward work first first
  | commit {state : Simulation} {rank : Nat} {choice : Candidate} (past : Onward work first state)
      (chosen : state.earliest work 0 state.ranks = some (rank, choice)) :
      Onward work first (state.commit work rank choice)

/-- The commit that put an action onto the timeline of a rank, behind what stood there before. -/
inductive Moment (work : Workload) (state : Simulation) (rank : Nat) (before : List TimedAction)
    (timed : TimedAction) : Prop
  | intro {log : List Commit} {earlier : Simulation} {choice : Candidate} {clock : RankClock}
      (history : History work log earlier)
      (chosen : earlier.earliest work 0 earlier.ranks = some (rank, choice))
      (present : earlier.ranks[rank]? = some clock) (timeline : clock.timeline = before)
      (committed : timed = choice.timed work)
      (onward : Onward work (earlier.commit work rank choice) state)

/-- An action on a timeline stands there by one commit of the log, made when the rank had come so
far. -/
theorem History.commit_of_entry (history : History work log state)
    (present : state.ranks[rank]? = some clock) {before after : List TimedAction}
    {timed : TimedAction} (split : clock.timeline = before ++ timed :: after) :
    ∃ past choice later earlier old, log = past ++ (rank, choice) :: later ∧
      History work past earlier ∧ earlier.earliest work 0 earlier.ranks = some (rank, choice) ∧
      earlier.ranks[rank]? = some old ∧ old.timeline = before ∧ timed = choice.timed work ∧
      Onward work (earlier.commit work rank choice) state := by
  induction history generalizing rank clock after with
  | initial =>
      simp only [Simulation.initial, List.getElem?_map, Option.map_eq_some_iff] at present
      obtain ⟨index, _, rfl⟩ := present
      simp [RankClock.start] at split
  | commit history chosen ih =>
      rename_i log state taker last
      -- An entry that was there before the last commit has the last commit behind it.
      have older : ∀ {rank clock after}, state.ranks[rank]? = some clock →
          clock.timeline = before ++ timed :: after →
          ∃ past choice later earlier old, log ++ [(taker, last)] =
              past ++ (rank, choice) :: later ∧
            History work past earlier ∧
            earlier.earliest work 0 earlier.ranks = some (rank, choice) ∧
            earlier.ranks[rank]? = some old ∧ old.timeline = before ∧
            timed = choice.timed work ∧
            Onward work (earlier.commit work rank choice) (state.commit work taker last) := by
        intro rank clock after present split
        obtain ⟨past, choice, later, earlier, old, rfl, before, first, here, same, committed,
          onward⟩ := ih present split
        exact ⟨past, choice, later ++ [(taker, last)], earlier, old, by simp, before, first, here,
          same, committed, onward.commit chosen⟩
      rcases clock_commit present with ⟨rfl, old, found, rfl⟩ | ⟨_, found⟩
      · rw [advance_timeline] at split
        rcases snoc_split split with ⟨same, committed, _⟩ | ⟨rest, _, same⟩
        · exact ⟨log, last, [], state, old, rfl, history, chosen, found, same, committed.symm,
            .refl⟩
        · exact older found same
      · exact older found split

theorem History.moment (history : History work log state)
    (present : state.ranks[rank]? = some clock) {before after : List TimedAction}
    {timed : TimedAction} (split : clock.timeline = before ++ timed :: after) :
    Moment work state rank before timed := by
  obtain ⟨_, _, _, _, _, _, past, chosen, here, same, committed, onward⟩ :=
    history.commit_of_entry present split
  exact ⟨past, chosen, here, same, committed, onward⟩

end Simulation

namespace Workload

theorem simulated {work : Workload} {timelines : Timetable}
    (simulated : work.simulate = .ok timelines) : ∃ log final,
      Simulation.History work log final ∧ final.done = true ∧ timelines = final.timetable := by
  rcases work.simulate_ends with ⟨log, final, ended, history, done⟩ | ⟨log, final, ended, _⟩
  · exact ⟨log, final, history, done, Except.ok.inj (simulated.symm.trans ended)⟩
  · rw [ended] at simulated
    cases simulated

end Workload
end PipelineTraining
