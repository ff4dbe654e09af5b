import PipelineTraining.Proofs.Clock.Exactness
import PipelineTraining.Proofs.Clock.Horizon

/-!
The clock chooses between a forward and a backward while inputs are missing whose
ticks nobody knows yet. It chooses as if it knew them: an input that is missing at a
commit comes from an action that starts no earlier, and so it arrives too late to
matter.
-/

namespace PipelineTraining

namespace Timetable

def unmet (way : Way) (work : Workload) (rank : Nat) (before : List TimedAction) : Option Pass :=
  (way.order work.layout rank work.microbatches).find? fun pass =>
    decide (way.action pass ∉ before.map TimedAction.action)

def estimate? (work : Workload) (table : Timetable) (rank : Nat) (before : List TimedAction)
    (action : Action) : Option Nat :=
  (table.arrival? work rank action).map (max (Statistics.lastTick before))

def hasRoom (work : Workload) (before : List TimedAction) : Bool :=
  ((before.map TimedAction.action).filterMap Action.forward?).length <
    ((before.map TimedAction.action).filterMap Action.backward?).length + work.memoryLimit

/-- What a rank takes up next if it knows when every input arrives: the pass that can start
first, a forward in a tie. -/
def preferred? (work : Workload) (table : Timetable) (rank : Nat) (before : List TimedAction) :
    Option Action :=
  match unmet .forward work rank before, unmet .backward work rank before with
  | none, back => back.map Action.backward
  | some pass, none => if hasRoom work before then some (.forward pass) else none
  | some pass, some back => do
      let first ← table.estimate? work rank before (.forward pass)
      let second ← table.estimate? work rank before (.backward back)
      return if hasRoom work before ∧ first ≤ second then .forward pass else .backward back

end Timetable

namespace Simulation
open Course

variable {work : Workload} {state first : Simulation} {rank other tick : Nat} {clock : RankClock}
  {choice : Candidate} {log : List Commit} {action : Action}

namespace Onward

theorem history (history : History work log first) (onward : Onward work first state) :
    ∃ log, History work log state := by
  induction onward with
  | refl => exact ⟨log, history⟩
  | commit _ chosen ih =>
      obtain ⟨log, past⟩ := ih
      exact ⟨_, past.commit chosen⟩

theorem kept (onward : Onward work first state) (rank : Nat) (action : Action) (tick : Nat)
    (entered : first.timetable.finish? rank action = some tick) :
    state.timetable.finish? rank action = some tick := by
  induction onward with
  | refl => exact entered
  | commit _ chosen ih => exact History.grown _ _ _ _ _ _ _ ih

theorem arrival_kept (onward : Onward work (first.commit work rank choice) state)
    (arrived : first.timetable.arrival? work other action = some tick) :
    state.timetable.arrival? work other action = some tick :=
  Timetable.arrival?_mono (fun _ _ _ entered =>
    onward.kept _ _ _ (History.grown _ _ _ _ _ _ _ entered)) arrived

/-- Everything behind a commit starts no earlier. -/
theorem behind (sound : work.layout.Sound) (history : History work log first)
    (chosen : first.earliest work 0 first.ranks = some (rank, choice))
    (onward : Onward work (first.commit work rank choice) state) {next : Candidate}
    (later : state.earliest work 0 state.ranks = some (other, next)) :
    choice.start ≤ next.start := by
  induction onward generalizing other next with
  | refl => exact history.rises sound chosen later
  | commit past before ih =>
      obtain ⟨log, past⟩ := past.history (history.commit chosen)
      exact Nat.le_trans (ih before) (past.rises sound before later)

theorem finish_behind (sound : work.layout.Sound) (history : History work log first)
    (chosen : first.earliest work 0 first.ranks = some (rank, choice))
    (onward : Onward work (first.commit work rank choice) state)
    (missing : first.timetable.finish? other action = none)
    (entered : state.timetable.finish? other action = some tick) :
    choice.start + action.cost work.cost ≤ tick := by
  -- By induction on the commits behind the choice: one of them has put the action there.
  induction onward generalizing tick with
  | refl =>
      rw [timetable_commit] at entered
      obtain ⟨_, rfl, rfl⟩ := Timetable.finish?_extend_new missing entered
      exact Nat.le_refl _
  | commit past before ih =>
      rename_i state taker next
      cases found : state.timetable.finish? other action with
      | some same =>
          have kept := History.grown work state taker next _ _ _ found
          obtain rfl := Option.some.inj (kept.symm.trans entered)
          exact ih found
      | none =>
          rw [timetable_commit] at entered
          obtain ⟨_, rfl, rfl⟩ := Timetable.finish?_extend_new found entered
          exact Nat.add_le_add_right (past.behind sound history chosen before) _

/-- An input that is missing at a commit arrives behind the commit's start. -/
theorem arrival_behind (sound : work.layout.Sound) (forward : 1 ≤ work.cost.forward)
    (backward : 1 ≤ work.cost.backward) (history : History work log first)
    (chosen : first.earliest work 0 first.ranks = some (rank, choice))
    (onward : Onward work (first.commit work rank choice) state)
    (missing : first.timetable.arrival? work other action = none)
    (arrived : state.timetable.arrival? work other action = some tick) : choice.start < tick := by
  have hopped : ∀ source (way : Way) (pass : Pass) ticks,
      (first.timetable.finish? source (way.action pass)).map (· + ticks) = none →
      (state.timetable.finish? source (way.action pass)).map (· + ticks) = some tick →
      choice.start < tick := by
    intro source way pass ticks missing arrived
    obtain ⟨finish, entered, rfl⟩ := Option.map_eq_some_iff.mp arrived
    have bound := finish_behind sound history chosen onward (Option.map_eq_none_iff.mp missing)
      entered
    -- A source without a cost could finish with the start of the choice and still tie with it.
    have costs : 1 ≤ (way.action pass).cost work.cost := by
      cases way
      · exact forward
      · exact backward
    omega
  have plain := fun source way pass => hopped source way pass 0
  simp only [Nat.add_zero, Option.map_id'] at plain
  cases action with
  | forward pass =>
      simp only [Timetable.arrival?] at missing arrived
      cases found : work.layout.prev pass.1 with
      | none => simp [found] at missing
      | some source =>
          simp only [found] at missing arrived
          exact hopped _ .forward _ _ missing arrived
  | backward pass =>
      simp only [Timetable.arrival?] at missing arrived
      cases found : work.layout.next pass.1 with
      | none =>
          simp only [found] at missing arrived
          exact plain _ .forward _ missing arrived
      | some source =>
          simp only [found] at missing arrived
          exact hopped _ .backward _ _ missing arrived
  | weights pass => exact plain _ .backward _ missing arrived

end Onward

namespace History

theorem unmet_eq (history : History work log state) (present : state.ranks[rank]? = some clock)
    (way : Way) : Timetable.unmet way work rank clock.timeline = (way.ahead clock).head? := by
  have split := history.order_split way present
  have listed : ∀ pass, way.action pass ∈ clock.timeline.map TimedAction.action ↔
      pass ∈ passesOf way.select rank (taken log) := by
    intro pass
    rw [(history.tracked present).timeline, mem_partOf, way.mem_passesOf]
  have noDup : (way.order work.layout rank work.microbatches).Nodup := by
    cases way
    · exact WorkOrder.forward_nodup _ _ _
    · exact WorkOrder.backward_nodup _ _ _
  rw [← split, List.nodup_append] at noDup
  -- The order is what has been taken up and what is ahead, so nothing before the head is unmet.
  have behind : ((passesOf way.select rank (taken log)).find? fun pass =>
      decide (way.action pass ∉ clock.timeline.map TimedAction.action)) = none := by
    refine List.find?_eq_none.mpr fun pass member => ?_
    simpa using List.mem_map.mp ((listed pass).mpr member)
  rw [Timetable.unmet, ← split, List.find?_append, behind, Option.none_or]
  cases ahead : way.ahead clock with
  | nil => rfl
  | cons pass rest =>
      have fresh : way.action pass ∉ clock.timeline.map TimedAction.action := by
        rw [listed]
        exact fun member => noDup.2.2 pass member pass (ahead ▸ List.mem_cons_self) rfl
      rw [List.find?_cons_of_pos (by simpa using fresh), List.head?_cons]

theorem hasRoom_iff (sound : work.layout.Sound) (history : History work log state)
    (present : state.ranks[rank]? = some clock) :
    Timetable.hasRoom work clock.timeline = true ↔ clock.pending < work.memoryLimit := by
  have balance := history.pending sound present
  rw [(history.tracked present).passesOf_eq, (history.tracked present).passesOf_eq] at balance
  rw [Timetable.hasRoom, decide_eq_true_eq]
  omega

theorem taken_of_done (sound : work.layout.Sound) (history : History work log state)
    (done : state.done = true) (way : Way) {stage : StageId} {microbatch : Nat}
    (known : work.layout.IsStage stage) (below : microbatch < work.microbatches) :
    (work.layout.rankOf stage, way.action (stage, microbatch)) ∈ taken log := by
  rw [← way.mem_passesOf, history.order_of_done done way (known.rank_lt sound), way.mem_order_iff]
  exact ⟨List.mem_map.mpr ⟨_, List.mem_range.mpr (known.chunk_lt sound),
    known.stage_rank_chunk sound⟩, below⟩

theorem arrived (sound : work.layout.Sound) (history : History work log state)
    (done : state.done = true) (way : Way) {stage : StageId} {microbatch : Nat}
    (known : work.layout.IsStage stage) (below : microbatch < work.microbatches) :
    ∃ tick, state.timetable.arrival? work (work.layout.rankOf stage)
      (way.action (stage, microbatch)) = some tick := by
  apply history.supplied
  cases way with
  | forward =>
      intro source found
      exact history.taken_of_done sound done .forward (Layout.isStage_prev known found) below
  | backward =>
      simp only [Way.action, Fed]
      cases found : work.layout.next stage with
      | none => exact history.taken_of_done sound done .forward known below
      | some source =>
          exact history.taken_of_done sound done .backward (Layout.isStage_next known found) below

end History

/-- How a tick estimated from the whole timetable relates to the arrival that the clock knew when
it made a choice: an input that had come counts as it did, one that was missing comes behind the
start of the choice. -/
def Foreseen (choice : Candidate) (free : Nat) (known : Option Nat) (tick : Nat) : Prop :=
  (∃ arrival, known = some arrival ∧ tick = max arrival free) ∨ known = none ∧ choice.start < tick

/-- Between a forward and a backward the clock decides by what it knows as the estimates do. -/
theorem foresees {forward backward : Option Nat} {free sooner later : Nat} {pass back : Pass}
    {space : Prop} [Decidable space] (sooner_foreseen : Foreseen choice free forward sooner)
    (later_foreseen : Foreseen choice free backward later)
    (critical : earlier
      (if space then forward.map fun tick => ⟨max tick free, .forward pass⟩ else none)
      (backward.map fun tick => ⟨max tick free, .backward back⟩) = some choice) :
    (if space ∧ sooner ≤ later then Action.forward pass else Action.backward back) =
      choice.action := by
  by_cases room : space
  · rw [if_pos room] at critical
    rcases sooner_foreseen with ⟨_, rfl, rfl⟩ | ⟨rfl, late⟩
    · rcases later_foreseen with ⟨_, rfl, rfl⟩ | ⟨rfl, late⟩
      · -- Both inputs are there, and the clock compares the same ticks.
        simp only [Option.map_some, earlier] at critical
        split at critical
        · obtain rfl := Option.some.inj critical
          rw [if_pos ⟨room, ‹_›⟩]
        · obtain rfl := Option.some.inj critical
          rw [if_neg fun both => absurd both.2 ‹_›]
      · -- The gradient comes behind the start of the forward.
        obtain rfl := Option.some.inj critical
        rw [if_pos ⟨room, Nat.le_of_lt late⟩]
    · rcases later_foreseen with ⟨_, rfl, rfl⟩ | ⟨rfl, _⟩
      · -- The activation comes behind the start of the backward.
        obtain rfl := Option.some.inj critical
        rw [if_neg fun both => absurd both.2 (Nat.not_le_of_lt late)]
      · cases critical
  · rw [if_neg room] at critical
    obtain ⟨_, _, rfl⟩ := Option.map_eq_some_iff.mp critical
    rw [if_neg fun both => room both.1]

theorem estimate_cases (sound : work.layout.Sound) (forward : 1 ≤ work.cost.forward)
    (backward : 1 ≤ work.cost.backward) (history : History work log first)
    (chosen : first.earliest work 0 first.ranks = some (rank, choice))
    (onward : Onward work (first.commit work rank choice) state) (done : state.done = true)
    (present : first.ranks[other]? = some clock) (way : Way) {pass : Pass} {rest : List Pass}
    (ahead : way.ahead clock = pass :: rest) :
    ∃ tick, state.timetable.estimate? work other clock.timeline (way.action pass) = some tick ∧
      Foreseen choice clock.freeAt
        (first.timetable.arrival? work other (way.action pass)) tick := by
  obtain ⟨stage, microbatch⟩ := pass
  obtain ⟨known, owned, below⟩ := history.known_ahead sound present way ahead
  subst owned
  obtain ⟨_, whole⟩ := onward.history (history.commit chosen)
  obtain ⟨tick, arrived⟩ := whole.arrived sound done way known below
  refine ⟨max (Statistics.lastTick clock.timeline) tick, by rw [Timetable.estimate?, arrived]; rfl,
    ?_⟩
  rw [← (history.punctual sound present).free]
  cases before : first.timetable.arrival? work (work.layout.rankOf stage)
      (way.action (stage, microbatch)) with
  | some arrival =>
      obtain rfl := Option.some.inj ((onward.arrival_kept before).symm.trans arrived)
      exact Or.inl ⟨arrival, rfl, Nat.max_comm _ _⟩
  | none =>
      have late := onward.arrival_behind sound forward backward history chosen before arrived
      exact Or.inr ⟨rfl, Nat.lt_of_lt_of_le late (Nat.le_max_right _ _)⟩

theorem candidate_of_chosen (chosen : first.earliest work 0 first.ranks = some (rank, choice))
    (present : first.ranks[rank]? = some clock) :
    first.candidate work rank clock = some choice := by
  obtain ⟨index, other, here, found, candidate⟩ := earliest_eq_some chosen
  rw [Nat.zero_add] at here
  subst here
  obtain rfl := Option.some.inj (found.symm.trans present)
  exact candidate

theorem pass_of_fused (fused : work.split = false) (history : History work log first)
    (chosen : first.earliest work 0 first.ranks = some (rank, choice)) :
    choice.action.weights? = none := by
  cases weights : choice.action.weights? with
  | none => rfl
  | some pass =>
      have member : (rank, .weights pass) ∈ taken (log ++ [(rank, choice)]) := by
        rw [taken_snoc, Action.weights?_eq_some.mp weights]
        exact List.mem_append_right _ List.mem_cons_self
      rw [(history.commit chosen).split_of_weights member] at fused
      cases fused

/-- A choice of the clock that is not a weight pass is what a scheduler with the whole timetable
takes up. -/
theorem preferred_of_chosen (sound : work.layout.Sound) (forward : 1 ≤ work.cost.forward)
    (backward : 1 ≤ work.cost.backward) (pass : choice.action.weights? = none)
    (history : History work log first)
    (chosen : first.earliest work 0 first.ranks = some (rank, choice))
    (onward : Onward work (first.commit work rank choice) state) (done : state.done = true)
    (present : first.ranks[rank]? = some clock) :
    state.timetable.preferred? work rank clock.timeline = some choice.action := by
  have critical := critical_of_pass (candidate_of_chosen chosen present) pass
  have room := history.hasRoom_iff sound present
  have estimate : ∀ (way : Way) {pass : Pass} {rest : List Pass}, way.ahead clock = pass :: rest →
      ∃ tick, state.timetable.estimate? work rank clock.timeline (way.action pass) = some tick ∧
        Foreseen choice clock.freeAt (first.timetable.arrival? work rank (way.action pass)) tick :=
    fun way _ _ ahead =>
      estimate_cases sound forward backward history chosen onward done present way ahead
  rw [Timetable.preferred?, history.unmet_eq present, history.unmet_eq present]
  simp only [Way.ahead]
  unfold nextForward nextBackward at critical
  cases forwards : clock.forwards with
  | nil =>
      rw [forwards] at critical
      cases backwards : clock.backwards with
      | nil => simp [backwards, earlier] at critical
      | cons back behind =>
          simp only [backwards, earlier, Option.map_eq_some_iff] at critical
          obtain ⟨_, _, rfl⟩ := critical
          rfl
  | cons pass rest =>
      cases backwards : clock.backwards with
      | nil =>
          simp only [forwards, backwards] at critical
          split at critical
          · cases arrived : first.forwardArrival work rank pass with
            | none => simp [arrived, earlier] at critical
            | some arrival =>
                rw [arrived] at critical
                obtain rfl := Option.some.inj critical
                simp [room.mpr ‹_›]
          · cases critical
      | cons back behind =>
          obtain ⟨sooner, firstEstimate, firstForeseen⟩ := estimate .forward forwards
          obtain ⟨later, secondEstimate, secondForeseen⟩ := estimate .backward backwards
          obtain ⟨known, _⟩ := history.known_ahead sound present .forward forwards
          obtain ⟨placed, owned, _⟩ := history.known_ahead sound present .backward backwards
          simp only [forwards, backwards, history.forwardArrival_eq sound known,
            history.backwardArrival_eq sound placed owned] at critical
          simp only [Way.action] at firstEstimate secondEstimate
          simp only [List.head?_cons, firstEstimate, secondEstimate, room]
          exact congrArg some (foresees firstForeseen secondForeseen critical)

end Simulation

namespace Workload

/-- The clock decides as a scheduler that knows the whole timetable. Every action on a timeline is
the pass that could start first there, were every arrival known: the next forward if the limit has
room for it and it could start no later than the next backward, or else the next backward. -/
theorem simulate_foresees {topology : Topology} {chunks : Nat} {placement : Placement}
    {work : Workload} {timelines : Timetable} (ranks : 0 < topology.depth)
    (laid : topology.layout chunks placement = .ok work.layout) (fused : work.split = false)
    (forward : 1 ≤ work.cost.forward) (backward : 1 ≤ work.cost.backward)
    (simulated : work.simulate = .ok timelines) (rank : Nat) (before after : List TimedAction)
    (timed : TimedAction) (present : timelines[rank]? = some (before ++ timed :: after)) :
    timelines.preferred? work rank before = some timed.action := by
  obtain ⟨sound, _⟩ := Topology.layout_ok ranks laid
  obtain ⟨log, final, history, done, rfl⟩ := work.simulated simulated
  obtain ⟨clock, there, split⟩ := Simulation.timetable_eq_some.mp present
  obtain ⟨past, chosen, here, rfl, rfl, onward⟩ := history.moment there split
  exact Simulation.preferred_of_chosen sound forward backward
    (Simulation.pass_of_fused fused past chosen) past chosen onward done here

/-- On the second of two ranks a backward could start with the second forward, which wins. -/
theorem simulate_foresees_tie :
    let work : Workload := ⟨⟨2, 1, 1, .interleaved⟩, 2, 2, false, ⟨2, 3, 1, 1⟩⟩
    let pass (rank microbatch : Nat) : Pass := (⟨0, rank⟩, microbatch)
    let timelines : Timetable :=
      [[⟨.forward (pass 0 0), 0, 2⟩, ⟨.forward (pass 0 1), 2, 4⟩,
          ⟨.backward (pass 0 0), 11, 14⟩, ⟨.backward (pass 0 1), 14, 17⟩],
        [⟨.forward (pass 1 0), 3, 5⟩, ⟨.forward (pass 1 1), 5, 7⟩,
          ⟨.backward (pass 1 0), 7, 10⟩, ⟨.backward (pass 1 1), 10, 13⟩]]
    work.simulate = .ok timelines ∧
      timelines.preferred? work 1 [⟨.forward (pass 1 0), 3, 5⟩] = some (.forward (pass 1 1)) := by
  intro work pass timelines
  have laid : (Topology.mk 2 2 none).layout 1 .interleaved = .ok work.layout := rfl
  have simulated : work.simulate = .ok timelines := by
    simp only [work]
    rfl
  exact ⟨simulated, simulate_foresees (by decide) laid rfl (by decide) (by decide) simulated 1
    [⟨.forward (pass 1 0), 3, 5⟩] _ ⟨.forward (pass 1 1), 5, 7⟩ rfl⟩

end Workload
end PipelineTraining
