import PipelineTraining.Proofs.Clock.Foresight
import PipelineTraining.Proofs.Clock.Succession

/-!
What a weight pass costs the passes behind it. It goes first only where it fits in
front of every pass whose input is known, so it delays none of those. A pass whose
input is not known yet gets it behind the start of the weight pass, so it is delayed
by less than one weight pass, however many of them stand in the gap. What is known when
a weight pass is taken is what the run has committed before it.
-/

namespace PipelineTraining

namespace Timetable

def lastPass (before : List TimedAction) : Nat :=
  Statistics.lastTick (passes before)

theorem lastPass_snoc {before : List TimedAction} {timed : TimedAction}
    (pass : timed.action.weights? = none) : lastPass (before ++ [timed]) = timed.finish := by
  simp [lastPass, passes, pass, Statistics.lastTick]

/-- A rank is held up for less than some ticks if no weight pass at the end of its timeline ends so
many behind the arrival. -/
theorem lastTick_lt {before : List TimedAction} {arrival ticks : Nat} (positive : 0 < ticks)
    (soon : ∀ front filler spent, before = front ++ [filler] → filler.action = .weights spent →
      filler.finish < arrival + ticks) :
    max (Statistics.lastTick before) arrival < max arrival (lastPass before) + ticks := by
  -- The rank is free since the start, since another pass, or since a weight pass.
  rcases List.eq_nil_or_concat' before with rfl | ⟨front, last, rfl⟩
  · have idle : Statistics.lastTick [] = 0 := rfl
    omega
  · rw [Simulation.lastTick_snoc]
    cases filling : last.action.weights? with
    | none =>
        rw [lastPass_snoc filling]
        omega
    | some spent =>
        have ends := soon front last spent rfl (Action.weights?_eq_some.mp filling)
        omega

end Timetable

namespace Simulation
open Course

variable {work : Workload} {state first : Simulation} {rank : Nat} {clock old : RankClock}
  {choice : Candidate} {log past : List Commit} {way : Way} {pass : Pass} {rest : List Pass}

theorem ahead_of_granted (granted : Granted work state rank clock choice)
    (given : choice.action = way.action pass) :
    (∃ rest, way.ahead clock = pass :: rest) ∧
      (way = .forward → clock.pending < work.memoryLimit) := by
  cases granted with
  | forward next room _ =>
      cases way with
      | forward =>
          obtain rfl := Action.forward.inj given
          exact ⟨⟨_, next⟩, fun _ => room⟩
      | backward => cases given
  | backward next _ =>
      cases way with
      | forward => cases given
      | backward =>
          obtain rfl := Action.backward.inj given
          exact ⟨⟨_, next⟩, fun same => by cases same⟩
  | weights => cases way <;> cases given

namespace History

/-- The work ahead of a rank and its pending count depend on the passes on its timeline alone, and
so weight passes leave them as they were. -/
theorem same_ahead (sound : work.layout.Sound) (history : History work past first)
    (found : first.ranks[rank]? = some old) (later : History work log state)
    (present : state.ranks[rank]? = some clock)
    (passes : ∀ way : Way, (clock.timeline.map TimedAction.action).filterMap way.select =
      (old.timeline.map TimedAction.action).filterMap way.select) :
    (∀ way : Way, way.ahead clock = way.ahead old) ∧ clock.pending = old.pending := by
  have same : ∀ way : Way, passesOf way.select rank (taken log) =
      passesOf way.select rank (taken past) := by
    intro way
    rw [(later.tracked present).passesOf_eq, (history.tracked found).passesOf_eq, passes]
  constructor
  · intro way
    have split := later.order_split way present
    rw [← history.order_split way found, same way] at split
    exact List.append_cancel_left split
  · have balance := later.pending sound present
    have former := history.pending sound found
    have forwards := same .forward
    have backwards := same .backward
    simp only [Way.select] at forwards backwards
    rw [forwards, backwards] at balance
    omega

theorem critical_of_arrival (sound : work.layout.Sound) (history : History work log state)
    (present : state.ranks[rank]? = some clock) (next : way.ahead clock = pass :: rest)
    (room : way = .forward → clock.pending < work.memoryLimit) {tick : Nat}
    (arrived : state.timetable.arrival? work rank (way.action pass) = some tick) :
    ∃ critical, earlier (state.nextForward work rank clock) (state.nextBackward work rank clock) =
      some critical ∧ critical.start ≤ max tick clock.freeAt := by
  obtain ⟨stage, microbatch⟩ := pass
  obtain ⟨known, owned, _⟩ := history.known_ahead sound present way next
  have bound : due (earlier (state.nextForward work rank clock)
      (state.nextBackward work rank clock)) ≤ (max tick clock.freeAt : Nat) := by
    rw [due_earlier]
    cases way with
    | forward =>
        simp only [Way.ahead] at next
        rw [Way.action, ← history.forwardArrival_eq sound known] at arrived
        refine le_trans (min_le_left _ _) (le_of_eq ?_)
        simp only [nextForward, next, if_pos (room rfl), arrived, Option.map_some, due]
    | backward =>
        simp only [Way.ahead] at next
        rw [Way.action, ← history.backwardArrival_eq sound known owned] at arrived
        refine le_trans (min_le_right _ _) (le_of_eq ?_)
        simp only [nextBackward, next, arrived, Option.map_some, due]
  cases critical : earlier (state.nextForward work rank clock)
      (state.nextBackward work rank clock) with
  | none =>
      rw [critical] at bound
      exact absurd bound (not_le_of_gt (WithTop.coe_lt_top _))
  | some choice =>
      rw [critical] at bound
      exact ⟨choice, rfl, WithTop.coe_le_coe.mp bound⟩

/-- A pass right behind a weight pass was next, and had room, when the weight pass was taken. -/
theorem next_behind (sound : work.layout.Sound) (before : History work past first)
    (found : first.ranks[rank]? = some old) (history : History work log state)
    (present : state.ranks[rank]? = some clock) {filler timed : TimedAction}
    {after : List TimedAction} (split : clock.timeline = old.timeline ++ filler :: timed :: after)
    (skipped : ∀ way : Way, way.select filler.action = none)
    (given : timed.action = way.action pass) :
    (∃ rest, way.ahead old = pass :: rest) ∧
      (way = .forward → old.pending < work.memoryLimit) := by
  have behind : clock.timeline = (old.timeline ++ [filler]) ++ timed :: after := by
    rw [split, List.append_assoc, List.singleton_append]
  obtain ⟨middle, chosen, here, timeline, rfl, _⟩ := history.moment present behind
  obtain ⟨_, there, granted⟩ := granted_of_earliest chosen
  obtain rfl := Option.some.inj (there.symm.trans here)
  obtain ⟨ahead, pending⟩ := before.same_ahead sound found middle here fun way => by
    simp [timeline, skipped way]
  rw [← ahead, ← pending]
  exact ahead_of_granted granted given

/-- A pass right behind a weight pass gets its input less than one weight pass before the end of
that, and behind its end if what it waits for was committed before. -/
theorem filled (sound : work.layout.Sound) (costs : work.cost.check = .ok ())
    (history : History work log state) (present : state.ranks[rank]? = some clock)
    {front after : List TimedAction} {filler timed : TimedAction} {spent : Pass} {arrival : Nat}
    (split : clock.timeline = front ++ filler :: timed :: after)
    (filling : filler.action = .weights spent) (given : timed.action = way.action pass)
    (arrived : state.timetable.arrival? work rank (way.action pass) = some arrival) :
    filler.finish < arrival + work.cost.weight ∧
      ∃ past rest, log = past ++ (rank, ⟨filler.start, filler.action⟩) :: rest ∧
        (Fed work.layout (taken past) rank (way.action pass) → filler.finish ≤ arrival) := by
  obtain ⟨forward, backward, weight⟩ := CostModel.check_eq_ok.mp costs
  obtain ⟨past, choice, later, first, old, rfl, before, chosen, found, rfl, rfl, onward⟩ :=
    history.commit_of_entry present split
  have filling : choice.action = .weights spent := filling
  have ends : (choice.timed work).finish = choice.start + work.cost.weight := by
    rw [Candidate.timed, filling]
    rfl
  have skipped : ∀ way : Way, way.select (choice.timed work).action = none := by
    intro way
    rw [Candidate.timed, filling]
    cases way <;> rfl
  obtain ⟨⟨rest, next⟩, room⟩ :=
    before.next_behind sound found history present split skipped given
  rw [ends]
  cases known : first.timetable.arrival? work rank (way.action pass) with
  | none =>
      have late := onward.arrival_behind sound forward backward before chosen known arrived
      refine ⟨Nat.add_lt_add_right late _, past, later, rfl, fun fed => ?_⟩
      obtain ⟨tick, supplied⟩ := before.supplied fed
      rw [known] at supplied
      cases supplied
  | some tick =>
      obtain rfl := Option.some.inj ((onward.arrival_kept known).symm.trans arrived)
      -- The pass could start with its input, so the weight pass fits in front of that.
      obtain ⟨critical, first, bound⟩ := before.critical_of_arrival sound found next room known
      have candidate := candidate_of_chosen chosen found
      have fits := fits_of_weights candidate filling first
      have free := granted_free (granted_of_candidate candidate)
      exact ⟨by omega, past, later, rfl, fun _ => by omega⟩

end History

end Simulation

namespace Workload
open Simulation

theorem committed {work : Workload} {timelines : Timetable}
    (simulated : work.simulate = .ok timelines) : ∃ final,
      History work work.commits final ∧ final.done = true ∧ timelines = final.timetable := by
  have ending := work.simulate_ending
  rw [simulated] at ending
  cases ending with
  | finished history done => exact ⟨_, history, done, rfl⟩

/-- A forward or backward starts less than a weight pass behind the arrival of its input and the
end of the pass before it on its rank, and right behind a weight pass it starts on arrival if
what it waits for was committed before. -/
theorem simulate_fills {topology : Topology} {chunks : Nat} {placement : Placement}
    {work : Workload} {timelines : Timetable} (ranks : 0 < topology.depth)
    (laid : topology.layout chunks placement = .ok work.layout)
    (costs : work.cost.check = .ok ()) (simulated : work.simulate = .ok timelines) (rank : Nat)
    (before after : List TimedAction) (timed : TimedAction)
    (present : timelines[rank]? = some (before ++ timed :: after)) (way : Way) (pass : Pass)
    (given : timed.action = way.action pass) :
    ∃ arrival, timelines.arrival? work rank timed.action = some arrival ∧
      timed.start < max arrival (Timetable.lastPass before) + work.cost.weight ∧
      ∀ front filler spent, before = front ++ [filler] → filler.action = .weights spent →
        ∃ past rest, work.commits = past ++ (rank, ⟨filler.start, filler.action⟩) :: rest ∧
          (Course.Fed work.layout (taken past) rank timed.action → timed.start = arrival) := by
  obtain ⟨sound, _⟩ := Topology.layout_ok ranks laid
  obtain ⟨final, history, _, rfl⟩ := committed simulated
  obtain ⟨clock, here, split⟩ := timetable_eq_some.mp present
  obtain ⟨arrival, arrived, starts⟩ := ((history.punctual sound here).onTime _ _ _ split).starts
  have filled : ∀ front filler spent, before = front ++ [filler] →
      filler.action = .weights spent → filler.finish < arrival + work.cost.weight ∧
        ∃ past rest, work.commits = past ++ (rank, ⟨filler.start, filler.action⟩) :: rest ∧
          (Course.Fed work.layout (taken past) rank timed.action → filler.finish ≤ arrival) := by
    rintro front filler spent rfl filling
    rw [given] at arrived ⊢
    exact history.filled sound costs here (by simpa using split) filling given arrived
  refine ⟨arrival, arrived, ?_, ?_⟩
  · have weight := (CostModel.check_eq_ok.mp costs).2.2
    rw [starts]
    exact Timetable.lastTick_lt weight fun front filler spent same filling =>
      (filled front filler spent same filling).1
  · rintro front filler spent rfl filling
    obtain ⟨_, past, rest, logged, ends⟩ := filled front filler spent rfl filling
    refine ⟨past, rest, logged, fun fed => ?_⟩
    rw [starts, lastTick_snoc]
    exact Nat.max_eq_right (ends fed)

/-- The second of two ranks runs two weight passes while its third activation is on the way: the
second one ends at tick 11, and the activation comes at tick 12. -/
theorem simulate_fills_gap :
    let work : Workload := ⟨⟨2, 1, 1, .interleaved⟩, 3, 2, true, ⟨1, 1, 2, 2⟩⟩
    let pass (rank microbatch : Nat) : Pass := (⟨0, rank⟩, microbatch)
    let before : List TimedAction :=
      [⟨.forward (pass 1 0), 3, 4⟩, ⟨.forward (pass 1 1), 4, 5⟩, ⟨.backward (pass 1 0), 5, 6⟩,
        ⟨.backward (pass 1 1), 6, 7⟩, ⟨.weights (pass 1 0), 7, 9⟩]
    let timelines : Timetable :=
      [[⟨.forward (pass 0 0), 0, 1⟩, ⟨.forward (pass 0 1), 1, 2⟩, ⟨.backward (pass 0 0), 8, 9⟩,
          ⟨.forward (pass 0 2), 9, 10⟩, ⟨.backward (pass 0 1), 10, 11⟩,
          ⟨.weights (pass 0 0), 11, 13⟩, ⟨.weights (pass 0 1), 13, 15⟩,
          ⟨.backward (pass 0 2), 16, 17⟩, ⟨.weights (pass 0 2), 17, 19⟩],
        before ++ [⟨.weights (pass 1 1), 9, 11⟩, ⟨.forward (pass 1 2), 12, 13⟩,
          ⟨.backward (pass 1 2), 13, 14⟩, ⟨.weights (pass 1 2), 14, 16⟩]]
    work.simulate = .ok timelines ∧
      ∃ arrival, timelines.arrival? work 1 (.forward (pass 1 2)) = some arrival ∧
        12 < max arrival 7 + 2 ∧
        ∃ past rest, work.commits = past ++ (1, ⟨9, .weights (pass 1 1)⟩) :: rest ∧
          (Course.Fed work.layout (taken past) 1 (.forward (pass 1 2)) → 12 = arrival) := by
  intro work pass before timelines
  have laid : (Topology.mk 2 2 none).layout 1 .interleaved = .ok work.layout := rfl
  have simulated : work.simulate = .ok timelines := by
    simp only [work]
    rfl
  obtain ⟨arrival, arrived, bound, filled⟩ := simulate_fills (by decide) laid rfl simulated 1
    (before ++ [⟨.weights (pass 1 1), 9, 11⟩]) _ ⟨.forward (pass 1 2), 12, 13⟩ rfl .forward
    (pass 1 2) rfl
  exact ⟨simulated, arrival, arrived, bound, filled before _ (pass 1 1) rfl rfl⟩

end Workload
end PipelineTraining
