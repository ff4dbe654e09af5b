import PipelineTraining.Proofs.Clock.Horizon

/-!
The commits of the clock in the order in which it makes them. No commit starts before one
that was made earlier, on whatever rank; this holds while the clock runs, and so for a run
that gets stuck as well as for one that comes to its end.
-/

namespace PipelineTraining

namespace Simulation

variable {work : Workload} {state : Simulation} {log : List Commit}

def Rising (log : List Commit) : Prop :=
  log.Pairwise fun first second => first.2.start ≤ second.2.start

theorem History.rising (sound : work.layout.Sound) (history : History work log state) :
    Rising log ∧ ∀ rank choice, state.earliest work 0 state.ranks = some (rank, choice) →
      ∀ commit ∈ log, commit.2.start ≤ choice.start := by
  induction history with
  | initial => exact ⟨List.Pairwise.nil, fun _ _ _ commit member => by cases member⟩
  | commit past chosen ih =>
      rename_i log state rank choice
      obtain ⟨rising, onward⟩ := ih
      have last := onward rank choice chosen
      constructor
      · refine List.pairwise_append.mpr ⟨rising, List.pairwise_singleton _ _, ?_⟩
        intro commit member new same
        obtain rfl := List.mem_singleton.mp same
        exact last commit member
      · intro other next later commit member
        have step : choice.start ≤ next.start := past.rises sound chosen later
        rcases List.mem_append.mp member with old | new
        · exact Nat.le_trans (last commit old) step
        · obtain rfl := List.mem_singleton.mp new
          exact step

def commits (work : Workload) : Nat → Simulation → List Commit
  | 0, _ => []
  | steps + 1, state =>
      if state.done then []
      else
        match state.earliest work 0 state.ranks with
        | none => []
        | some (rank, choice) =>
            (rank, choice) :: commits work steps (state.commit work rank choice)

/-- How a simulation ends that has made the commits of a log: with the timelines of all work, or
with work left that no rank can go on with. -/
inductive Ending (work : Workload) (log : List Commit) : Except Fault Timetable → Prop
  | finished {final : Simulation} (history : History work log final) (done : final.done = true) :
      Ending work log (.ok final.timetable)
  | stalled {final : Simulation} (history : History work log final) (undone : final.done = false)
      (idle : final.earliest work 0 final.ranks = none) :
      Ending work log (.error (.configuration (.stalled work.memoryLimit (stuck 0 final.ranks))))

theorem Ending.history {ended : Except Fault Timetable} (ending : Ending work log ended) :
    ∃ final, History work log final := by
  cases ending with
  | finished history => exact ⟨_, history⟩
  | stalled history => exact ⟨_, history⟩

theorem History.ending (history : History work log state) {steps : Nat}
    (enough : state.ahead < steps) :
    Ending work (log ++ state.commits work steps) ((run work steps state).map timetable) := by
  induction steps generalizing log state with
  | zero => omega
  | succ steps ih =>
      unfold run Simulation.commits
      cases done : state.done with
      | true => simpa [Except.map] using Ending.finished history done
      | false =>
          cases chosen : state.earliest work 0 state.ranks with
          | none => simpa [chosen, Except.map] using Ending.stalled history done chosen
          | some found =>
              obtain ⟨rank, choice⟩ := found
              obtain ⟨clock, present, granted⟩ := granted_of_earliest chosen
              have less := ahead_commit present granted
              have next := ih (history.commit chosen) (by omega)
              simpa [chosen] using next

end Simulation

namespace Workload
open Simulation

def commits (work : Workload) : List Commit :=
  (Simulation.initial work).commits work (Simulation.initial work).steps

theorem simulate_ending (work : Workload) : Ending work work.commits work.simulate :=
  History.initial.ending (ahead_lt_steps _)

/-- What the clock commits, up to the end of its work or to where it gets stuck, starts at ticks
that never fall. -/
theorem commits_rise {topology : Topology} {chunks : Nat} {placement : Placement}
    {work : Workload} (ranks : 0 < topology.depth)
    (laid : topology.layout chunks placement = .ok work.layout) :
    Rising work.commits ∧ Ending work work.commits work.simulate := by
  obtain ⟨sound, _⟩ := Topology.layout_ok ranks laid
  have ending := work.simulate_ending
  obtain ⟨final, history⟩ := ending.history
  exact ⟨(history.rising sound).1, ending⟩

/-- Two ranks with room for two pending backwards each, where forwards take no time: after two
forwards on either of them the clock is stuck. -/
theorem commits_rise_stuck :
    let work : Workload := ⟨⟨2, 2, 1, .interleaved⟩, 2, 2, true, ⟨0, 3, 0, 1⟩⟩
    let pass (rank microbatch : Nat) : Action := .forward (⟨0, rank⟩, microbatch)
    (Topology.mk 2 4 none).layout 2 .interleaved = .ok work.layout ∧
      work.commits = [(0, ⟨0, pass 0 0⟩), (0, ⟨0, pass 0 1⟩), (1, ⟨1, pass 1 0⟩),
        (1, ⟨1, pass 1 1⟩)] ∧
      Rising work.commits ∧ Ending work work.commits work.simulate ∧
      work.simulate = .error (.configuration (.stalled 2 [(0, 2), (1, 2)])) := by
  intro work pass
  have laid : (Topology.mk 2 4 none).layout 2 .interleaved = .ok work.layout := rfl
  have committed : work.commits = [(0, ⟨0, pass 0 0⟩), (0, ⟨0, pass 0 1⟩), (1, ⟨1, pass 1 0⟩),
      (1, ⟨1, pass 1 1⟩)] := by
    simp only [work]
    rfl
  have stuck : work.simulate = .error (.configuration (.stalled 2 [(0, 2), (1, 2)])) := by
    simp only [work]
    rfl
  obtain ⟨rising, ending⟩ := commits_rise (by decide) laid
  exact ⟨laid, committed, rising, ending, stuck⟩

end Workload
end PipelineTraining
