import Mathlib.Order.Lattice.Nat
import Mathlib.Order.WithBot
import PipelineTraining.Proofs.Clock.Punctuality

/-!
The clock never goes back. Whatever a rank could begin before a commit it can begin
as early after it, and what a commit makes possible begins when its action is finished;
so the start of every commit bounds the start of all later ones.
-/

namespace PipelineTraining
namespace Simulation

variable {work : Workload} {state : Simulation} {rank other : Nat} {clock : RankClock}
  {choice : Candidate} {log : List Commit}

def due : Option Candidate → WithTop Nat
  | some choice => choice.start
  | none => ⊤

theorem due_earlier (forward backward : Option Candidate) :
    due (earlier forward backward) = min (due forward) (due backward) := by
  cases forward with
  | none => simp [earlier, due]
  | some first =>
      cases backward with
      | none => simp [earlier, due]
      | some second =>
          by_cases sooner : first.start ≤ second.start
          · simp only [earlier, if_pos sooner]
            exact (min_eq_left (WithTop.coe_le_coe.mpr sooner)).symm
          · simp only [earlier, if_neg sooner]
            exact (min_eq_right (WithTop.coe_le_coe.mpr (Nat.le_of_not_le sooner))).symm

/-- No rank of the clock could start before the one that is chosen. -/
theorem earliest_le {clocks : List RankClock} {found : Nat}
    (chosen : state.earliest work rank clocks = some (found, choice)) {index : Nat}
    (present : clocks[index]? = some clock) :
    (choice.start : WithTop Nat) ≤ due (state.candidate work (rank + index) clock) := by
  induction clocks generalizing rank index found choice with
  | nil => simp at present
  | cons head rest ih =>
      -- The choice is the earlier of the head's candidate and the choice of the rest.
      have both : (choice.start : WithTop Nat) ≤ due (state.candidate work rank head) ∧
          ∀ second, state.earliest work (rank + 1) rest = some second →
            choice.start ≤ second.2.start := by
        unfold earliest at chosen
        cases candidate : state.candidate work rank head with
        | none =>
            simp only [candidate] at chosen
            refine ⟨le_top, fun second later => ?_⟩
            obtain rfl := Option.some.inj (chosen.symm.trans later)
            exact Nat.le_refl _
        | some first =>
            cases others : state.earliest work (rank + 1) rest with
            | none =>
                simp only [candidate, others, Option.some.injEq, Prod.mk.injEq] at chosen
                obtain ⟨rfl, rfl⟩ := chosen
                exact ⟨le_refl _, by simp⟩
            | some second =>
                simp only [candidate, others] at chosen
                split at chosen
                · obtain ⟨rfl, rfl⟩ := Prod.mk.inj (Option.some.inj chosen)
                  refine ⟨le_refl _, fun third same => ?_⟩
                  rwa [← Option.some.inj same]
                · obtain ⟨rfl, rfl⟩ := Prod.mk.inj (Option.some.inj chosen)
                  refine ⟨WithTop.coe_le_coe.mpr (Nat.le_of_not_le ‹_›), fun third same => ?_⟩
                  rw [← Option.some.inj same]
      cases index with
      | zero =>
          obtain rfl := Option.some.inj present
          exact both.1
      | succ index =>
          have present : rest[index]? = some clock := by simpa using present
          rw [← Nat.add_assoc, Nat.add_right_comm]
          cases others : state.earliest work (rank + 1) rest with
          | none => rw [earliest_eq_none others index clock present]; exact le_top
          | some second =>
              obtain ⟨found, second⟩ := second
              exact le_trans (WithTop.coe_le_coe.mpr (both.2 _ others)) (ih others present)

/-- What a candidate may turn into while the clock stands at a tick: it comes no later, and if it
comes earlier it was beyond the tick and stays there. -/
def Grown (tick : Nat) (old new : Option Candidate) : Prop :=
  due new ≤ due old ∧ min (tick : WithTop Nat) (due old) ≤ due new

theorem Grown.earlier {tick : Nat} {forward backward newForward newBackward : Option Candidate}
    (first : Grown tick forward newForward) (second : Grown tick backward newBackward) :
    Grown tick (earlier forward backward) (earlier newForward newBackward) := by
  simp only [Grown, due_earlier]
  refine ⟨min_le_min first.1 second.1, le_min ?_ ?_⟩
  · exact le_trans (min_le_min_left _ (min_le_left _ _)) first.2
  · exact le_trans (min_le_min_left _ (min_le_right _ _)) second.2

theorem fill_none (work : Workload) (clock : RankClock) (critical : Option Candidate) :
    fill work clock critical none = critical := by
  cases critical <;> rfl

/-- Weight passes still go first only where they went first before. -/
theorem Grown.fill {tick : Nat} {critical newCritical : Option Candidate}
    (grown : Grown tick critical newCritical)
    (late : (tick : WithTop Nat) ≤ due (fill work clock critical (nextWeights clock)))
    (free : ∀ choice, newCritical = some choice → clock.freeAt ≤ choice.start) :
    (tick : WithTop Nat) ≤ due (fill work clock newCritical (nextWeights clock)) := by
  have kept : (tick : WithTop Nat) ≤ due critical → (tick : WithTop Nat) ≤ due newCritical :=
    fun later => le_trans (le_min (le_refl _) later) grown.2
  cases weights : nextWeights clock with
  | none =>
      rw [weights, fill_none] at late
      rw [fill_none]
      exact kept late
  | some weight =>
      have start : weight.start = clock.freeAt := by
        obtain ⟨_, _, _, rfl⟩ := nextWeights_eq_some weights
        rfl
      simp only [weights] at late ⊢
      cases newCritical with
      | none =>
          -- Then there was no other action before.
          cases critical with
          | none => exact late
          | some first => exact absurd grown.1 (not_le_of_gt (WithTop.coe_lt_top _))
      | some second =>
          have freed := free second rfl
          cases critical with
          | none =>
              have late : tick ≤ weight.start := WithTop.coe_le_coe.mp late
              have behind : tick ≤ second.start := by omega
              simp only [Simulation.fill]
              split
              · exact WithTop.coe_le_coe.mpr late
              · exact WithTop.coe_le_coe.mpr behind
          | some first =>
              have sooner : second.start ≤ first.start := WithTop.coe_le_coe.mp grown.1
              simp only [Simulation.fill] at late ⊢
              split at late
              · have late : tick ≤ weight.start := WithTop.coe_le_coe.mp late
                have behind : tick ≤ second.start := by omega
                split
                · exact WithTop.coe_le_coe.mpr late
                · exact WithTop.coe_le_coe.mpr behind
              · rw [if_neg (by omega)]
                exact kept late

theorem granted_free (granted : Granted work state rank clock choice) :
    clock.freeAt ≤ choice.start := by
  cases granted with
  | forward => exact Nat.le_max_right _ _
  | backward => exact Nat.le_max_right _ _
  | weights => exact Nat.le_refl _

theorem grown_of_arrival {tick : Nat} {old new : Option Nat} (candidate : Nat → Candidate)
    (later : ∀ arrival, arrival ≤ (candidate arrival).start)
    (arrived : new = old ∨ old = none ∧ ∀ arrival, new = some arrival → tick ≤ arrival) :
    Grown tick (old.map candidate) (new.map candidate) := by
  rcases arrived with rfl | ⟨rfl, behind⟩
  · exact ⟨le_refl _, min_le_right _ _⟩
  · refine ⟨le_top, ?_⟩
    cases new with
    | none => exact le_top
    | some arrival =>
        exact le_trans (min_le_left _ _)
          (WithTop.coe_le_coe.mpr (Nat.le_trans (behind _ rfl) (later _)))

namespace History

theorem grown_forward (sound : work.layout.Sound) (history : History work log state)
    (chosen : state.earliest work 0 state.ranks = some (rank, choice))
    (present : state.ranks[other]? = some clock) :
    Grown choice.start (state.nextForward work other clock)
      ((state.commit work rank choice).nextForward work other clock) := by
  unfold nextForward
  cases ahead : clock.forwards with
  | nil => exact ⟨le_refl _, min_le_right _ _⟩
  | cons pass rest =>
      obtain ⟨stage, microbatch⟩ := pass
      obtain ⟨known, _⟩ := history.known_ahead sound present .forward ahead
      simp only [history.forwardArrival_eq sound known,
        (history.commit chosen).forwardArrival_eq sound known, timetable_commit]
      split
      · refine grown_of_arrival _ (fun arrival => Nat.le_max_left _ _) ?_
        rcases Timetable.arrival?_extend work state.timetable rank (choice.timed work) other
          (.forward (stage, microbatch)) with same | ⟨missing, behind⟩
        · exact Or.inl same
        · exact Or.inr ⟨missing, fun arrival found =>
            Nat.le_trans (Nat.le_add_right _ _) (behind arrival found)⟩
      · exact ⟨le_refl _, min_le_right _ _⟩

theorem grown_backward (sound : work.layout.Sound) (history : History work log state)
    (chosen : state.earliest work 0 state.ranks = some (rank, choice))
    (present : state.ranks[other]? = some clock) :
    Grown choice.start (state.nextBackward work other clock)
      ((state.commit work rank choice).nextBackward work other clock) := by
  unfold nextBackward
  cases ahead : clock.backwards with
  | nil => exact ⟨le_refl _, min_le_right _ _⟩
  | cons pass rest =>
      obtain ⟨stage, microbatch⟩ := pass
      obtain ⟨known, owned, _⟩ := history.known_ahead sound present .backward ahead
      simp only [history.backwardArrival_eq sound known owned,
        (history.commit chosen).backwardArrival_eq sound known owned, timetable_commit]
      refine grown_of_arrival _ (fun arrival => Nat.le_max_left _ _) ?_
      rcases Timetable.arrival?_extend work state.timetable rank (choice.timed work) other
        (.backward (stage, microbatch)) with same | ⟨missing, behind⟩
      · exact Or.inl same
      · exact Or.inr ⟨missing, fun arrival found =>
          Nat.le_trans (Nat.le_add_right _ _) (behind arrival found)⟩

theorem due_le (sound : work.layout.Sound) (history : History work log state)
    (chosen : state.earliest work 0 state.ranks = some (rank, choice))
    (present : (state.commit work rank choice).ranks[other]? = some clock) :
    (choice.start : WithTop Nat) ≤
      due ((state.commit work rank choice).candidate work other clock) := by
  have free : ∀ next, (state.commit work rank choice).candidate work other clock = some next →
      clock.freeAt ≤ next.start := fun next found => granted_free (granted_of_candidate found)
  rcases clock_commit present with ⟨rfl, old, found, rfl⟩ | ⟨_, found⟩
  · -- The rank itself is busy until it is finished.
    cases next : (state.commit work other choice).candidate work other
        (advance work choice old) with
    | none => exact le_top
    | some candidate =>
        have busy := free candidate next
        rw [advance_freeAt] at busy
        exact WithTop.coe_le_coe.mpr (Nat.le_trans (Nat.le_add_right _ _) busy)
  · have before := earliest_le chosen found
    rw [Nat.zero_add] at before
    exact ((history.grown_forward sound chosen found).earlier
      (history.grown_backward sound chosen found)).fill before
        fun next critical => granted_free (granted_of_critical critical)

/-- The start of a commit is never before the start of the one behind it. -/
theorem rises (sound : work.layout.Sound) (history : History work log state)
    (chosen : state.earliest work 0 state.ranks = some (rank, choice)) {next : Candidate}
    (later : (state.commit work rank choice).earliest work 0 (state.commit work rank choice).ranks =
      some (other, next)) : choice.start ≤ next.start := by
  obtain ⟨index, clock, rfl, present, candidate⟩ := earliest_eq_some later
  rw [Nat.zero_add] at candidate
  have bound := history.due_le sound chosen present
  rw [candidate] at bound
  exact WithTop.coe_le_coe.mp bound

end History

end Simulation
end PipelineTraining
