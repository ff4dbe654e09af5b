import PipelineTraining.Clock.Simulation

/-!
What the clock may commit next. A rank's candidate is its next forward, its next
backward or its next weight pass; the clock takes one of the candidates and finds
none only if no rank has one.
-/

namespace PipelineTraining

theorem CostModel.check_eq_ok {cost : CostModel} :
    cost.check = .ok () ↔ 1 ≤ cost.forward ∧ 1 ≤ cost.backward ∧ 1 ≤ cost.weight := by
  unfold check
  grind

namespace Action

def forward? : Action → Option Pass
  | .forward pass => some pass
  | _ => none

def backward? : Action → Option Pass
  | .backward pass => some pass
  | _ => none

def weights? : Action → Option Pass
  | .weights pass => some pass
  | _ => none

@[simp] theorem forward?_eq_some {action : Action} {pass : Pass} :
    action.forward? = some pass ↔ action = .forward pass := by
  cases action <;> simp [forward?]

@[simp] theorem backward?_eq_some {action : Action} {pass : Pass} :
    action.backward? = some pass ↔ action = .backward pass := by
  cases action <;> simp [backward?]

@[simp] theorem weights?_eq_some {action : Action} {pass : Pass} :
    action.weights? = some pass ↔ action = .weights pass := by
  cases action <;> simp [weights?]

end Action

namespace Simulation

variable {work : Workload} {state : Simulation} {rank : Nat} {clock : RankClock}

inductive Granted (work : Workload) (state : Simulation) (rank : Nat) (clock : RankClock) :
    Candidate → Prop
  | forward {pass : Pass} {rest : List Pass} {tick : Nat} (next : clock.forwards = pass :: rest)
      (room : clock.pending < work.memoryLimit)
      (arrived : state.forwardArrival work rank pass = some tick) :
      Granted work state rank clock ⟨max tick clock.freeAt, .forward pass⟩
  | backward {pass : Pass} {rest : List Pass} {tick : Nat} (next : clock.backwards = pass :: rest)
      (arrived : state.backwardArrival work rank pass = some tick) :
      Granted work state rank clock ⟨max tick clock.freeAt, .backward pass⟩
  | weights {pass : Pass} {rest : List Pass} (next : clock.weights = pass :: rest) :
      Granted work state rank clock ⟨clock.freeAt, .weights pass⟩

theorem earlier_cases {left right : Option Candidate} {choice : Candidate}
    (found : earlier left right = some choice) : left = some choice ∨ right = some choice := by
  cases left with
  | none => exact Or.inr found
  | some first =>
      cases right with
      | none => exact Or.inl found
      | some second =>
          simp only [earlier] at found
          split at found
          · exact Or.inl found
          · exact Or.inr found

theorem earlier_eq_none {left right : Option Candidate} :
    earlier left right = none ↔ left = none ∧ right = none := by
  cases left with
  | none => simp [earlier]
  | some first =>
      cases right with
      | none => simp [earlier]
      | some second =>
          simp only [earlier]
          split <;> simp

theorem fill_cases {critical weights : Option Candidate} {choice : Candidate}
    (found : fill work clock critical weights = some choice) :
    critical = some choice ∨ weights = some choice := by
  cases critical with
  | none => exact Or.inr found
  | some first =>
      cases weights with
      | none => exact Or.inl found
      | some second =>
          simp only [fill] at found
          split at found
          · exact Or.inr found
          · exact Or.inl found

theorem fill_eq_none {critical weights : Option Candidate} :
    fill work clock critical weights = none ↔ critical = none ∧ weights = none := by
  cases critical with
  | none => simp [fill]
  | some first =>
      cases weights with
      | none => simp [fill]
      | some second =>
          simp only [fill]
          split <;> simp

theorem granted_of_critical {choice : Candidate}
    (found : earlier (state.nextForward work rank clock) (state.nextBackward work rank clock) =
      some choice) : Granted work state rank clock choice := by
  rcases earlier_cases found with found | found
  · unfold nextForward at found
    cases next : clock.forwards with
    | nil => simp [next] at found
    | cons pass rest =>
        simp only [next] at found
        split at found
        · obtain ⟨tick, arrived, rfl⟩ := Option.map_eq_some_iff.mp found
          exact .forward next ‹_› arrived
        · simp at found
  · unfold nextBackward at found
    cases next : clock.backwards with
    | nil => simp [next] at found
    | cons pass rest =>
        simp only [next] at found
        obtain ⟨tick, arrived, rfl⟩ := Option.map_eq_some_iff.mp found
        exact .backward next arrived

theorem pass_of_critical {choice : Candidate}
    (found : earlier (state.nextForward work rank clock) (state.nextBackward work rank clock) =
      some choice) : choice.action.weights? = none := by
  rcases earlier_cases found with found | found
  · unfold nextForward at found
    split at found
    · cases found
    · split at found
      · obtain ⟨_, _, rfl⟩ := Option.map_eq_some_iff.mp found
        rfl
      · cases found
  · unfold nextBackward at found
    split at found
    · cases found
    · obtain ⟨_, _, rfl⟩ := Option.map_eq_some_iff.mp found
      rfl

theorem nextWeights_eq_some {choice : Candidate} (found : nextWeights clock = some choice) :
    ∃ pass rest, clock.weights = pass :: rest ∧ choice = ⟨clock.freeAt, .weights pass⟩ := by
  obtain ⟨pass, next, rfl⟩ := Option.map_eq_some_iff.mp found
  obtain ⟨rest, next⟩ := List.head?_eq_some_iff.mp next
  exact ⟨pass, rest, next, rfl⟩

theorem granted_of_candidate {choice : Candidate}
    (found : state.candidate work rank clock = some choice) :
    Granted work state rank clock choice := by
  rcases fill_cases found with critical | filling
  · exact granted_of_critical critical
  · obtain ⟨pass, rest, next, rfl⟩ := nextWeights_eq_some filling
    exact .weights next

theorem critical_of_pass {choice : Candidate}
    (found : state.candidate work rank clock = some choice)
    (pass : choice.action.weights? = none) :
    earlier (state.nextForward work rank clock) (state.nextBackward work rank clock) =
      some choice := by
  refine (fill_cases found).resolve_right fun filling => ?_
  obtain ⟨spent, _, _, rfl⟩ := nextWeights_eq_some filling
  cases pass

theorem fits_of_weights {choice next : Candidate} {spent : Pass}
    (found : state.candidate work rank clock = some choice)
    (filling : choice.action = .weights spent)
    (critical : earlier (state.nextForward work rank clock) (state.nextBackward work rank clock) =
      some next) : choice.start + work.cost.weight ≤ next.start := by
  have pass := pass_of_critical critical
  have other : next ≠ choice := by
    rintro rfl
    rw [filling] at pass
    cases pass
  unfold candidate at found
  rw [critical] at found
  have weights := (fill_cases found).resolve_left fun same => other (Option.some.inj same)
  obtain ⟨_, _, _, rfl⟩ := nextWeights_eq_some weights
  rw [weights] at found
  simp only [fill] at found
  split at found
  · assumption
  · exact absurd (Option.some.inj found) other

theorem candidate_eq_none (idle : state.candidate work rank clock = none) :
    clock.weights = [] ∧
      (∀ pass rest, clock.forwards = pass :: rest →
        work.memoryLimit ≤ clock.pending ∨ state.forwardArrival work rank pass = none) ∧
      (∀ pass rest, clock.backwards = pass :: rest →
        state.backwardArrival work rank pass = none) := by
  obtain ⟨critical, filling⟩ := fill_eq_none.mp idle
  obtain ⟨forward, backward⟩ := earlier_eq_none.mp critical
  refine ⟨by simpa [nextWeights] using filling, ?_, ?_⟩
  · intro pass rest next
    simp only [nextForward, next] at forward
    split at forward
    · exact Or.inr (Option.map_eq_none_iff.mp forward)
    · exact Or.inl (Nat.le_of_not_lt ‹_›)
  · intro pass rest next
    simp only [nextBackward, next] at backward
    exact Option.map_eq_none_iff.mp backward

theorem earliest_eq_some {clocks : List RankClock} {found : Nat} {choice : Candidate}
    (chosen : state.earliest work rank clocks = some (found, choice)) :
    ∃ index clock, found = rank + index ∧ clocks[index]? = some clock ∧
      state.candidate work found clock = some choice := by
  induction clocks generalizing rank with
  | nil => simp [earliest] at chosen
  | cons clock rest ih =>
      have later : state.earliest work (rank + 1) rest = some (found, choice) →
          ∃ index other, found = rank + index ∧ (clock :: rest)[index]? = some other ∧
            state.candidate work found other = some choice := by
        intro chosen
        obtain ⟨index, other, rfl, present, candidate⟩ := ih chosen
        exact ⟨index + 1, other, by omega, by simpa using present, candidate⟩
      have here : ∀ first, state.candidate work rank clock = some first →
          some (rank, first) = some (found, choice) →
          ∃ index other, found = rank + index ∧ (clock :: rest)[index]? = some other ∧
            state.candidate work found other = some choice := by
        rintro first candidate ⟨⟩
        exact ⟨0, clock, rfl, rfl, candidate⟩
      unfold earliest at chosen
      cases candidate : state.candidate work rank clock with
      | none => exact later (by simpa [candidate] using chosen)
      | some first =>
          cases others : state.earliest work (rank + 1) rest with
          | none => exact here first candidate (by simpa [candidate, others] using chosen)
          | some second =>
              simp only [candidate, others] at chosen
              split at chosen
              · exact here first candidate chosen
              · exact later (others.trans chosen)

theorem earliest_eq_none {clocks : List RankClock}
    (stuck : state.earliest work rank clocks = none) (index : Nat) (clock : RankClock)
    (present : clocks[index]? = some clock) :
    state.candidate work (rank + index) clock = none := by
  induction clocks generalizing rank index with
  | nil => simp at present
  | cons head rest ih =>
      unfold earliest at stuck
      cases candidate : state.candidate work rank head with
      | some first =>
          cases others : state.earliest work (rank + 1) rest with
          | none => simp [candidate, others] at stuck
          | some second =>
              simp only [candidate, others] at stuck
              split at stuck <;> simp at stuck
      | none =>
          simp only [candidate] at stuck
          cases index with
          | zero =>
              obtain rfl : head = clock := by simpa using present
              exact candidate
          | succ index =>
              have tail := ih stuck index (by simpa using present)
              rwa [Nat.add_assoc, Nat.add_comm 1] at tail

end Simulation
end PipelineTraining
