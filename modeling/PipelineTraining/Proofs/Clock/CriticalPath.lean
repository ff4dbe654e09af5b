import PipelineTraining.Proofs.Clock.Exactness
import PipelineTraining.Proofs.Layout.Tiling

/-!
The longest way through a pipeline. A micro-batch goes down all stages and up again, one
pass behind the other, and waits for a transfer wherever two neighbouring stages lie on
different ranks. No timeline is shorter than that, whatever the other micro-batches do.
-/

namespace PipelineTraining

namespace Layout

def crosses (layout : Layout) (logical : Nat) : Bool :=
  layout.rankOf (layout.stageAt logical) != layout.rankOf (layout.stageAt (logical + 1))

def crossingsTo (layout : Layout) (logical : Nat) : Nat :=
  (List.range logical).countP layout.crosses

def crossings (layout : Layout) : Nat :=
  layout.crossingsTo (layout.stageCount - 1)

theorem crossingsTo_succ (layout : Layout) (logical : Nat) : layout.crossingsTo (logical + 1) =
    layout.crossingsTo logical + if layout.crosses logical then 1 else 0 := by
  rw [crossingsTo, List.range_succ, List.countP_append, List.countP_singleton, crossingsTo]

end Layout

theorem Simulation.hop_down (work : Workload) (logical : Nat) :
    hop work (work.layout.rankOf (work.layout.stageAt (logical + 1)))
        (work.layout.stageAt logical) =
      (if work.layout.crosses logical then 1 else 0) * work.cost.transfer := by
  unfold hop Layout.crosses
  split
  case isTrue same => simp [same]
  case isFalse other => simp [other]

theorem Simulation.hop_up (work : Workload) (logical : Nat) :
    hop work (work.layout.rankOf (work.layout.stageAt logical))
        (work.layout.stageAt (logical + 1)) =
      (if work.layout.crosses logical then 1 else 0) * work.cost.transfer := by
  unfold hop Layout.crosses
  split
  case isTrue same => simp [same]
  case isFalse other => simp [Ne.symm other]

namespace Timetable

def Punctual (work : Workload) (table : Timetable) : Prop :=
  ∀ rank timeline, table[rank]? = some timeline → ∀ before timed after,
    timeline = before ++ timed :: after → OnTime work table rank before timed

variable {work : Workload} {table : Timetable} {rank tick logical microbatch : Nat}
  {action : Action}

theorem Punctual.arrived (punctual : Punctual work table)
    (finished : table.finish? rank action = some tick) :
    ∃ arrival, table.arrival? work rank action = some arrival ∧
      arrival + action.cost work.cost ≤ tick := by
  obtain ⟨timeline, present, found⟩ := Option.bind_eq_some_iff.mp finished
  obtain ⟨timed, listed, rfl⟩ := Option.map_eq_some_iff.mp found
  obtain ⟨before, after, split⟩ := List.append_of_mem (List.mem_of_find?_eq_some listed)
  obtain rfl : timed.action = action := by simpa using List.find?_some listed
  obtain ⟨takes, ⟨arrival, arrived, starts⟩, _⟩ :=
    punctual rank timeline present before timed after split
  refine ⟨arrival, arrived, ?_⟩
  have later : arrival ≤ timed.start := starts ▸ Nat.le_max_right _ _
  rw [takes]
  exact Nat.add_le_add_right later _

theorem arrival?_forward (inside : logical + 1 < work.layout.stageCount) :
    table.arrival? work rank (.forward (work.layout.stageAt (logical + 1), microbatch)) =
      (table.finish? (work.layout.rankOf (work.layout.stageAt logical))
        (.forward (work.layout.stageAt logical, microbatch))).map
          (· + Simulation.hop work rank (work.layout.stageAt logical)) := by
  have source := (Layout.walk work.layout).upstream (logical + 1) inside
  simp only [Nat.add_one_ne_zero, if_false, Nat.add_sub_cancel] at source
  simp only [arrival?, source]

/-- The last stage turns round, the others wait for the stage behind them. -/
theorem arrival?_backward (inside : logical < work.layout.stageCount) :
    table.arrival? work rank (.backward (work.layout.stageAt logical, microbatch)) =
      if logical + 1 = work.layout.stageCount then
        table.finish? rank (.forward (work.layout.stageAt logical, microbatch))
      else (table.finish? (work.layout.rankOf (work.layout.stageAt (logical + 1)))
        (.backward (work.layout.stageAt (logical + 1), microbatch))).map
          (· + Simulation.hop work rank (work.layout.stageAt (logical + 1))) := by
  have source := (Layout.walk work.layout).downstream logical inside
  rw [← Layout.stageCount] at source
  by_cases last : logical + 1 = work.layout.stageCount
  · simp only [arrival?, source, last, if_true]
  · simp only [arrival?, source, last, if_false]

theorem Punctual.forward_le (punctual : Punctual work table)
    (inside : logical < work.layout.stageCount)
    (finished : table.finish? (work.layout.rankOf (work.layout.stageAt logical))
      (.forward (work.layout.stageAt logical, microbatch)) = some tick) :
    (logical + 1) * work.cost.forward + work.layout.crossingsTo logical * work.cost.transfer ≤
      tick := by
  induction logical generalizing tick with
  | zero =>
      obtain ⟨arrival, _, ends⟩ := punctual.arrived finished
      simp only [Action.cost] at ends
      simp only [Layout.crossingsTo, List.range_zero, List.countP_nil]
      omega
  | succ logical ih =>
      obtain ⟨arrival, arrived, ends⟩ := punctual.arrived finished
      rw [arrival?_forward inside] at arrived
      obtain ⟨earlier, before, rfl⟩ := Option.map_eq_some_iff.mp arrived
      have past := ih (Nat.lt_of_succ_lt inside) before
      rw [Simulation.hop_down] at ends
      simp only [Action.cost] at ends
      calc (logical + 1 + 1) * work.cost.forward +
            work.layout.crossingsTo (logical + 1) * work.cost.transfer
        _ = (logical + 1) * work.cost.forward +
              work.layout.crossingsTo logical * work.cost.transfer +
              (if work.layout.crosses logical then 1 else 0) * work.cost.transfer +
              work.cost.forward := by
            rw [Layout.crossingsTo_succ]
            ring
        _ ≤ tick := by omega

/-- A backward comes behind all forwards of its micro-batch and the backwards of all stages behind
it. -/
theorem Punctual.backward_le (punctual : Punctual work table) {ahead : Nat}
    (last : logical + ahead + 1 = work.layout.stageCount)
    (finished : table.finish? (work.layout.rankOf (work.layout.stageAt logical))
      (.backward (work.layout.stageAt logical, microbatch)) = some tick) :
    work.layout.stageCount * work.cost.forward + (ahead + 1) * work.cost.backward +
        2 * work.layout.crossings * work.cost.transfer ≤
      tick + work.layout.crossingsTo logical * work.cost.transfer := by
  induction ahead generalizing logical tick with
  | zero =>
      have inside : logical < work.layout.stageCount := by omega
      obtain ⟨arrival, arrived, ends⟩ := punctual.arrived finished
      rw [arrival?_backward inside, if_pos last] at arrived
      have forwards := punctual.forward_le inside arrived
      have all : work.layout.crossings = work.layout.crossingsTo logical := by
        rw [Layout.crossings, ← last, Nat.add_zero, Nat.add_sub_cancel]
      simp only [Action.cost] at ends
      calc work.layout.stageCount * work.cost.forward + (0 + 1) * work.cost.backward +
            2 * work.layout.crossings * work.cost.transfer
        _ = (logical + 1) * work.cost.forward +
              work.layout.crossingsTo logical * work.cost.transfer + work.cost.backward +
              work.layout.crossingsTo logical * work.cost.transfer := by
            rw [all, ← last]
            ring
        _ ≤ tick + work.layout.crossingsTo logical * work.cost.transfer := by omega
  | succ ahead ih =>
      have inside : logical < work.layout.stageCount := by omega
      have inner : logical + 1 ≠ work.layout.stageCount := by omega
      obtain ⟨arrival, arrived, ends⟩ := punctual.arrived finished
      rw [arrival?_backward inside, if_neg inner] at arrived
      obtain ⟨earlier, before, rfl⟩ := Option.map_eq_some_iff.mp arrived
      have past := ih (by omega) before
      rw [Simulation.hop_up] at ends
      simp only [Action.cost] at ends
      have further : work.layout.crossingsTo (logical + 1) * work.cost.transfer =
          work.layout.crossingsTo logical * work.cost.transfer +
            (if work.layout.crosses logical then 1 else 0) * work.cost.transfer := by
        rw [Layout.crossingsTo_succ, Nat.add_mul]
      have more : (ahead + 1 + 1) * work.cost.backward =
          (ahead + 1) * work.cost.backward + work.cost.backward := Nat.succ_mul _ _
      omega

end Timetable
end PipelineTraining
