import PipelineTraining.Plan.Basic
import PipelineTraining.Proofs.Clock.Outcome

/-!
The timelines of a clock by themselves. The tick at which a rank finishes an action
stands on its timeline, and with it the tick at which the input of the next stage is
there. What the clock enters in its tables is nothing else: every action starts as
soon as its rank is free and its input has come.
-/

namespace PipelineTraining

abbrev Timetable := List (List TimedAction)

namespace Timetable

def finish? (table : Timetable) (rank : Nat) (action : Action) : Option Nat :=
  (table[rank]?).bind fun timeline =>
    (timeline.find? fun timed => timed.action == action).map TimedAction.finish

def arrival? (work : Workload) (table : Timetable) (rank : Nat) : Action → Option Nat
  | .forward (stage, microbatch) =>
      match work.layout.prev stage with
      | none => some 0
      | some before =>
          (table.finish? (work.layout.rankOf before) (.forward (before, microbatch))).map
            (· + Simulation.hop work rank before)
  | .backward (stage, microbatch) =>
      match work.layout.next stage with
      | none => table.finish? rank (.forward (stage, microbatch))
      | some behind =>
          (table.finish? (work.layout.rankOf behind) (.backward (behind, microbatch))).map
            (· + Simulation.hop work rank behind)
  | .weights pass => table.finish? rank (.backward pass)

def extend (table : Timetable) (rank : Nat) (timed : TimedAction) : Timetable :=
  table.modify rank (· ++ [timed])

def passes (timeline : List TimedAction) : List TimedAction :=
  timeline.filter fun timed => timed.action.weights?.isNone

/-- An action on time: it takes what it costs, and begins once its rank is free and its input is
there. A weight pass never waits for its input. -/
structure OnTime (work : Workload) (table : Timetable) (rank : Nat) (before : List TimedAction)
    (timed : TimedAction) : Prop where
  takes : timed.finish = timed.start + timed.action.cost work.cost
  starts : ∃ arrival, table.arrival? work rank timed.action = some arrival ∧
    timed.start = max (Statistics.lastTick before) arrival
  fills : ∀ pass, timed.action = .weights pass → timed.start = Statistics.lastTick before

variable {work : Workload} {table larger : Timetable} {rank other tick : Nat} {action : Action}
  {timed : TimedAction} {before : List TimedAction}

theorem finish?_extend_other (different : rank ≠ other) :
    (table.extend rank timed).finish? other action = table.finish? other action := by
  simp [finish?, extend, different]

theorem finish?_extend_kept (entered : table.finish? other action = some tick) :
    (table.extend rank timed).finish? other action = some tick := by
  by_cases here : rank = other
  · subst here
    obtain ⟨timeline, present, found⟩ := Option.bind_eq_some_iff.mp entered
    obtain ⟨first, listed, rfl⟩ := Option.map_eq_some_iff.mp found
    simp [finish?, extend, present, List.find?_append, listed]
  · rwa [finish?_extend_other here]

theorem finish?_extend_new (missing : table.finish? other action = none)
    (entered : (table.extend rank timed).finish? other action = some tick) :
    rank = other ∧ timed.action = action ∧ timed.finish = tick := by
  by_cases here : rank = other
  · subst here
    refine ⟨rfl, ?_⟩
    obtain ⟨timeline, present, found⟩ := Option.bind_eq_some_iff.mp entered
    simp only [extend, List.getElem?_modify, if_true, Option.map_eq_map,
      Option.map_eq_some_iff] at present
    obtain ⟨old, present, rfl⟩ := present
    have unlisted : (old.find? fun timed => timed.action == action) = none := by
      simpa only [finish?, present, Option.bind_some, Option.map_eq_none_iff] using missing
    rw [List.find?_append, unlisted, Option.none_or] at found
    obtain ⟨only, listed, rfl⟩ := Option.map_eq_some_iff.mp found
    obtain rfl := List.mem_singleton.mp (List.mem_of_find?_eq_some listed)
    have same := List.find?_some listed
    exact ⟨by simpa using same, rfl⟩
  · rw [finish?_extend_other here, missing] at entered
    cases entered

theorem finish?_extend_unlike (unlike : ¬ (rank = other ∧ timed.action = action)) :
    (table.extend rank timed).finish? other action = table.finish? other action := by
  cases entered : table.finish? other action with
  | some tick => exact finish?_extend_kept entered
  | none =>
      cases later : (table.extend rank timed).finish? other action with
      | none => rfl
      | some tick =>
          obtain ⟨here, same, _⟩ := finish?_extend_new entered later
          exact absurd ⟨here, same⟩ unlike

theorem finish?_extend_self (inside : rank < table.length)
    (missing : table.finish? rank timed.action = none) :
    (table.extend rank timed).finish? rank timed.action = some timed.finish := by
  have present := List.getElem?_eq_getElem inside
  have unlisted : (table[rank].find? fun other => other.action == timed.action) = none := by
    simpa only [finish?, present, Option.bind_some, Option.map_eq_none_iff] using missing
  simp [finish?, extend, present, List.find?_append, unlisted]

theorem finish?_extend_cases (table : Timetable) (rank : Nat) (timed : TimedAction) (other : Nat)
    (action : Action) :
    (table.extend rank timed).finish? other action = table.finish? other action ∨
      table.finish? other action = none ∧
        (table.extend rank timed).finish? other action = some timed.finish := by
  cases later : (table.extend rank timed).finish? other action with
  | none =>
      refine Or.inl (Eq.symm ?_)
      by_contra entered
      obtain ⟨tick, entered⟩ := Option.ne_none_iff_exists'.mp entered
      rw [finish?_extend_kept entered] at later
      cases later
  | some tick =>
      cases entered : table.finish? other action with
      | none =>
          obtain ⟨_, _, same⟩ := finish?_extend_new entered later
          exact Or.inr ⟨rfl, congrArg some same.symm⟩
      | some other => exact Or.inl (later.symm.trans (finish?_extend_kept entered))

theorem arrival?_extend (work : Workload) (table : Timetable) (rank : Nat) (timed : TimedAction)
    (other : Nat) (action : Action) :
    (table.extend rank timed).arrival? work other action = table.arrival? work other action ∨
      table.arrival? work other action = none ∧
        ∀ tick, (table.extend rank timed).arrival? work other action = some tick →
          timed.finish ≤ tick := by
  -- An input comes from another action, later by a hop at most.
  have hopped : ∀ source cause ticks,
      ((table.extend rank timed).finish? source cause).map (· + ticks) =
          (table.finish? source cause).map (· + ticks) ∨
        (table.finish? source cause).map (· + ticks) = none ∧
          ∀ tick, ((table.extend rank timed).finish? source cause).map (· + ticks) = some tick →
            timed.finish ≤ tick := by
    intro source cause ticks
    rcases table.finish?_extend_cases rank timed source cause with same | ⟨missing, entered⟩
    · exact Or.inl (congrArg (Option.map (· + ticks)) same)
    · refine Or.inr ⟨by rw [missing, Option.map_none], fun tick found => ?_⟩
      rw [entered] at found
      obtain rfl := Option.some.inj found
      exact Nat.le_add_right _ _
  have plain := fun cause => hopped other cause 0
  simp only [Nat.add_zero, Option.map_id'] at plain
  cases action with
  | forward pass =>
      simp only [arrival?]
      cases work.layout.prev pass.1 with
      | none => exact Or.inl rfl
      | some source => exact hopped _ _ _
  | backward pass =>
      simp only [arrival?]
      cases work.layout.next pass.1 with
      | none => exact plain _
      | some source => exact hopped _ _ _
  | weights pass => exact plain _

theorem arrival?_mono
    (grown : ∀ rank action tick, table.finish? rank action = some tick →
      larger.finish? rank action = some tick)
    (arrived : table.arrival? work rank action = some tick) :
    larger.arrival? work rank action = some tick := by
  cases action with
  | forward pass =>
      obtain ⟨stage, microbatch⟩ := pass
      simp only [arrival?] at arrived ⊢
      cases found : work.layout.prev stage with
      | none => simpa only [found] using arrived
      | some source =>
          simp only [found, Option.map_eq_some_iff] at arrived ⊢
          obtain ⟨finish, entered, rfl⟩ := arrived
          exact ⟨finish, grown _ _ _ entered, rfl⟩
  | backward pass =>
      obtain ⟨stage, microbatch⟩ := pass
      simp only [arrival?] at arrived ⊢
      cases found : work.layout.next stage with
      | none =>
          simp only [found] at arrived ⊢
          exact grown _ _ _ arrived
      | some source =>
          simp only [found, Option.map_eq_some_iff] at arrived ⊢
          obtain ⟨finish, entered, rfl⟩ := arrived
          exact ⟨finish, grown _ _ _ entered, rfl⟩
  | weights pass => exact grown _ _ _ arrived

theorem OnTime.mono
    (grown : ∀ rank action tick, table.finish? rank action = some tick →
      larger.finish? rank action = some tick)
    (onTime : OnTime work table rank before timed) : OnTime work larger rank before timed := by
  obtain ⟨arrival, arrived, starts⟩ := onTime.starts
  exact ⟨onTime.takes, ⟨arrival, arrival?_mono grown arrived, starts⟩, onTime.fills⟩

theorem finish?_of_mem {timeline : List TimedAction} (present : table[rank]? = some timeline)
    (member : timed ∈ timeline) : ∃ same ∈ timeline, same.action = timed.action ∧
      table.finish? rank timed.action = some same.finish := by
  cases listed : timeline.find? fun other => other.action == timed.action with
  | none => simpa using List.find?_eq_none.mp listed timed member
  | some same =>
      refine ⟨same, List.mem_of_find?_eq_some listed, by simpa using List.find?_some listed, ?_⟩
      simp only [finish?, present, Option.bind_some, listed, Option.map_some]

theorem mem_of_finish? (entered : table.finish? rank action = some tick) :
    ∃ timeline, table[rank]? = some timeline ∧ action ∈ timeline.map TimedAction.action := by
  obtain ⟨timeline, present, found⟩ := Option.bind_eq_some_iff.mp entered
  obtain ⟨timed, listed, rfl⟩ := Option.map_eq_some_iff.mp found
  have same : timed.action = action := by simpa using List.find?_some listed
  exact ⟨timeline, present, same ▸ List.mem_map_of_mem (List.mem_of_find?_eq_some listed)⟩

end Timetable
end PipelineTraining
