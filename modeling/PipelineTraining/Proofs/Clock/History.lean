import PipelineTraining.Proofs.Clock.Course

/-!
Everything the clock has committed, as a course of all ranks. Each rank's share
follows its work orders and is its timeline, the course is ordered and keeps to
the memory limit, and the pending count is the number of forwards whose backward
is still to come. A run of the clock ends where all work is done or where no rank
has a candidate.
-/

namespace PipelineTraining

namespace Simulation
open Course

variable {work : Workload} {state : Simulation}

abbrev Commit := Nat × Candidate

def taken (log : List Commit) : List (Nat × Action) :=
  log.map fun commit => (commit.1, commit.2.action)

theorem taken_snoc (log : List Commit) (rank : Nat) (choice : Candidate) :
    taken (log ++ [(rank, choice)]) = taken log ++ [(rank, choice.action)] := by
  simp [taken]

inductive History (work : Workload) : List Commit → Simulation → Prop
  | initial : History work [] (.initial work)
  | commit {log : List Commit} {state : Simulation} {rank : Nat} {choice : Candidate}
      (past : History work log state)
      (chosen : state.earliest work 0 state.ranks = some (rank, choice)) :
      History work (log ++ [(rank, choice)]) (state.commit work rank choice)

theorem granted_of_earliest {rank : Nat} {choice : Candidate}
    (chosen : state.earliest work 0 state.ranks = some (rank, choice)) :
    ∃ clock, state.ranks[rank]? = some clock ∧ Granted work state rank clock choice := by
  obtain ⟨index, clock, same, present, candidate⟩ := earliest_eq_some chosen
  rw [Nat.zero_add] at same
  subst same
  exact ⟨clock, present, granted_of_candidate candidate⟩

theorem ranks_commit (rank : Nat) (choice : Candidate) :
    (state.commit work rank choice).ranks = state.ranks.modify rank (advance work choice) := by
  unfold commit
  cases choice.action <;> rfl

theorem clock_commit {rank other : Nat} {choice : Candidate} {clock : RankClock}
    (present : (state.commit work rank choice).ranks[other]? = some clock) :
    (other = rank ∧ ∃ old, state.ranks[rank]? = some old ∧ clock = advance work choice old) ∨
      (rank ≠ other ∧ state.ranks[other]? = some clock) := by
  rw [ranks_commit, List.getElem?_modify] at present
  by_cases same : rank = other
  · subst same
    simp only [if_true] at present
    obtain ⟨old, found, rfl⟩ := Option.map_eq_some_iff.mp present
    exact Or.inl ⟨rfl, old, found, rfl⟩
  · exact Or.inr ⟨same, by simpa [same] using present⟩

structure Tracked (work : Workload) (course : List (Nat × Action)) (rank : Nat)
    (clock : RankClock) : Prop where
  forwards : passesOf Action.forward? rank course ++ clock.forwards =
    WorkOrder.forward work.layout rank work.microbatches
  backwards : passesOf Action.backward? rank course ++ clock.backwards =
    WorkOrder.backward work.layout rank work.microbatches
  weights : passesOf Action.weights? rank course ++ clock.weights =
    if work.split then passesOf Action.backward? rank course else []
  timeline : clock.timeline.map TimedAction.action = partOf rank course

theorem tracked_start (work : Workload) (rank : Nat) :
    Tracked work [] rank (RankClock.start work rank) := by
  constructor <;> simp [passesOf, partOf, RankClock.start]

theorem Tracked.passesOf_eq {course : List (Nat × Action)} {rank : Nat} {clock : RankClock}
    (tracked : Tracked work course rank clock) (select : Action → Option Pass) :
    passesOf select rank course = (clock.timeline.map TimedAction.action).filterMap select := by
  rw [tracked.timeline, passesOf]

theorem tracked_advance {course : List (Nat × Action)} {rank : Nat} {clock : RankClock}
    {choice : Candidate} (tracked : Tracked work course rank clock)
    (granted : Granted work state rank clock choice) :
    Tracked work (course ++ [(rank, choice.action)]) rank (advance work choice clock) := by
  obtain ⟨forwards, backwards, weights, timeline⟩ := tracked
  cases granted with
  | forward next room arrived =>
      rw [next] at forwards
      constructor <;>
        simp_all [advance, passesOf_snoc_self, partOf_snoc_self, Action.forward?,
          Action.backward?, Action.weights?]
  | backward next arrived =>
      rw [next] at backwards
      constructor
      case weights =>
        cases split : work.split <;> simp only [split, if_true] at weights <;>
          simp [advance, passesOf_snoc_self, Action.backward?, Action.weights?, split, ← weights]
        simpa using weights
      all_goals
        simp_all [advance, passesOf_snoc_self, partOf_snoc_self, Action.forward?,
          Action.backward?]
  | weights next =>
      rw [next] at weights
      constructor <;>
        simp_all [advance, passesOf_snoc_self, partOf_snoc_self, Action.forward?,
          Action.backward?, Action.weights?]

theorem tracked_other {course : List (Nat × Action)} {rank other : Nat} {clock : RankClock}
    (action : Action) (different : other ≠ rank) (tracked : Tracked work course rank clock) :
    Tracked work (course ++ [(other, action)]) rank clock := by
  obtain ⟨forwards, backwards, weights, timeline⟩ := tracked
  constructor <;>
    simpa only [passesOf_snoc_other _ different, partOf_snoc_other different]

namespace History

variable {log : List Commit}

theorem rank_count (history : History work log state) :
    state.ranks.length = work.layout.depth := by
  induction history with
  | initial => simp [Simulation.initial]
  | commit past chosen ih => rw [ranks_commit, List.length_modify, ih]

theorem inside (history : History work log state) {rank : Nat} {clock : RankClock}
    (present : state.ranks[rank]? = some clock) : rank < work.layout.depth := by
  rw [← history.rank_count]
  exact (List.getElem?_eq_some_iff.mp present).1

theorem tracked (history : History work log state) {rank : Nat} {clock : RankClock}
    (present : state.ranks[rank]? = some clock) : Tracked work (taken log) rank clock := by
  induction history generalizing rank clock with
  | initial =>
      simp only [Simulation.initial, List.getElem?_map, Option.map_eq_some_iff] at present
      obtain ⟨index, found, rfl⟩ := present
      obtain ⟨_, rfl⟩ := List.getElem?_eq_some_iff.mp found
      rw [List.getElem_range]
      exact tracked_start work rank
  | commit past chosen ih =>
      rw [taken_snoc]
      rcases clock_commit present with ⟨rfl, old, found, rfl⟩ | ⟨different, found⟩
      · obtain ⟨clock, here, granted⟩ := granted_of_earliest chosen
        obtain rfl := Option.some.inj (found.symm.trans here)
        exact tracked_advance (ih found) granted
      · exact tracked_other _ different (ih found)

theorem rank_lt (history : History work log state) {rank : Nat} {action : Action}
    (member : (rank, action) ∈ taken log) : rank < work.layout.depth := by
  induction history with
  | initial => simp [taken] at member
  | commit past chosen ih =>
      rw [taken_snoc] at member
      rcases List.mem_append.mp member with old | new
      · exact ih old
      · obtain ⟨rfl, _⟩ := Prod.mk.inj (List.mem_singleton.mp new)
        obtain ⟨clock, present, _⟩ := granted_of_earliest chosen
        exact past.inside present

theorem clock_of_rank (history : History work log state) {rank : Nat}
    (inside : rank < work.layout.depth) : ∃ clock, state.ranks[rank]? = some clock := by
  rw [← history.rank_count] at inside
  exact ⟨_, List.getElem?_eq_getElem inside⟩

theorem placed (sound : work.layout.Sound) (history : History work log state) :
    Placed work.layout work.microbatches (taken log) := by
  have known : ∀ {rank chunk microbatch stage other}, rank < work.layout.depth →
      chunk < work.layout.chunks → microbatch < work.microbatches →
      (stage, other) = (work.layout.stage rank chunk, microbatch) →
      work.layout.IsStage stage ∧ work.layout.rankOf stage = rank ∧
        other < work.microbatches := by
    rintro rank chunk microbatch stage other inside held below ⟨⟩
    exact ⟨Layout.isStage_stage sound inside held, Layout.rankOf_stage inside chunk, below⟩
  rintro rank stage microbatch (member | member)
  · have inside := history.rank_lt member
    obtain ⟨clock, present⟩ := history.clock_of_rank inside
    have ordered : (stage, microbatch) ∈
        WorkOrder.forward work.layout rank work.microbatches := by
      rw [← (history.tracked present).forwards]
      exact List.mem_append_left _ (mem_forwards.mpr member)
    obtain ⟨chunk, held, _, below, same⟩ := WorkOrder.mem_forward.mp ordered
    exact known inside held below same
  · have inside := history.rank_lt member
    obtain ⟨clock, present⟩ := history.clock_of_rank inside
    have ordered : (stage, microbatch) ∈
        WorkOrder.backward work.layout rank work.microbatches := by
      rw [← (history.tracked present).backwards]
      exact List.mem_append_left _ (mem_backwards.mpr member)
    obtain ⟨chunk, held, _, below, same⟩ := WorkOrder.mem_backward.mp ordered
    exact known inside held below same

end History

def Records (select : Action → Option Pass) (table : Completion) (course : List (Nat × Action)) :
    Prop :=
  ∀ logical microbatch, (table logical microbatch).isSome ↔
    ∃ rank action stage, (rank, action) ∈ course ∧ select action = some (stage, microbatch) ∧
      stage.logical = logical

theorem records_empty (select : Action → Option Pass) : Records select .empty [] := by
  simp [Records, Completion.empty]

theorem records_record {select : Action → Option Pass} {table : Completion}
    {course : List (Nat × Action)} (records : Records select table course) (rank tick : Nat)
    {action : Action} {pass : Pass} (selected : select action = some pass) :
    Records select (table.record pass tick) (course ++ [(rank, action)]) := by
  intro logical microbatch
  unfold Completion.record
  by_cases here : logical = pass.1.logical ∧ microbatch = pass.2
  · obtain ⟨rfl, rfl⟩ := here
    simp only [and_self, if_true, Option.isSome_some, true_iff]
    exact ⟨rank, action, pass.1, by simp, selected, rfl⟩
  · rw [if_neg here, records logical microbatch]
    constructor
    · rintro ⟨other, earlier, stage, member, found⟩
      exact ⟨other, earlier, stage, List.mem_append_left _ member, found⟩
    · rintro ⟨other, earlier, stage, member, found, rfl⟩
      rcases List.mem_append.mp member with old | new
      · exact ⟨other, earlier, stage, old, found, rfl⟩
      · obtain ⟨_, rfl⟩ := Prod.mk.inj (List.mem_singleton.mp new)
        obtain rfl := Option.some.inj (selected.symm.trans found)
        exact absurd ⟨rfl, rfl⟩ here

theorem records_skip {select : Action → Option Pass} {table : Completion}
    {course : List (Nat × Action)} (records : Records select table course) (rank : Nat)
    {action : Action} (skipped : select action = none) :
    Records select table (course ++ [(rank, action)]) := by
  intro logical microbatch
  rw [records logical microbatch]
  constructor
  · rintro ⟨other, earlier, stage, member, found⟩
    exact ⟨other, earlier, stage, List.mem_append_left _ member, found⟩
  · rintro ⟨other, earlier, stage, member, found, same⟩
    rcases List.mem_append.mp member with old | new
    · exact ⟨other, earlier, stage, old, found, same⟩
    · obtain ⟨_, rfl⟩ := Prod.mk.inj (List.mem_singleton.mp new)
      simp [skipped] at found

namespace History

variable {log : List Commit}

theorem records (history : History work log state) :
    Records Action.forward? state.forwardDone (taken log) ∧
      Records Action.backward? state.backwardDone (taken log) := by
  induction history with
  | initial => exact ⟨records_empty _, records_empty _⟩
  | commit past chosen ih =>
      rename_i rank choice
      rw [taken_snoc]
      unfold Simulation.commit
      cases action : choice.action with
      | forward pass =>
          exact ⟨records_record ih.1 rank _ rfl, records_skip ih.2 rank rfl⟩
      | backward pass =>
          exact ⟨records_skip ih.1 rank rfl, records_record ih.2 rank _ rfl⟩
      | weights pass => exact ⟨records_skip ih.1 rank rfl, records_skip ih.2 rank rfl⟩

theorem forward_committed (sound : work.layout.Sound) (history : History work log state)
    {stage : StageId} {microbatch : Nat} (known : work.layout.IsStage stage)
    (done : (state.forwardDone.at? stage microbatch).isSome) :
    (work.layout.rankOf stage, .forward (stage, microbatch)) ∈ taken log := by
  obtain ⟨rank, action, other, member, selected, same⟩ := (history.records.1 _ _).mp done
  obtain rfl := Action.forward?_eq_some.mp selected
  obtain ⟨placed, rfl, _⟩ := history.placed sound rank other microbatch (Or.inl member)
  rwa [known.eq_of_logical placed same.symm]

theorem backward_committed (sound : work.layout.Sound) (history : History work log state)
    {stage : StageId} {microbatch : Nat} (known : work.layout.IsStage stage)
    (done : (state.backwardDone.at? stage microbatch).isSome) :
    (work.layout.rankOf stage, .backward (stage, microbatch)) ∈ taken log := by
  obtain ⟨rank, action, other, member, selected, same⟩ := (history.records.2 _ _).mp done
  obtain rfl := Action.backward?_eq_some.mp selected
  obtain ⟨placed, rfl, _⟩ := history.placed sound rank other microbatch (Or.inr member)
  rwa [known.eq_of_logical placed same.symm]

theorem fed (sound : work.layout.Sound) (history : History work log state) {rank : Nat}
    {clock : RankClock} {choice : Candidate} (present : state.ranks[rank]? = some clock)
    (granted : Granted work state rank clock choice) :
    Fed work.layout (taken log) rank choice.action := by
  have tracked := history.tracked present
  have inside := history.inside present
  cases granted with
  | @forward pass rest tick next room arrived =>
      intro source found
      -- What a rank takes up next is of its order, so its stage lies on the rank.
      have ordered : pass ∈ WorkOrder.forward work.layout rank work.microbatches := by
        rw [← tracked.forwards, next]
        simp
      obtain ⟨chunk, held, microbatch, _, rfl⟩ := WorkOrder.mem_forward.mp ordered
      have known := Layout.isStage_stage sound inside held
      apply history.forward_committed sound (Layout.isStage_prev known found)
      simp only [forwardArrival, found, Option.map_eq_some_iff] at arrived
      obtain ⟨_, done, _⟩ := arrived
      simp [done]
  | @backward pass rest tick next arrived =>
      have ordered : pass ∈ WorkOrder.backward work.layout rank work.microbatches := by
        rw [← tracked.backwards, next]
        simp
      obtain ⟨chunk, held, microbatch, _, rfl⟩ := WorkOrder.mem_backward.mp ordered
      have known := Layout.isStage_stage sound inside held
      -- On the last stage a backward waits for the rank's own forward.
      simp only [Fed]
      simp only [backwardArrival] at arrived
      cases found : work.layout.next (work.layout.stage rank chunk) with
      | none =>
          simp only [found] at arrived ⊢
          have done : (state.forwardDone.at? (work.layout.stage rank chunk) microbatch).isSome := by
            simp [arrived]
          have own := history.forward_committed sound known done
          rwa [Layout.rankOf_stage inside] at own
      | some source =>
          simp only [found, Option.map_eq_some_iff] at arrived ⊢
          obtain ⟨_, done, _⟩ := arrived
          exact history.backward_committed sound (Layout.isStage_next known found) (by simp [done])
  | @weights pass rest next =>
      -- Weight passes are only noted down for backwards that are committed.
      have weights := tracked.weights
      rw [next] at weights
      cases split : work.split with
      | false => simp [split] at weights
      | true =>
          simp only [split, if_true] at weights
          apply mem_backwards.mp
          rw [← weights]
          simp

theorem ordered (sound : work.layout.Sound) (history : History work log state) :
    Ordered work.layout (taken log) := by
  induction history with
  | initial => simp [Ordered, taken]
  | commit past chosen ih =>
      rw [taken_snoc]
      obtain ⟨clock, present, granted⟩ := granted_of_earliest chosen
      exact ih.snoc (past.fed sound present granted)

theorem backwards_nodup (history : History work log state) {rank : Nat}
    (inside : rank < work.layout.depth) :
    (passesOf Action.backward? rank (taken log)).Nodup := by
  obtain ⟨clock, present⟩ := history.clock_of_rank inside
  have whole := WorkOrder.backward_nodup work.layout rank work.microbatches
  rw [← (history.tracked present).backwards] at whole
  exact (List.nodup_append.mp whole).1

/-- A rank has never run more backwards than forwards. -/
theorem backwards_le_forwards (sound : work.layout.Sound) (history : History work log state)
    {rank : Nat} (inside : rank < work.layout.depth) :
    (passesOf Action.backward? rank (taken log)).length ≤
      (passesOf Action.forward? rank (taken log)).length := by
  refine (history.backwards_nodup inside).length_le_of_subset fun pass member => ?_
  have paired := forward_of_backward (history.ordered sound) (history.placed sound)
    (mem_backwards.mp member)
  exact mem_forwards.mpr paired

theorem pending (sound : work.layout.Sound) (history : History work log state) {rank : Nat}
    {clock : RankClock} (present : state.ranks[rank]? = some clock) :
    clock.pending + (passesOf Action.backward? rank (taken log)).length =
      (passesOf Action.forward? rank (taken log)).length := by
  induction history generalizing rank clock with
  | initial =>
      simp only [Simulation.initial, List.getElem?_map, Option.map_eq_some_iff] at present
      obtain ⟨index, _, rfl⟩ := present
      simp [RankClock.start, taken, passesOf, partOf]
  | commit past chosen ih =>
      have whole := past.commit chosen
      rcases clock_commit present with ⟨rfl, old, found, rfl⟩ | ⟨different, found⟩
      · have inside := past.inside found
        have bound := whole.backwards_le_forwards sound inside
        have before := ih found
        obtain ⟨clock, here, granted⟩ := granted_of_earliest chosen
        obtain rfl := Option.some.inj (found.symm.trans here)
        rw [taken_snoc, passesOf_snoc_self, passesOf_snoc_self] at bound ⊢
        cases granted <;>
          simp [advance, Action.forward?, Action.backward?] at bound ⊢ <;> omega
      · rw [taken_snoc, passesOf_snoc_other _ different, passesOf_snoc_other _ different]
        exact ih found

theorem pending_le (history : History work log state) {rank : Nat} {clock : RankClock}
    (present : state.ranks[rank]? = some clock) : clock.pending ≤ work.memoryLimit := by
  induction history generalizing rank clock with
  | initial =>
      simp only [Simulation.initial, List.getElem?_map, Option.map_eq_some_iff] at present
      obtain ⟨index, _, rfl⟩ := present
      exact Nat.zero_le _
  | commit past chosen ih =>
      rcases clock_commit present with ⟨rfl, old, found, rfl⟩ | ⟨_, found⟩
      · obtain ⟨clock, here, granted⟩ := granted_of_earliest chosen
        obtain rfl := Option.some.inj (found.symm.trans here)
        have bound := ih found
        cases granted with
        | forward next room => exact room
        | backward => exact Nat.le_trans (Nat.sub_le _ _) bound
        | weights => exact bound
      · exact ih found

theorem admitted (sound : work.layout.Sound) (history : History work log state)
    {before after : List (Nat × Action)} {rank : Nat} {pass : Pass}
    (split : taken log = before ++ (rank, .forward pass) :: after) :
    (passesOf Action.forward? rank before).length <
      (passesOf Action.backward? rank before).length + work.memoryLimit := by
  induction history generalizing after with
  | initial => simp [taken] at split
  | commit past chosen ih =>
      rw [taken_snoc] at split
      rcases snoc_split split with ⟨same, last, _⟩ | ⟨rest, _, same⟩
      · obtain ⟨clock, present, granted⟩ := granted_of_earliest chosen
        obtain ⟨rfl, action⟩ := Prod.mk.inj last
        have balance := past.pending sound present
        rw [same] at balance
        cases granted with
        | forward next room arrived => omega
        | backward => simp at action
        | weights => simp at action
      · exact ih same

end History

def ahead (state : Simulation) : Nat :=
  (state.ranks.map RankClock.ahead).sum

theorem ahead_advance {rank : Nat} {clock : RankClock} {choice : Candidate}
    (granted : Granted work state rank clock choice) :
    (advance work choice clock).ahead < clock.ahead := by
  cases granted with
  | forward next => simp [advance, RankClock.ahead, next]
  | backward next =>
      simp only [advance, RankClock.ahead, next]
      split
      · simp
        omega
      · simp
  | weights next => simp [advance, RankClock.ahead, next]

theorem sum_modify_lt {α : Type} (measure : α → Nat) (change : α → α) {entry : α} :
    ∀ {items : List α} {index : Nat}, items[index]? = some entry →
      measure (change entry) < measure entry →
      ((items.modify index change).map measure).sum < (items.map measure).sum
  | _ :: _, 0, found, less => by
      obtain rfl := Option.some.inj found
      simpa using less
  | _ :: _, index + 1, found, less => by
      simpa using sum_modify_lt measure change (by simpa using found) less

theorem ahead_commit {rank : Nat} {clock : RankClock} {choice : Candidate}
    (present : state.ranks[rank]? = some clock)
    (granted : Granted work state rank clock choice) :
    (state.commit work rank choice).ahead < state.ahead := by
  unfold ahead
  rw [ranks_commit]
  exact sum_modify_lt RankClock.ahead _ present (ahead_advance granted)

theorem ahead_lt_steps (state : Simulation) : state.ahead < state.steps := by
  rw [steps, ← List.sum_eq_foldl]
  exact Nat.lt_succ_self _

/-- A run with enough steps ends with all work done, or with work left and nobody to go on. -/
theorem run_ends {log : List Commit} (history : History work log state) {steps : Nat}
    (enough : state.ahead < steps) :
    (∃ log final, run work steps state = .ok final ∧ History work log final ∧
        final.done = true) ∨
      ∃ log final, run work steps state =
          .error (.configuration (.stalled work.memoryLimit (stuck 0 final.ranks))) ∧
        History work log final ∧ final.done = false ∧
        final.earliest work 0 final.ranks = none := by
  induction steps generalizing log state with
  | zero => omega
  | succ steps ih =>
      cases done : state.done with
      | true => exact Or.inl ⟨log, state, by simp [run, done], history, done⟩
      | false =>
          cases chosen : state.earliest work 0 state.ranks with
          | none => exact Or.inr ⟨log, state, by simp [run, done, chosen], history, done, chosen⟩
          | some found =>
              obtain ⟨rank, choice⟩ := found
              obtain ⟨clock, present, granted⟩ := granted_of_earliest chosen
              have less := ahead_commit present granted
              have next := ih (history.commit chosen) (by omega)
              simpa [run, done, chosen] using next

end Simulation

namespace Workload

/-- A simulation answers with the timelines of a finished history or with the fault of a stuck
one. -/
theorem simulate_ends (work : Workload) :
    (∃ log final, work.simulate = .ok (final.ranks.map RankClock.timeline) ∧
        Simulation.History work log final ∧ final.done = true) ∨
      ∃ log final, work.simulate =
          .error (.configuration (.stalled work.memoryLimit (Simulation.stuck 0 final.ranks))) ∧
        Simulation.History work log final ∧ final.done = false ∧
        final.earliest work 0 final.ranks = none := by
  rcases Simulation.run_ends .initial (Simulation.ahead_lt_steps _) with
    ⟨log, final, answer, rest⟩ | ⟨log, final, answer, rest⟩
  · exact Or.inl ⟨log, final, by simp [simulate, answer, Except.map], rest⟩
  · exact Or.inr ⟨log, final, by simp [simulate, answer, Except.map], rest⟩

end Workload
end PipelineTraining
