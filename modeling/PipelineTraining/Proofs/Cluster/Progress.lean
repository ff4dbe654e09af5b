import Mathlib.Algebra.BigOperators.Ring.Finset
import Mathlib.Algebra.Order.BigOperators.Group.Finset
import PipelineTraining.Proofs.Cluster.Readiness
import PipelineTraining.Proofs.Plan.Building

/-!
Plans that were built never deadlock. As long as operations are left some rank
executes its next one by its own turns alone, no run goes on for ever, and where
nobody moves any more every rank has been through all its iterations.
-/

namespace PipelineTraining

variable {σ α : Type} {drill : Drill σ α} {chart : Chart drill} {moves : List Nat}
  {seen : List (Sighting α)} {cluster : Cluster σ α} {who : Nat} {member : Member σ α}

theorem Run.executed_of_attempt {run : Run α} {attempt : Attempt α}
    (held : run.phase.attempt? = some attempt) : run.executed = attempt.executed := by
  unfold Run.executed
  cases phase : run.phase with
  | ended result =>
      rw [phase] at held
      cases held
  | _ =>
      rw [phase] at held
      simp only [held, Option.map_some, Option.getD_some]

namespace Joint

theorem member_of_lt (joint : Joint moves seen cluster chart)
    (inside : who < drill.plan.layout.depth) : ∃ member, cluster.members[who]? = some member :=
  ⟨_, List.getElem?_eq_getElem (by rw [joint.size]; exact inside)⟩

theorem executed_eq (joint : Joint moves seen cluster chart)
    (inside : who < drill.plan.layout.depth) :
    cluster.executed drill.first who = chart.performed who := by
  obtain ⟨member, found⟩ := joint.member_of_lt inside
  obtain ⟨_, equipped, stands⟩ := joint.attended who member found
  have size : member.worker.operations.length = (chart.script who).length :=
    congrArg List.length equipped.scripted
  have running : ∀ {run : Run α},
      (member.activity = .running run ∨ member.activity = .waiting run) →
      Manned (chart.task who (chart.spots who).iteration) run →
      run.executed = (chart.spots who).behind.length →
      cluster.executed drill.first who = chart.performed who := by
    rintro run (activity | activity) manned executed <;>
    · simp only [Cluster.executed, found, Option.elim_some, Member.executed, Member.iteration,
        activity, executed, size, manned.iteration]
      rfl
  cases stands with
  | idle activity counted empty spent =>
      simp only [Cluster.executed, found, Option.elim_some, Member.executed, Member.iteration,
        activity, counted, size]
      unfold Chart.performed
      rw [empty]
      rfl
  | clearing activity manned phase empty spent =>
      apply running (Or.inl activity) manned
      simp only [Run.executed, phase, empty]
      rfl
  | choosing activity choosing opened spent =>
      obtain ⟨attempt, phase, manned, standing⟩ := choosing
      refine running (Or.inl activity) manned
        (Run.executed_of_attempt ?_ |>.trans standing.executed)
      rw [phase]
      rfl
  | poised activity poised opened spent =>
      obtain ⟨attempt, held, executed⟩ := poised.held
      exact running (Or.inl activity) poised.manned
        ((Run.executed_of_attempt held).trans executed)
  | waiting activity poised opened spent =>
      obtain ⟨attempt, held, executed⟩ := poised.held
      exact running (Or.inr activity) poised.manned
        ((Run.executed_of_attempt held).trans executed)
  | ended activity phase manned finished whole opened spent =>
      apply running (Or.inl activity) manned
      simp only [Run.executed, phase, finished.executed, whole]

theorem count_le (joint : Joint moves seen cluster chart) (inside : who < drill.plan.layout.depth) :
    moves.count who ≤ drill.rounds * chart.turns who := by
  obtain ⟨member, found⟩ := joint.member_of_lt inside
  obtain ⟨_, _, stands⟩ := joint.attended who member found
  have short := (joint.sound.behind who).length_le
  have spent : (chart.spots who).spent ≤ chart.turns who := by
    unfold Chart.turns
    cases stands <;> omega
  have counted := joint.counted who
  have begun := joint.sound.begun who
  have bounded := joint.sound.bounded who
  unfold Drill.goal at bounded
  by_cases resting : (chart.spots who).spent = 0
  · have within : (chart.spots who).iteration - drill.first ≤ drill.rounds := by omega
    have product := Nat.mul_le_mul_right (chart.turns who) within
    omega
  · have ahead := joint.ahead (Nat.pos_of_ne_zero resting)
    unfold Drill.goal at ahead
    have within : (chart.spots who).iteration - drill.first + 1 ≤ drill.rounds := by omega
    have product := Nat.mul_le_mul_right (chart.turns who) within
    rw [Nat.add_mul, Nat.one_mul] at product
    omega

end Joint

namespace Chart

theorem exists_short (sound : chart.Sound)
    (left : chart.performed who < drill.rounds * (chart.script who).length) :
    ∃ iteration, drill.first ≤ iteration ∧ iteration < drill.goal ∧
      chart.done who iteration ≠ chart.script who := by
  have begun := sound.begun who
  have bounded := sound.bounded who
  unfold performed at left
  unfold Drill.goal at bounded ⊢
  by_cases whole : (chart.spots who).behind = chart.script who
  · rw [whole] at left
    have fewer : (chart.spots who).iteration - drill.first + 1 < drill.rounds := by
      apply Nat.lt_of_mul_lt_mul_right (a := (chart.script who).length)
      rw [Nat.add_mul, Nat.one_mul]
      exact left
    refine ⟨(chart.spots who).iteration + 1, by omega, by omega, ?_⟩
    rw [done_ahead (Nat.lt_succ_self _)]
    intro empty
    rw [← empty, List.length_nil] at left
    omega
  · refine ⟨(chart.spots who).iteration, begun, ?_, ?_⟩
    · by_contra past
      have rounds : (chart.spots who).iteration - drill.first = drill.rounds := by omega
      rw [rounds] at left
      omega
    · rwa [done_current begun]

theorem Ready.left (sound : chart.Sound) (ready : chart.Ready who) :
    chart.performed who < drill.rounds * (chart.script who).length := by
  obtain ⟨iteration, before, operation, after, begun, ahead, split, done, _⟩ := ready
  have start := sound.begun who
  have behind := (sound.behind who).length_le
  have positive : 0 < (chart.script who).length := by simp [split]
  have shorter : before.length < (chart.script who).length := by simp [split]
  unfold Drill.goal at ahead
  unfold performed
  have current : (chart.spots who).iteration ≤ iteration := by
    by_contra past
    rw [done_before begun (by omega)] at done
    rw [done] at shorter
    exact Nat.lt_irrefl _ shorter
  rcases Nat.eq_or_lt_of_le current with now | later
  · rw [← now, done_current start] at done
    have product : ((chart.spots who).iteration - drill.first + 1) * (chart.script who).length ≤
        drill.rounds * (chart.script who).length := Nat.mul_le_mul_right _ (by omega)
    rw [Nat.add_mul, Nat.one_mul] at product
    rw [done]
    omega
  · have product : ((chart.spots who).iteration - drill.first + 2) * (chart.script who).length ≤
        drill.rounds * (chart.script who).length := Nat.mul_le_mul_right _ (by omega)
    rw [Nat.add_mul] at product
    omega

end Chart

namespace Joint

theorem assigned_eq (joint : Joint moves seen cluster chart)
    (inside : who < drill.plan.layout.depth) :
    drill.assigned who = drill.rounds * (chart.script who).length := by
  obtain ⟨rankPlan, known⟩ : ∃ rankPlan, drill.plan.rankPlan? who = some rankPlan :=
    ⟨_, List.getElem?_eq_getElem (by rwa [joint.sound.scored.ranks])⟩
  have script := joint.sound.scored.script who rankPlan known
  rw [Drill.assigned, known, Option.elim_some, script]
  rfl

section
variable (tagged : drill.plan.layout.Tagged drill.plan.microbatches)
  (reliable : drill.callbacks.Reliable)
  (suited : ∀ who iteration, Suited drill.plan (drill.inputs who iteration))

include tagged reliable suited

theorem turned_of_ready (joint : Joint moves seen cluster chart)
    (inside : who < drill.plan.layout.depth) (ready : chart.Ready who) :
    Turned moves seen cluster chart who := by
  obtain ⟨member, found⟩ := joint.member_of_lt inside
  rcases joint.outlook tagged reliable suited found with turned | ⟨_, rests | waits⟩
  · exact turned
  · exact absurd rests ready.not_rests
  · exact absurd waits (ready.not_waits joint.sound)

/-- With an operation that waits for nobody a rank gets there on its own. -/
theorem alone (joint : Joint moves seen cluster chart) (inside : who < drill.plan.layout.depth)
    (ready : chart.Ready who) : ∃ turns shown next,
      drill.follow? cluster (List.replicate turns who) = some (shown, next) ∧
      next.executed drill.first who = cluster.executed drill.first who + 1 := by
  -- The turns that are left bound how long it takes.
  obtain ⟨fuel, enough⟩ : ∃ fuel, drill.rounds * chart.turns who ≤ moves.count who + fuel :=
    ⟨_, Nat.le_add_left _ _⟩
  induction fuel generalizing moves seen cluster chart with
  | zero =>
      obtain ⟨next, chart', moved, kept, course, _⟩ :=
        joint.turned_of_ready tagged reliable suited inside ready
      have bound := kept.count_le inside
      -- The turn just taken is one too many.
      have turns : chart'.turns who = chart.turns who := by
        unfold Chart.turns Chart.script
        rw [course]
      rw [List.count_append, List.count_singleton_self, turns] at bound
      omega
  | succ fuel ih =>
      obtain ⟨next, chart', moved, kept, course, outcome⟩ :=
        joint.turned_of_ready tagged reliable suited inside ready
      rcases outcome with ⟨performed, same⟩ | performed
      · have turns : chart'.turns who = chart.turns who := by
          unfold Chart.turns Chart.script
          rw [course]
        obtain ⟨count, shown, last, run, executed⟩ := ih kept (ready.unchanged course same) (by
          rw [List.count_append, List.count_singleton_self, turns]
          omega)
        refine ⟨count + 1, (drill.sighting? cluster who).toList ++ shown, last, ?_, ?_⟩
        · rw [List.replicate_succ, Drill.follow?, moved, Option.bind_some, run]
          rfl
        · rw [executed, kept.executed_eq inside, joint.executed_eq inside, performed]
      · refine ⟨1, (drill.sighting? cluster who).toList ++ [], next, ?_, ?_⟩
        · rw [List.replicate_one, Drill.follow?, moved, Option.bind_some]
          rfl
        · rw [kept.executed_eq inside, joint.executed_eq inside, performed]

end

/-- All turns together. -/
theorem length_le (joint : Joint moves seen cluster chart) : moves.length ≤
    drill.rounds * (drill.plan.ranks.map fun rankPlan =>
      3 * rankPlan.operations.length + 4).sum := by
  have scripts : (drill.plan.ranks.map fun rankPlan => 3 * rankPlan.operations.length + 4) =
      (List.range drill.plan.layout.depth).map chart.turns := by
    refine List.ext_getElem (by simp [joint.sound.scored.ranks]) fun who inside _ => ?_
    rw [List.length_map] at inside
    have script := joint.sound.scored.script who _ (List.getElem?_eq_getElem inside)
    simp only [List.getElem_map, List.getElem_range, Chart.turns, script]
    rfl
  have total : moves.length = ∑ who ∈ Finset.range drill.plan.layout.depth, moves.count who := by
    have sum := Multiset.sum_count_eq_card (s := Finset.range drill.plan.layout.depth)
      (m := (moves : Multiset Nat))
      (fun who member => Finset.mem_range.mpr (joint.known who member))
    simpa using sum.symm
  calc moves.length
      = ∑ who ∈ Finset.range drill.plan.layout.depth, moves.count who := total
    _ ≤ ∑ who ∈ Finset.range drill.plan.layout.depth, drill.rounds * chart.turns who :=
        Finset.sum_le_sum fun who member => joint.count_le (Finset.mem_range.mp member)
    _ = drill.rounds * ∑ who ∈ Finset.range drill.plan.layout.depth, chart.turns who :=
        (Finset.mul_sum ..).symm
    _ = drill.rounds * ((List.range drill.plan.layout.depth).map chart.turns).sum := rfl
    _ = _ := by rw [scripts]

theorem all_rest (tagged : drill.plan.layout.Tagged drill.plan.microbatches)
    (reliable : drill.callbacks.Reliable)
    (suited : ∀ who iteration, Suited drill.plan (drill.inputs who iteration))
    (joint : Joint moves seen cluster chart) (still : ∀ who, drill.move? cluster who = none)
    (inside : who < drill.plan.layout.depth) : Rests chart cluster who := by
  obtain ⟨member, found⟩ := joint.member_of_lt inside
  rcases joint.outlook tagged reliable suited found with ⟨next, _, moved, _⟩ | ⟨_, rests | waits⟩
  · rw [still who] at moved
    cases moved
  · exact rests
  · -- Whoever waits has something left to do, so somebody can go on.
    obtain ⟨ahead, peer, transfer, after, split, _⟩ := waits
    have begun := joint.sound.begun who
    have short : chart.done who (chart.spots who).iteration ≠ chart.script who := by
      rw [Chart.done_current begun, split]
      simp
    obtain ⟨rank, rankInside, ready⟩ := Chart.exists_ready joint.sound begun ahead short
    obtain ⟨next, _, moved, _⟩ := joint.turned_of_ready tagged reliable suited rankInside ready
    rw [still rank] at moved
    cases moved

/-- As long as any rank has operations left, some rank with operations left goes on. -/
theorem progress (tagged : drill.plan.layout.Tagged drill.plan.microbatches)
    (reliable : drill.callbacks.Reliable)
    (suited : ∀ who iteration, Suited drill.plan (drill.inputs who iteration))
    (joint : Joint moves seen cluster chart)
    (left : cluster.executed drill.first who < drill.assigned who) :
    ∃ who, cluster.executed drill.first who < drill.assigned who ∧
      ∃ turns shown next,
        drill.follow? cluster (List.replicate turns who) = some (shown, next) ∧
        next.executed drill.first who = cluster.executed drill.first who + 1 := by
  have inside : who < drill.plan.layout.depth := by
    by_contra outside
    have unknown : drill.plan.rankPlan? who = none :=
      List.getElem?_eq_none (by rw [joint.sound.scored.ranks]; omega)
    rw [Drill.assigned, unknown] at left
    simp at left
  rw [joint.executed_eq inside, joint.assigned_eq inside] at left
  obtain ⟨iteration, begun, ahead, short⟩ := Chart.exists_short joint.sound left
  -- The rank that goes on need not be the given one.
  obtain ⟨rank, rankInside, ready⟩ := Chart.exists_ready joint.sound begun ahead short
  refine ⟨rank, ?_, joint.alone tagged reliable suited rankInside ready⟩
  rw [joint.executed_eq rankInside, joint.assigned_eq rankInside]
  exact ready.left joint.sound

/-- A rank that rests has executed all it was assigned and was seen returning every time. -/
theorem rested (joint : Joint moves seen cluster chart) (rests : Rests chart cluster who)
    (inside : who < drill.plan.layout.depth) :
    cluster.executed drill.first who = drill.assigned who ∧
      (∃ member, cluster.members[who]? = some member ∧ member.activity = .idle) ∧
      ∀ iteration, drill.first ≤ iteration → iteration < drill.first + drill.rounds →
        ∃ report, ⟨who, iteration, .finish (.ok report)⟩ ∈ seen := by
  obtain ⟨last, member, found, idle⟩ := rests
  refine ⟨?_, ⟨member, found, idle⟩, fun iteration begun ahead => ?_⟩
  · obtain ⟨_, _, stands⟩ := joint.attended who member found
    rw [joint.executed_eq inside, joint.assigned_eq inside, Chart.performed, last]
    have empty : (chart.spots who).behind = [] := by
      cases stands with
      | idle activity counted empty spent => exact empty
      | clearing activity => rw [idle] at activity; cases activity
      | choosing activity => rw [idle] at activity; cases activity
      | poised activity => rw [idle] at activity; cases activity
      | waiting activity => rw [idle] at activity; cases activity
      | ended activity => rw [idle] at activity; cases activity
    rw [empty, Drill.goal, Nat.add_sub_cancel_left]
    rfl
  · exact joint.witnessed.reported who iteration inside begun (last ▸ ahead)

end Joint

namespace Drill

theorem joint_of_reached {blueprint : Blueprint} {members : List (Member σ α)} {limit : Duration}
    (ranks : 0 < blueprint.topology.depth) (built : blueprint.build = .ok drill.plan)
    (tagged : drill.plan.layout.Tagged drill.plan.microbatches)
    (reliable : drill.callbacks.Reliable)
    (suited : ∀ who iteration, Suited drill.plan (drill.inputs who iteration))
    (crew : drill.Crew members)
    (reached : drill.follow? (drill.start limit members) moves = some (seen, cluster)) :
    ∃ chart : Chart drill, Joint moves seen cluster chart := by
  obtain ⟨course, scored⟩ := Blueprint.scored_of_build ranks built
  obtain ⟨chart, joint, _⟩ :=
    (Joint.start scored crew limit).followed tagged reliable suited reached
  exact ⟨chart, joint⟩

/-- Built plans never deadlock, in whatever order the ranks take their turns. -/
theorem never_deadlocks {blueprint : Blueprint} {members : List (Member σ α)} {limit : Duration}
    (ranks : 0 < blueprint.topology.depth) (built : blueprint.build = .ok drill.plan)
    (tags : 2 * drill.plan.layout.depth * drill.plan.layout.chunks * drill.plan.microbatches ≤
      2 ^ 32)
    (reliable : drill.callbacks.Reliable)
    (suited : ∀ who iteration, Suited drill.plan (drill.inputs who iteration))
    (crew : drill.Crew members)
    (reached : drill.follow? (drill.start limit members) moves = some (seen, cluster)) :
    ((∃ who, cluster.executed drill.first who < drill.assigned who) →
      ∃ who, cluster.executed drill.first who < drill.assigned who ∧
        ∃ turns shown next,
          drill.follow? cluster (List.replicate turns who) = some (shown, next) ∧
          next.executed drill.first who = cluster.executed drill.first who + 1) ∧
    moves.length ≤ drill.rounds *
      (drill.plan.ranks.map fun rankPlan => 3 * rankPlan.operations.length + 4).sum ∧
    ((∀ who, drill.move? cluster who = none) → ∀ who, who < drill.plan.ranks.length →
      cluster.executed drill.first who = drill.assigned who ∧
        (∃ member, cluster.members[who]? = some member ∧ member.activity = .idle) ∧
        ∀ iteration, drill.first ≤ iteration → iteration < drill.first + drill.rounds →
          ∃ report, ⟨who, iteration, .finish (.ok report)⟩ ∈ seen) := by
  have tagged : drill.plan.layout.Tagged drill.plan.microbatches := by
    rw [Layout.Tagged, Layout.stageCount, ← Nat.mul_assoc]
    exact fun _ => tags
  obtain ⟨chart, joint⟩ := joint_of_reached ranks built tagged reliable suited crew reached
  refine ⟨?_, joint.length_le, ?_⟩
  · rintro ⟨who, left⟩
    exact joint.progress tagged reliable suited left
  · intro still who known
    have inside : who < drill.plan.layout.depth := by
      rw [← joint.sound.scored.ranks]
      exact known
    exact joint.rested (joint.all_rest tagged reliable suited still inside) inside

def twofold : Blueprint :=
  ⟨⟨2, 4, none⟩, 2, 3, 2, .interleaved, true, false, .uniform⟩

/-- Every pass appends the place of its stage, from one, to what it is handed. -/
def appending : Callbacks Unit (List Nat) where
  forward _ stage _ input := ((), .ok (input.getD [] ++ [stage.logical + 1]))
  backward _ stage _ gradient := ((), .ok (gradient.getD [] ++ [stage.logical + 1]))
  backwardWeights _ _ _ := ((), .ok ())
  optimize _ := ((), .ok (.make 0 0.0))
  snapshot _ := ((), .ok 0)
  restore _ _ := ((), .ok ())
  discard _ := ((), .ok ())
  gather _ _ entry := ((), .ok [entry])
  obstruct _ _ _ := ((), none)

theorem appending_reliable : appending.Reliable where
  forward _ _ _ _ := ⟨_, rfl⟩
  backward _ _ _ _ := ⟨_, rfl⟩
  backwardWeights _ _ _ := rfl
  optimize _ := ⟨_, rfl⟩
  clear _ _ _ := rfl

/-- Two iterations of the two ranks, the first of which supplies the micro-batches. -/
def exercise : Drill Unit (List Nat) where
  plan := match twofold.build with
    | .ok plan => plan
    | .error _ => ⟨⟨0, 0, 0, .interleaved⟩, 0, 0, false, false, [], ⟨0, [], []⟩⟩
  callbacks := appending
  inputs who _ := if who = 0 then some [[10], [20]] else none
  first := 5
  rounds := 2

theorem exercise_suited (who iteration : Nat) :
    Suited exercise.plan (exercise.inputs who iteration) := by
  intro given same
  by_cases lead : who = 0
  · simp only [exercise, if_pos lead, Option.some.injEq] at same
    subst same
    rfl
  · simp [exercise, lead] at same

def trainee (who : Nat) : Member Unit (List Nat) where
  replica := 0
  worker := {
    rank := who
    plan := exercise.plan
    operations := (exercise.plan.rankPlan? who).elim [] RankPlan.operations
    limiter := ⟨3, [0, 0], [0, 0]⟩
    validator := .disabled
    seat := ⟨0, 1⟩
    recorder := .make .disabled
    sink := .silent
    timeout := Worker.usualTimeout
    iteration := 5 }
  own := ()
  activity := .idle
  result := none

theorem exercise_crew : exercise.Crew [trainee 0, trainee 1] := by
  refine ⟨rfl, fun who member found => ?_⟩
  rcases who with _ | _ | who
  · obtain rfl := Option.some.inj found
    exact ⟨(), _, .disabled, .silent, Worker.usualTimeout, rfl, rfl⟩
  · obtain rfl := Option.some.inj found
    exact ⟨(), _, .disabled, .silent, Worker.usualTimeout, rfl, rfl⟩
  · simp at found

/-- What was seen of the exercise after some turns and how it stands, if the turns can be taken. -/
def exercised (moves : List Nat) : List (Sighting (List Nat)) × Cluster Unit (List Nat) :=
  let start := exercise.start .zero [trainee 0, trainee 1]
  (exercise.follow? start moves).getD ([], start)

theorem exercised_reached {moves : List Nat}
    (possible :
      (exercise.follow? (exercise.start .zero [trainee 0, trainee 1]) moves).isSome = true) :
    exercise.follow? (exercise.start .zero [trainee 0, trainee 1]) moves =
      some ((exercised moves).1, (exercised moves).2) := by
  obtain ⟨reached, known⟩ := Option.isSome_iff_exists.mp possible
  simp only [exercised, known, Option.getD_some]

/-- The second rank waits for its first activation, and some rank goes on. -/
theorem never_deadlocks_exercise :
    exercise.move? (exercised [1, 1, 1, 1]).2 1 = none ∧
    ∃ who, (exercised [1, 1, 1, 1]).2.executed 5 who < exercise.assigned who ∧
      ∃ turns shown next,
        exercise.follow? (exercised [1, 1, 1, 1]).2 (List.replicate turns who) =
          some (shown, next) ∧
        next.executed 5 who = (exercised [1, 1, 1, 1]).2.executed 5 who + 1 := by
  have built : twofold.build = .ok exercise.plan := rfl
  have left : (exercised [1, 1, 1, 1]).2.executed 5 0 < exercise.assigned 0 := by decide
  refine ⟨rfl, ?_⟩
  exact (never_deadlocks (by decide) built (by decide) appending_reliable exercise_suited
    exercise_crew (exercised_reached rfl)).1 ⟨0, left⟩

end Drill
end PipelineTraining
