import PipelineTraining.Proofs.Clock.Punctuality
import PipelineTraining.Proofs.Plan.BuiltCourse

/-!
Building succeeds only with a finished clock, and then the plan follows the
course of that clock.
-/

namespace PipelineTraining

open Course Simulation

namespace Blueprint

variable {blueprint : Blueprint} {layout : Layout} {timelines : List (List TimedAction)}
  {log : List Commit} {state : Simulation}

theorem acted_sent (sound : layout.Sound) (history : History (blueprint.workload layout) log state)
    {before after : List (Nat × Operation)} {rank peer : Nat} {transfer : Transfer}
    (split : Plan.acted layout (taken log) = before ++ (rank, .receive peer transfer) :: after) :
    (peer, .send rank transfer) ∈ before := by
  obtain ⟨front, action, back, inner, rest, course, wrapped, rfl⟩ := Plan.acted_split split
  have fed := history.ordered sound front rank action back course
  have member : (rank, action) ∈ taken log := by simp [course]
  apply List.mem_append_left _
  rcases Way.action_cases action with ⟨way, stage, microbatch, rfl⟩ | ⟨pass, rfl⟩
  · obtain ⟨known, owned, _⟩ := history.placed_pass sound member
    rcases wrap_split wrapped with ⟨source, found, away, same⟩ | ⟨same, _⟩ | ⟨_, _, _, same, _⟩
    · obtain ⟨rfl, rfl⟩ := Operation.receive.inj same
      have back := way.target_of_source known found
      have sent := mem_wrap_send microbatch back (owned.trans_ne away.symm)
      rw [owned] at sent
      exact Plan.mem_acted (way.fed_source fed found) sent
    · cases way <;> cases same
    · cases same
  · cases (wrap_weights_split wrapped).1

theorem acted_supplied (sound : layout.Sound)
    (history : History (blueprint.workload layout) log state)
    {before after : List (Nat × Operation)} {rank : Nat} {operation : Operation}
    (split : Plan.acted layout (taken log) = before ++ (rank, operation) :: after) :
    Supplied (blueprint.assemble layout timelines) rank (partOf rank before) operation := by
  obtain ⟨front, action, back, inner, rest, course, wrapped, rfl⟩ := Plan.acted_split split
  have fed := history.ordered sound front rank action back course
  have member : (rank, action) ∈ taken log := by simp [course]
  rw [partOf_append, Plan.partOf_acted, Plan.partOf_map_self]
  -- Whatever was planned around an earlier action of the rank stands before.
  have earlier : ∀ {action operation}, (rank, action) ∈ front →
      operation ∈ wrap layout rank action →
      operation ∈ (partOf rank front).flatMap (wrap layout rank) ++ inner :=
    fun member wrapped => List.mem_append_left _
      (List.mem_flatMap.mpr ⟨_, mem_partOf.mpr member, wrapped⟩)
  rcases Way.action_cases action with ⟨way, stage, microbatch, rfl⟩ | ⟨⟨stage, microbatch⟩, rfl⟩
  · obtain ⟨known, owned, inside⟩ := history.placed_pass sound member
    rcases wrap_split wrapped with ⟨source, found, away, rfl⟩ | ⟨rfl, rfl⟩ |
      ⟨target, found, away, rfl, passed⟩
    · exact .receive way source stage microbatch known owned inside found away
    · refine .pass way stage microbatch known owned inside ?_ ?_ ?_
      · intro source found
        -- The source is a pass of the rank itself, or its result was received just before.
        by_cases here : layout.rankOf source = rank
        · have passed : (layout.rankOf source, _) ∈ front := way.fed_source fed found
          rw [here] at passed
          have inflow : way.inflow layout rank source stage microbatch =
              way.pass source microbatch := if_pos here
          exact inflow ▸ earlier passed (mem_wrap_pass way source microbatch)
        · have inflow : way.inflow layout rank source stage microbatch = .receive _ _ := if_neg here
          change way.inflow layout rank source stage microbatch ∈ _
          rw [inflow]
          apply List.mem_append_right _
          change way.source layout stage = some source at found
          simp [receiveFrom, found, here]
      · rintro rfl
        have room := history.admitted sound course
        have none : ∀ way : Way, (receiveFrom layout rank (Way.forward.source layout stage)
            (Way.forward.transfer · stage microbatch)).filterMap way.key? = [] :=
          fun way => Plan.receiveFrom_keys (by cases way <;> exact fun _ _ => rfl) _ _
        rw [List.filterMap_append, List.filterMap_append, Plan.pass_keys, Plan.pass_keys, none,
          none, List.append_nil, List.append_nil, List.length_map, List.length_map]
        exact room
      · rintro rfl
        exact earlier (history.own_forward sound course) (mem_wrap_pass .forward stage microbatch)
    · exact .send way stage target microbatch known owned inside found away
        (List.mem_append_right _ passed)
  · obtain ⟨rfl, rfl⟩ := wrap_weights_split wrapped
    -- A weight pass follows its backward.
    have done : (rank, .backward (stage, microbatch)) ∈ front := fed
    have listed : (rank, Way.backward.action (stage, microbatch)) ∈ taken log := by
      rw [course]
      exact List.mem_append_left _ done
    obtain ⟨known, owned, inside⟩ := history.placed_pass sound listed
    exact .weights stage microbatch known owned inside
      (earlier done (mem_wrap_pass .backward stage microbatch)) (history.split_of_weights member)

theorem closing_split {validates : Bool} {depth rank : Nat} {operation : Operation}
    {before after : List (Nat × Operation)}
    (split : Plan.ended validates depth = before ++ (rank, operation) :: after) :
    operation = .optimizerStep ∨
      operation = .validationSync ∧ .optimizerStep ∈ partOf rank before := by
  obtain ⟨front, owner, back, inner, rest, _, closed, rfl⟩ := Plan.flatMap_split split
  obtain ⟨inner, tail, whole, rfl, others⟩ := List.map_eq_append_iff.mp closed
  obtain ⟨operation, rest, rfl, same, _⟩ := List.map_eq_cons_iff.mp others
  obtain ⟨rfl, rfl⟩ := Prod.mk.inj same
  rw [partOf_append, Plan.partOf_map_self]
  cases inner with
  | nil =>
      cases validates <;> exact Or.inl (List.cons.inj whole).1.symm
  | cons first inner =>
      cases validates with
      | false => simp [Plan.closing] at whole
      | true =>
          obtain ⟨rfl, later⟩ := List.cons.inj whole
          cases inner with
          | cons second inner => simp at later
          | nil =>
              obtain ⟨rfl, _⟩ := List.cons.inj later
              exact Or.inr ⟨rfl, by simp⟩

theorem ended_keys {κ : Type} {key : Operation → Option κ} {validates : Bool} {depth rank : Nat}
    {before after : List (Nat × Operation)} (split : Plan.ended validates depth = before ++ after)
    (unlisted : ∀ operation ∈ Plan.closing validates, key operation = none) :
    (partOf rank before).filterMap key = [] := by
  refine List.filterMap_eq_nil_iff.mpr fun operation member => unlisted operation ?_
  have listed : (rank, operation) ∈ Plan.ended validates depth := by
    rw [split]
    exact List.mem_append_left _ (mem_partOf.mp member)
  simp only [Plan.ended, List.mem_flatMap, List.mem_map, Prod.mk.injEq] at listed
  obtain ⟨_, _, _, closing, _, rfl⟩ := listed
  exact closing

theorem ended_supplied (history : History (blueprint.workload layout) log state)
    (done : state.done = true) {before after : List (Nat × Operation)} {rank : Nat}
    {operation : Operation} (inside : rank < layout.depth)
    (split : Plan.ended blueprint.validates layout.depth =
      before ++ (rank, operation) :: after) :
    Supplied (blueprint.assemble layout timelines) rank
      (partOf rank (Plan.acted layout (taken log) ++ before)) operation := by
  obtain ⟨forwards, backwards, weights⟩ := history.finished done inside
  have closes : ∀ operation ∈ Plan.closing blueprint.validates,
      operation = .optimizerStep ∨ operation = .validationSync := by
    unfold Plan.closing
    split <;> simp
  rw [partOf_append, Plan.partOf_acted]
  rcases closing_split split with rfl | ⟨rfl, stepped⟩
  · refine .optimizer (fun way => ?_) fun splits => ?_
    · rw [List.filterMap_append, Plan.pass_keys, ended_keys split, List.append_nil,
        List.length_map]
      · cases way with
        | forward => exact (congrArg List.length forwards).trans (WorkOrder.forward_length _ _ _)
        | backward => exact (congrArg List.length backwards).trans (WorkOrder.backward_length _ _ _)
      · intro operation member
        rcases closes operation member with rfl | rfl <;> cases way <;> rfl
    · rw [List.filterMap_append, Plan.weight_keys, ended_keys split, List.append_nil,
        List.length_map]
      · have committed : (blueprint.workload layout).split = true := splits
        rw [if_pos committed] at weights
        exact (congrArg List.length weights).trans (WorkOrder.backward_length _ _ _)
      · intro operation member
        rcases closes operation member with rfl | rfl <;> rfl
  · exact .sync (List.mem_append_right _ stepped)

theorem score_split {validates : Bool} {course : List (Nat × Action)}
    {before after : List (Nat × Operation)} {entry : Nat × Operation}
    (split : Plan.score validates layout course = before ++ entry :: after) :
    (∃ rest, Plan.acted layout course = before ++ entry :: rest) ∨
      ∃ front, before = Plan.acted layout course ++ front ∧
        Plan.ended validates layout.depth = front ++ entry :: after := by
  rcases List.append_eq_append_iff.mp split with ⟨front, same, ended⟩ | ⟨rest, acted, later⟩
  · exact Or.inr ⟨front, same, ended⟩
  · cases rest with
    | nil =>
        rw [List.append_nil] at acted
        exact Or.inr ⟨[], by rw [acted, List.append_nil], later.symm⟩
    | cons first rest =>
        obtain ⟨rfl, _⟩ := List.cons.inj later
        exact Or.inl ⟨rest, acted⟩

theorem score_inside (history : History (blueprint.workload layout) log state) {validates : Bool}
    {rank : Nat} {operation : Operation}
    (member : (rank, operation) ∈ Plan.score validates layout (taken log)) :
    rank < layout.depth := by
  rcases List.mem_append.mp member with acting | closing
  · obtain ⟨entry, listed, tagged⟩ := List.mem_flatMap.mp acting
    obtain ⟨_, _, same⟩ := List.mem_map.mp tagged
    obtain ⟨rfl, _⟩ := Prod.mk.inj same
    exact history.rank_lt listed
  · exact (Plan.mem_ended.mp closing).1

theorem taken_pass (sound : layout.Sound) (history : History (blueprint.workload layout) log state)
    (done : state.done = true) (way : Way) {stage : StageId} {microbatch : Nat}
    (known : layout.IsStage stage) (inside : microbatch < blueprint.microbatches) :
    (layout.rankOf stage, way.action (stage, microbatch)) ∈ taken log := by
  obtain ⟨forwards, backwards, _⟩ := history.finished done (known.rank_lt sound)
  have named := congrArg (·, microbatch) (known.stage_rank_chunk sound).symm
  have held := known.chunk_lt sound
  cases way with
  | forward =>
      apply mem_forwards.mp
      rw [forwards]
      exact WorkOrder.mem_forward.mpr ⟨_, held, _, inside, named⟩
  | backward =>
      apply mem_backwards.mp
      rw [backwards]
      exact WorkOrder.mem_backward.mpr ⟨_, held, _, inside, named⟩

theorem taken_weights (sound : layout.Sound)
    (history : History (blueprint.workload layout) log state) (done : state.done = true)
    (split : blueprint.split = true) {stage : StageId} {microbatch : Nat}
    (known : layout.IsStage stage) (inside : microbatch < blueprint.microbatches) :
    (layout.rankOf stage, .weights (stage, microbatch)) ∈ taken log := by
  obtain ⟨_, backwards, weights⟩ := history.finished done (known.rank_lt sound)
  have committed : (blueprint.workload layout).split = true := split
  rw [if_pos committed] at weights
  apply mem_weights.mp
  rw [weights, ← backwards]
  exact mem_backwards.mpr (taken_pass sound history done .backward known inside)

theorem build_ok {plan : Plan} (built : blueprint.build = .ok plan) :
    0 < blueprint.microbatches ∧ 0 < blueprint.memoryLimit ∧ ∃ layout timelines,
      blueprint.topology.layout blueprint.chunks blueprint.placement = .ok layout ∧
      (blueprint.workload layout).simulate = .ok timelines ∧
      plan = blueprint.assemble layout timelines := by
  simp only [build, bind_eq_ok] at built
  obtain ⟨_, counted, _, _, layout, laid, timelines, timed, _, _, rest⟩ := built
  have same : plan = blueprint.assemble layout timelines := (Except.ok.inj rest).symm
  unfold checkCounts at counted
  split at counted
  · cases counted
  · split at counted
    · cases counted
    · exact ⟨by omega, by omega, layout, timelines, laid, timed, same⟩

theorem assemble_script {rank : Nat} {rankPlan : RankPlan}
    (history : History (blueprint.workload layout) log state)
    (found : (blueprint.assemble layout state.timetable).rankPlan? rank = some rankPlan) :
    rankPlan.operations = partOf rank (Plan.score blueprint.validates layout (taken log)) := by
  simp only [Plan.rankPlan?, assemble, timetable, List.getElem?_mapIdx, List.getElem?_map,
    Option.map_eq_some_iff] at found
  obtain ⟨_, ⟨clock, present, rfl⟩, rfl⟩ := found
  have inside : rank < layout.depth := history.inside present
  rw [Plan.partOf_score _ _ inside, ← (history.tracked present).timeline, List.flatMap_map]
  rfl

/-- The course is the log of the clock, with what was planned around every action. -/
theorem scored_of_history (sound : layout.Sound) (busy : 0 < blueprint.microbatches)
    (limit : 0 < blueprint.memoryLimit) (history : History (blueprint.workload layout) log state)
    (done : state.done = true) :
    Scored (blueprint.assemble layout state.timetable)
      (Plan.score blueprint.validates layout (taken log)) := by
  constructor
  · exact sound
  · exact busy
  · exact limit
  · simp only [assemble, timetable, List.length_mapIdx, List.length_map]
    exact history.rank_count
  · exact fun rank rankPlan found => assemble_script history found
  · exact Plan.score_nodup _ history.nodup
  · exact fun rank operation member => score_inside history member
  · intro before rank operation after split
    rcases score_split split with ⟨rest, acting⟩ | ⟨front, rfl, closing⟩
    · exact acted_supplied sound history acting
    · refine ended_supplied history done ?_ closing
      exact score_inside history (split ▸ List.mem_append_right _ List.mem_cons_self)
  · intro before rank peer transfer after split
    rcases score_split split with ⟨rest, acting⟩ | ⟨front, rfl, closing⟩
    · exact acted_sent sound history acting
    · rcases closing_split closing with same | ⟨same, _⟩ <;> cases same
  · intro way stage microbatch known inside
    exact List.mem_append_left _ (Plan.mem_acted
      (taken_pass sound history done way known inside) (mem_wrap_pass way stage microbatch))
  · intro split stage microbatch known inside
    exact List.mem_append_left _ (Plan.mem_acted
      (taken_weights sound history done split known inside) (List.mem_singleton_self _))

theorem scored_of_build {plan : Plan} (ranks : 0 < blueprint.topology.depth)
    (built : blueprint.build = .ok plan) : ∃ course, Scored plan course := by
  obtain ⟨busy, limit, layout, timelines, laid, timed, rfl⟩ := build_ok built
  obtain ⟨sound, _⟩ := Topology.layout_ok ranks laid
  obtain ⟨log, final, history, done, rfl⟩ := (blueprint.workload layout).simulated timed
  exact ⟨_, scored_of_history sound busy limit history done⟩

end Blueprint
end PipelineTraining
