import PipelineTraining.Proofs.Cluster.Waiting

/-!
A guarded step of many replicas is taken in lockstep. Nobody waits for ever, and all members
commit after the same number of attempts or diverge together.
-/

namespace PipelineTraining

open Course

variable {α : Type}

/-- What comes of a step, however its members take their turns. -/
structure Lockstep {plan : Plan} (roster : Roster α plan) (log : List (Event α))
    (scene : Scene α) : Prop where
  /-- As long as a member is at work, some member can go on. -/
  onward : ∀ who < roster.size, (scene.runs who).outcome? = none →
    ∃ event next, Concert roster (log ++ [event]) next
  /-- No member makes more turns than bound its run. -/
  bounded : ∀ who < roster.size, turnsBy who log ≤ (roster.run who).turnBound
  /-- All members that are over have ended alike. -/
  alike : ∃ finale : Finale, ∀ who < roster.size, ∀ result,
    (scene.runs who).outcome? = some result → ∀ {π : Type} (change : Nat → π → π)
      (parameters : Parameters π), finale.Ends change parameters (callsBy who log) result

variable {plan : Plan} {course : List (Nat × Operation)} {roster : Roster α plan}
  {log : List (Event α)} {scene : Scene α} {who : Nat}

/-- Members that all validate exactly take a step in lockstep, whatever their optimizers answer. -/
theorem Concert.lockstep [Nonempty α] {blueprint : Blueprint} (built : blueprint.build = .ok plan)
    (tags : 1 < plan.layout.depth →
      2 * plan.layout.depth * plan.layout.chunks * plan.microbatches ≤ 2 ^ 32)
    (suited : ∀ who < roster.size, Suited plan (roster.inputs who))
    (concert : Concert roster log scene) : Lockstep roster log scene := by
  have tagged : plan.layout.Tagged plan.microbatches := by
    rw [Layout.Tagged, Layout.stageCount, ← Nat.mul_assoc]
    exact tags
  by_cases ranks : 0 < blueprint.topology.depth
  · obtain ⟨course, scored⟩ := Blueprint.scored_of_build ranks built
    have attuned := concert.attuned built scored tagged suited
    refine ⟨fun who inside => concert.onward built scored attuned inside, fun who inside => ?_,
      attuned.alike scored⟩
    exact (Nat.le_add_right _ _).trans (attuned.plays who inside).spent
  · -- Replicas without ranks have no members.
    have nobody : ∀ who, ¬ who < roster.size := by
      intro who inside
      rw [Roster.size, Blueprint.rank_count_of_build built, Nat.eq_zero_of_not_pos ranks] at inside
      cases inside
    exact ⟨fun who inside => absurd inside (nobody who),
      fun who inside => absurd inside (nobody who),
      .diverged, fun who inside => absurd inside (nobody who)⟩

/-- The rank of a plan that a member has where members are counted replica by replica and, within
one, rank by rank, about to validate exactly. -/
def Plan.validating (plan : Plan) (iteration members who : Nat) : Worker where
  rank := who % plan.ranks.length
  plan := plan
  operations := (plan.rankPlan? (who % plan.ranks.length)).elim [] RankPlan.operations
  limiter :=
    ⟨plan.memoryLimit, .replicate plan.ranks.length 0, .replicate plan.ranks.length 0⟩
  validator := ⟨⟨true, true, 0.0⟩, who % plan.ranks.length, who / plan.ranks.length, some .mesh⟩
  seat := ⟨who, members⟩
  recorder := .make .disabled
  sink := .silent
  timeout := Worker.usualTimeout
  iteration := iteration

theorem Plan.recruit_validating {plan : Plan} {iteration members who : Nat}
    (ranks : 0 < plan.ranks.length) (limit : 0 < plan.memoryLimit)
    (validates : plan.validates = true) :
    Recruit plan iteration (who % plan.ranks.length) (plan.validating iteration members who) := by
  have inside : who % plan.ranks.length < plan.ranks.length := Nat.mod_lt _ ranks
  have found : plan.rankPlan? (who % plan.ranks.length) =
      some plan.ranks[who % plan.ranks.length] := List.getElem?_eq_getElem inside
  have made : Worker.make plan (who % plan.ranks.length) plan.ranks.length = .ok {
      plan.validating iteration members who with
      validator := .disabled
      seat := ⟨0, 1⟩
      iteration := 0 } := by
    simp [Worker.make, validating, found, Limiter.make, Nat.ne_of_gt limit, Except.map]
  refine ⟨_, { plan.validating iteration members who with iteration := 0 },
    (plan.validating iteration members who).validator, ⟨who, members⟩, .disabled, .silent,
    Worker.usualTimeout, made, ?_, rfl⟩
  rw [Worker.withValidator, if_neg (by simp [validating, validates])]
  rfl

def Roster.replicated (plan : Plan) (limit : 0 < plan.memoryLimit)
    (validates : plan.validates = true) (replicas iteration : Nat)
    (inputs : Nat → Option (List α)) : Roster α plan where
  replicas := replicas
  iteration := iteration
  replica who := who / plan.ranks.length
  worker := plan.validating iteration (replicas * plan.ranks.length)
  inputs := inputs
  member team rank := team * plan.ranks.length + rank
  recruited who inside :=
    Plan.recruit_validating (Nat.pos_of_mul_pos_left (Nat.zero_lt_of_lt inside)) limit validates
  enabled _ _ := rfl
  meshed _ _ := rfl
  exact _ _ := rfl
  seated _ _ := rfl
  distinct one _ other _ stages replicas := by
    rw [← Nat.div_add_mod one plan.ranks.length, ← Nat.div_add_mod other plan.ranks.length]
    exact congrArg₂ (fun row column => plan.ranks.length * row + column) replicas stages
  placed who inside :=
    ⟨Nat.div_lt_of_lt_mul (Nat.mul_comm .. ▸ inside), Nat.div_add_mod' ..⟩
  manned team team_lt rank rank_lt := by
    have ranks := Nat.zero_lt_of_lt rank_lt
    refine ⟨?_, ?_, ?_⟩
    · calc team * plan.ranks.length + rank < (team + 1) * plan.ranks.length := by
            rw [Nat.succ_mul]
            exact Nat.add_lt_add_left rank_lt _
        _ ≤ replicas * plan.ranks.length := Nat.mul_le_mul_right _ team_lt
    · rw [Nat.mul_comm, Nat.mul_add_div ranks, Nat.div_eq_of_lt rank_lt, Nat.add_zero]
    · exact (Nat.mul_add_mod_self_right ..).trans (Nat.mod_eq_of_lt rank_lt)

/-- Two replicas of a pipeline of two ranks with a stage each, and one micro-batch. -/
def duet : Blueprint :=
  ⟨⟨2, 2, none⟩, 1, 1, 1, .interleaved, false, true, .uniform⟩

def duetPlan : Plan :=
  match duet.build with
  | .ok plan => plan
  | .error _ => Run.soloPlan

def quartet : Roster Nat duetPlan :=
  .replicated duetPlan (by decide) rfl 2 4 fun _ => some [5]

theorem Concert.lockstep_quartet : ∃ log scene, Concert quartet log scene ∧
    (∀ who < 4, ∃ result, (scene.runs who).outcome? = some result) ∧
    Lockstep quartet log scene := by
  have built : duet.build = .ok duetPlan := rfl
  have tags : 1 < duetPlan.layout.depth →
      2 * duetPlan.layout.depth * duetPlan.layout.chunks * duetPlan.microbatches ≤ 2 ^ 32 := by
    decide
  have suited : ∀ who < quartet.size, Suited duetPlan (quartet.inputs who) := by
    rintro who - given ⟨⟩
    rfl
  have begins : Concert quartet [] quartet.opening := .start
  obtain ⟨course, scored⟩ := Blueprint.scored_of_build (by decide) built
  obtain ⟨log, scene, concert, all⟩ :=
    begins.completes built scored (fun _ => by decide) suited
  exact ⟨log, scene, concert, all, concert.lockstep built tags suited⟩

/-- Whoever fails in a step that is taken in lockstep has diverged. -/
theorem Lockstep.divergence {fault : Fault} (lockstep : Lockstep roster log scene)
    (inside : who < roster.size) (ended : (scene.runs who).outcome? = some (.error fault)) :
    ∃ own other, fault = .divergence own other 1 := by
  obtain ⟨finale, alike⟩ := lockstep.alike
  cases alike who inside _ ended (fun _ value => value) (⟨(), fun _ => none⟩ : Parameters Unit)
  exact ⟨_, _, rfl⟩

theorem Run.choose_untagged {run : Run α} {guard : Option Guard} {attempt : Attempt α}
    {peer : Nat} {transfer : Transfer} {rest : List Operation} {fault : Fault}
    (none : attempt.waiting = []) (first : attempt.remaining = .receive peer transfer :: rest)
    (refused : transfer.tag run.worker.plan.microbatches attempt.epoch = .error fault) :
    run.choose guard attempt = run.abort guard fault := by
  simp [choose, Attempt.choose, none, Attempt.pickWaiting, first, Attempt.isReady, take,
    startReceive, refused]

theorem Concert.untagged {peer : Nat} {transfer : Transfer} {rest : List Operation} {fault : Fault}
    (inside : who < roster.size) (free : roster.inputs who = none)
    (first : (roster.worker who).operations = .receive peer transfer :: rest)
    (refused : transfer.tag (roster.worker who).plan.microbatches
      (attemptEpoch (roster.worker who).iteration 0) = .error fault) :
    ∃ log scene, Concert roster log scene ∧ (scene.runs who).outcome? = some (.error fault) := by
  have begun : roster.opening.runs who = {
      worker := { roster.worker who with iteration := (roster.worker who).iteration + 1 }
      iteration := (roster.worker who).iteration
      inputs := none
      phase := .snapshotting } := by
    have enabled : (roster.worker who).validator.isEnabled = true := roster.enabled who inside
    simp only [Roster.opening, Roster.run, Run.ofStep, enabled, if_true, Run.ofIteration,
      Run.beginAttempt, Run.become, free]
  obtain ⟨_, _, taken, here⟩ :=
    Concert.start.answered inside begun rfl (.ok 0) rfl ⟨_, .none⟩ ⟨_, .none⟩
  obtain ⟨_, _, cleared, here⟩ := taken.answered inside here rfl () rfl ⟨_, .drop⟩ ⟨_, .none⟩
  obtain ⟨_, _, aborted, here⟩ := cleared.went inside here rfl
  rw [Run.choose_untagged rfl first refused] at here
  obtain ⟨_, _, restored, here⟩ :=
    aborted.answered inside here rfl (.ok ()) rfl ⟨_, .none⟩ ⟨_, .none⟩
  obtain ⟨_, _, ended, here⟩ :=
    restored.answered inside here rfl (.ok ()) rfl ⟨_, .none⟩ ⟨_, .none⟩
  exact ⟨_, _, ended, by rw [here]; rfl⟩

/-- A member on its own that is given no micro-batch where its plan has one. -/
def loner : Roster Nat Run.soloPlan :=
  .replicated Run.soloPlan (by decide) rfl 1 4 fun _ => some []

/-- Two ranks with more micro-batches than there are tags for. -/
def crowd : Blueprint :=
  ⟨⟨2, 2, none⟩, 2147483648, 1, 1, .interleaved, false, true, .uniform⟩

theorem loner_fails : ∃ log scene, Concert loner log scene ∧
    (scene.runs 0).outcome? = some (.error (.configuration (.inputCount 1 0))) := by
  have inside : 0 < loner.size := by decide
  have begins : Concert loner [] loner.opening := .start
  obtain ⟨_, _, taken, here⟩ := begins.answered inside rfl rfl (.ok 0) rfl ⟨_, .none⟩ ⟨_, .none⟩
  obtain ⟨_, _, restored, here⟩ :=
    taken.answered inside here rfl (.ok ()) rfl ⟨_, .none⟩ ⟨_, .none⟩
  obtain ⟨_, _, ended, here⟩ :=
    restored.answered inside here rfl (.ok ()) rfl ⟨_, .none⟩ ⟨_, .none⟩
  exact ⟨_, _, ended, by rw [here]; rfl⟩

theorem crowd_fails : ∃ plan limit validates, crowd.build = .ok plan ∧
    ∃ log scene cause,
      Concert (.replicated (α := Nat) plan limit validates 1 4 fun _ => none) log scene ∧
      (scene.runs 1).outcome? = some (.error (.configuration cause)) := by
  let layout : Layout := ⟨2, 1, 1, .interleaved⟩
  have laid : (Topology.mk 2 2 none).layout 1 .interleaved = .ok layout := rfl
  obtain ⟨timelines, built⟩ := crowd.exists_build (by decide) rfl rfl laid (by decide)
  obtain ⟨course, scored⟩ := Blueprint.scored_of_build (by decide) built
  let plan := crowd.assemble layout timelines
  let pair : Roster Nat plan := .replicated plan Nat.one_pos rfl 1 4 fun _ => none
  have ranks : plan.ranks.length = 2 := scored.ranks
  have inside : 1 < pair.size := by
    rw [Roster.size, ranks]
    exact Nat.one_lt_two
  have rank : pair.rank 1 = 1 := (congrArg (1 % ·) ranks).trans rfl
  obtain ⟨operation, rest, begins⟩ : ∃ operation rest, partOf 1 course = operation :: rest := by
    obtain ⟨body, closed⟩ := pair.sealed built scored inside (show 1 < layout.depth by decide)
    exact List.exists_cons_of_ne_nil (by simp [closed])
  have second : ∀ stage, layout.IsStage stage → layout.rankOf stage = 1 → stage.logical = 1 := by
    intro stage known owned
    have inside : stage.logical < 2 := known.inside
    have owned : stage.logical % 2 = 1 := owned
    omega
  have supplied := (scored.playable 1).supplied [] operation rest begins
  obtain ⟨way, source, stage, microbatch, known, owned, rfl⟩ :=
    supplied.receives (show 2147483648 * 1 ≠ 0 by decide) fun stage known owned =>
      (second stage known owned).symm ▸ Nat.one_ne_zero
  have beyond : 2 ^ 32 ≤ (stage.logical * 2147483648 + microbatch) * 2 := by
    rw [second stage known owned]
    omega
  obtain ⟨cause, refused⟩ :=
    (way.transfer source stage microbatch).tag_beyond _ (attemptEpoch 4 0) beyond
  obtain ⟨log, scene, concert, ended⟩ := Concert.untagged inside rfl
    (by rw [(pair.fitted scored inside).scripted, rank, begins]) refused
  exact ⟨plan, Nat.one_pos, rfl, built, log, scene, cause, concert, ended⟩

/-- Inputs that do not fit and payloads without tags end a step otherwise. -/
theorem Concert.not_lockstep :
    (∃ log scene, Concert loner log scene ∧
      (scene.runs 0).outcome? = some (.error (.configuration (.inputCount 1 0))) ∧
      ¬ Lockstep loner log scene) ∧
    ∃ plan limit validates, crowd.build = .ok plan ∧
      let pair : Roster Nat plan := .replicated plan limit validates 1 4 fun _ => none
      ∃ log scene cause, Concert pair log scene ∧
        (scene.runs 1).outcome? = some (.error (.configuration cause)) ∧
        ¬ Lockstep pair log scene := by
  constructor
  · obtain ⟨log, scene, concert, ended⟩ := loner_fails
    refine ⟨log, scene, concert, ended, fun lockstep => ?_⟩
    obtain ⟨_, _, same⟩ := lockstep.divergence (by decide) ended
    cases same
  · obtain ⟨plan, limit, validates, built, log, scene, cause, concert, ended⟩ := crowd_fails
    refine ⟨plan, limit, validates, built, log, scene, cause, concert, ended, fun lockstep => ?_⟩
    have inside : 1 < 1 * plan.ranks.length := by
      rw [Blueprint.rank_count_of_build built]
      decide
    obtain ⟨_, _, same⟩ := lockstep.divergence inside ended
    cases same

end PipelineTraining
