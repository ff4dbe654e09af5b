import Mathlib.Tactic.Choose
import PipelineTraining.Proofs.Cluster.Calls

/-!
Running a plan computes the sequential composition of its stages: every stage is
handed what the stage before returned, all the way down, and the gradients take the
same way back.
-/

namespace PipelineTraining

variable {σ α : Type} {drill : Drill σ α} {chart : Chart drill} {moves : List Nat}
  {seen : List (Sighting α)} {cluster : Cluster σ α} {who iteration : Nat} {way : Way}

structure Composed (drill : Drill σ α) (seen : List (Sighting α)) (iteration : Nat)
    (output gradient : Nat → Nat → α) : Prop where
  forwards : ∀ stage microbatch, stage < drill.plan.layout.stageCount →
    microbatch < drill.plan.microbatches →
    seen.filter (·.isCall iteration (.forward (drill.plan.layout.stageAt stage) microbatch)) =
      [⟨drill.plan.layout.rankOf (drill.plan.layout.stageAt stage), iteration,
        .forward (drill.plan.layout.stageAt stage) microbatch
          (if stage = 0 then given (drill.inputs 0 iteration) microbatch
          else some (output (stage - 1) microbatch))
          (.ok (output stage microbatch))⟩]
  backwards : ∀ stage microbatch, stage < drill.plan.layout.stageCount →
    microbatch < drill.plan.microbatches →
    seen.filter (·.isCall iteration (.backward (drill.plan.layout.stageAt stage) microbatch)) =
      [⟨drill.plan.layout.rankOf (drill.plan.layout.stageAt stage), iteration,
        .backward (drill.plan.layout.stageAt stage) microbatch
          (if stage + 1 = drill.plan.layout.stageCount then none
          else some (gradient (stage + 1) microbatch))
          (.ok (gradient stage microbatch))⟩]
  weights : ∀ stage microbatch, stage < drill.plan.layout.stageCount →
    microbatch < drill.plan.microbatches →
    (seen.filter (·.isCall iteration
      (.backwardWeights (drill.plan.layout.stageAt stage) microbatch))).length =
        if drill.plan.split then 1 else 0
  weightsLater : ∀ before who stage microbatch answer after,
    seen = before ++ ⟨who, iteration, .backwardWeights stage microbatch answer⟩ :: after →
    who = drill.plan.layout.rankOf stage ∧ ∃ given returned,
      ⟨who, iteration, .backward stage microbatch given returned⟩ ∈ before
  nothingElse : ∀ sighting ∈ seen, ∀ operation, sighting.isCall iteration operation = true →
    ∃ stage microbatch, stage < drill.plan.layout.stageCount ∧
      microbatch < drill.plan.microbatches ∧
      operation ∈ [.forward (drill.plan.layout.stageAt stage) microbatch,
        .backward (drill.plan.layout.stageAt stage) microbatch,
        .backwardWeights (drill.plan.layout.stageAt stage) microbatch]
  results : ∀ who result, ⟨who, iteration, .finish result⟩ ∈ seen → ∃ report, result = .ok report ∧
    (who = drill.plan.layout.rankOf (drill.plan.layout.stageAt (drill.plan.layout.stageCount - 1)) →
      report.result.outputs.Perm ((List.range drill.plan.microbatches).map fun microbatch =>
        (microbatch, output (drill.plan.layout.stageCount - 1) microbatch))) ∧
    (who = drill.plan.layout.rankOf (drill.plan.layout.stageAt 0) →
      report.result.inputGradients.Perm ((List.range drill.plan.microbatches).map fun microbatch =>
        (microbatch, gradient 0 microbatch)))

def handed (drill : Drill σ α) (iteration : Nat) (value : Way → Nat → Nat → α) (way : Way)
    (stage microbatch : Nat) : Option α :=
  match way.source drill.plan.layout (drill.plan.layout.stageAt stage) with
  | some source => some (value way source.logical microbatch)
  | none =>
      match way with
      | .forward => given (drill.inputs 0 iteration) microbatch
      | .backward => none

theorem handed_forward (value : Way → Nat → Nat → α) (stage microbatch : Nat) :
    handed drill iteration value .forward stage microbatch =
      if stage = 0 then given (drill.inputs 0 iteration) microbatch
      else some (value .forward (stage - 1) microbatch) := by
  by_cases first : stage = 0
  · have source : Way.forward.source drill.plan.layout (drill.plan.layout.stageAt stage) = none :=
      Layout.prev_eq_none.mpr first
    simp only [handed, source, if_pos first]
  · have source : Way.forward.source drill.plan.layout (drill.plan.layout.stageAt stage) =
        some (drill.plan.layout.stageAt (stage - 1)) :=
      Layout.prev_eq_some.mpr ⟨first, rfl⟩
    simp only [handed, source, if_neg first]
    rfl

theorem handed_backward (value : Way → Nat → Nat → α) (stage microbatch : Nat) :
    handed drill iteration value .backward stage microbatch =
      if stage + 1 = drill.plan.layout.stageCount then none
      else some (value .backward (stage + 1) microbatch) := by
  by_cases last : stage + 1 = drill.plan.layout.stageCount
  · have source : Way.backward.source drill.plan.layout (drill.plan.layout.stageAt stage) = none :=
      Layout.next_eq_none.mpr last
    simp only [handed, source, if_pos last]
  · have source : Way.backward.source drill.plan.layout (drill.plan.layout.stageAt stage) =
        some (drill.plan.layout.stageAt (stage + 1)) :=
      Layout.next_eq_some.mpr ⟨last, rfl⟩
    simp only [handed, source, if_neg last]
    rfl

theorem Layout.rankOf_stageAt_zero {layout : Layout} (sound : layout.Sound) :
    layout.rankOf (layout.stageAt 0) = 0 := by
  have ranks := sound.ranks
  unfold Layout.rankOf
  cases layout.placement with
  | interleaved => exact Nat.zero_mod _
  | vShape => exact if_pos ranks

theorem Way.last_unique {layout : Layout} {stage other : StageId} (known : layout.IsStage stage)
    (otherKnown : layout.IsStage other) (ends : way.target layout stage = none)
    (otherEnds : way.target layout other = none) : stage = other := by
  apply known.eq_of_logical otherKnown
  cases way with
  | forward =>
      have last := Layout.next_eq_none.mp ends
      have otherLast := Layout.next_eq_none.mp otherEnds
      omega
  | backward => exact (Layout.prev_eq_none.mp ends).trans (Layout.prev_eq_none.mp otherEnds).symm

theorem Operation.leaves?_eq_some {layout : Layout} {operation : Operation} {microbatch : Nat}
    (leaves : operation.leaves? layout way = some microbatch) :
    ∃ stage, operation = way.pass stage microbatch ∧ way.target layout stage = none := by
  have last : ∀ other stage micro, operation = Way.pass other stage micro →
      ∃ stage, operation = way.pass stage microbatch ∧ way.target layout stage = none := by
    rintro other stage micro rfl
    obtain ⟨rfl, ends, rfl⟩ := Operation.leaves?_pass leaves
    exact ⟨stage, rfl, ends⟩
  cases operation with
  | forward stage micro => exact last .forward stage micro rfl
  | backward stage micro => exact last .backward stage micro rfl
  | backwardWeights | send | receive | optimizerStep | validationSync => cases way <;> cases leaves

theorem Playable.leaving_perm {plan : Plan} {script : List Operation}
    (playable : Playable plan who script) {last : StageId} (known : plan.layout.IsStage last)
    (ends : way.target plan.layout last = none)
    (all : ∀ microbatch, microbatch < plan.microbatches → way.pass last microbatch ∈ script) :
    (script.filterMap (Operation.leaves? plan.layout way)).Perm (List.range plan.microbatches) := by
  have leaving : ∀ {operation microbatch}, operation ∈ script →
      operation.leaves? plan.layout way = some microbatch →
        operation = way.pass last microbatch := by
    intro operation microbatch listed leaves
    obtain ⟨stage, rfl, stageEnds⟩ := Operation.leaves?_eq_some leaves
    rw [Way.last_unique (playable.known_pass listed).1 known stageEnds ends]
  have noDup : (script.filterMap (Operation.leaves? plan.layout way)).Nodup := by
    refine List.pairwise_filterMap.mpr (playable.noDup.imp_of_mem ?_)
    intro first second firstListed secondListed different microbatch one another other same
    subst same
    exact different ((leaving firstListed one).trans (leaving secondListed other).symm)
  refine (List.perm_ext_iff_of_nodup noDup List.nodup_range).mpr fun microbatch => ?_
  rw [List.mem_filterMap, List.mem_range]
  constructor
  · rintro ⟨operation, listed, leaves⟩
    obtain rfl := leaving listed leaves
    exact (playable.known_pass listed).2.2
  · intro inside
    refine ⟨_, all microbatch inside, ?_⟩
    have passing : way.leaves? plan.layout last microbatch = some microbatch := by
      simp only [Way.leaves?, ends]
    cases way with
    | forward => exact passing
    | backward => exact passing

/-- What an iteration yields at the end of a way: each micro-batch once, with what the last stage
returned. -/
theorem Yielded.perm {task : Task α} {products : List (Nat × α)} {value : Nat → α}
    (playable : Playable task.plan task.rank task.script) {last : StageId}
    (known : task.plan.layout.IsStage last) (ends : way.target task.plan.layout last = none)
    (all : ∀ microbatch, microbatch < task.plan.microbatches →
      way.pass last microbatch ∈ task.script)
    (yielded : Yielded task seen way task.script products)
    (values : ∀ microbatch result,
      Returned task.plan.layout seen task.iteration way last microbatch result →
      result = value microbatch) :
    products.Perm ((List.range task.plan.microbatches).map fun microbatch =>
      (microbatch, value microbatch)) := by
  have named : products = (products.map Prod.fst).map fun microbatch =>
      (microbatch, value microbatch) := by
    rw [List.map_map]
    refine (List.map_id _).symm.trans (List.map_congr_left ?_)
    rintro ⟨microbatch, result⟩ member
    obtain ⟨stage, stageKnown, stageEnds, returned⟩ := yielded.returned microbatch result member
    obtain rfl := Way.last_unique stageKnown known stageEnds ends
    rw [values microbatch result returned]
    rfl
  rw [named, yielded.listed]
  exact (playable.leaving_perm known ends all).map _

namespace Closed

theorem returned_eq {stage : StageId} {microbatch : Nat}
    {input : Option α} {value result : α}
    (once : seen.filter (·.isCall iteration (way.pass stage microbatch)) =
      [⟨drill.plan.layout.rankOf stage, iteration, way.deed stage microbatch input (.ok value)⟩])
    (returned : Returned drill.plan.layout seen iteration way stage microbatch result) :
    result = value := by
  obtain ⟨other, member⟩ := returned
  have kept := List.mem_filter.mpr
    ⟨member, Sighting.isCall_iff.mpr ⟨rfl, way.operation?_deed stage microbatch other (.ok result)⟩⟩
  rw [once] at kept
  exact Way.deed_inj (Sighting.mk.inj (List.mem_singleton.mp kept)).2.2

theorem inside_of_returned (closed : Closed chart seen iteration) {stage : StageId}
    {microbatch : Nat} {result : α}
    (returned : Returned drill.plan.layout seen iteration way stage microbatch result) :
    microbatch < drill.plan.microbatches := by
  obtain ⟨other, member⟩ := returned
  have listed := closed.listed_of_call member (Sighting.isCall_iff.mpr
    ⟨rfl, way.operation?_deed stage microbatch other (.ok result)⟩)
  exact ((closed.sound.scored.playable _).known_pass listed).2.2

theorem compute_cases (closed : Closed chart seen iteration) {operation : Operation}
    (listed : operation ∈ chart.script who) (compute : operation.isCompute = true) :
    ∃ stage microbatch, drill.plan.layout.IsStage stage ∧ drill.plan.layout.rankOf stage = who ∧
      microbatch < drill.plan.microbatches ∧
      (operation = .forward stage microbatch ∨ operation = .backward stage microbatch ∨
        drill.plan.split = true ∧ operation = .backwardWeights stage microbatch) := by
  obtain ⟨before, supplied⟩ := (closed.sound.scored.playable who).supplied_of_mem listed
  cases supplied with
  | pass way stage microbatch known owned inside =>
      refine ⟨stage, microbatch, known, owned, inside, ?_⟩
      cases way with
      | forward => exact Or.inl rfl
      | backward => exact Or.inr (Or.inl rfl)
  | weights stage microbatch known owned inside fed split =>
      exact ⟨stage, microbatch, known, owned, inside, Or.inr (Or.inr ⟨split, rfl⟩)⟩
  | send | receive | optimizer | sync => cases compute

theorem weights_once (closed : Closed chart seen iteration) {stage : StageId} {microbatch : Nat}
    (known : drill.plan.layout.IsStage stage) (inside : microbatch < drill.plan.microbatches) :
    (seen.filter (·.isCall iteration (.backwardWeights stage microbatch))).length =
      if drill.plan.split then 1 else 0 := by
  by_cases split : drill.plan.split = true
  · rw [if_pos split]
    have listed : .backwardWeights stage microbatch ∈
        chart.script (drill.plan.layout.rankOf stage) :=
      Course.mem_partOf.mpr (closed.sound.scored.weights split stage microbatch known inside)
    obtain ⟨deed, _, once⟩ := closed.call listed rfl fun other member => by
      obtain ⟨another, micro, _, owned, _, same⟩ := closed.compute_cases member rfl
      rcases same with same | same | ⟨_, same⟩
      · cases same
      · cases same
      · obtain ⟨rfl, _⟩ := Operation.backwardWeights.inj same
        exact owned.symm
    rw [once, List.length_singleton]
  · rw [if_neg split, List.length_eq_zero_iff, List.filter_eq_nil_iff]
    intro sighting member called
    have listed := closed.listed_of_call member called
    obtain ⟨another, micro, _, _, _, same⟩ := closed.compute_cases listed rfl
    rcases same with same | same | ⟨splits, _⟩
    · cases same
    · cases same
    · exact split splits

theorem weights_later (closed : Closed chart seen iteration) {before after : List (Sighting α)}
    {stage : StageId} {microbatch : Nat} {answer : Except String Unit}
    (split : seen = before ++ ⟨who, iteration, .backwardWeights stage microbatch answer⟩ :: after) :
    who = drill.plan.layout.rankOf stage ∧ ∃ given returned,
      ⟨who, iteration, .backward stage microbatch given returned⟩ ∈ before := by
  have call := closed.witnessed.ordered before who iteration stage microbatch answer after split
  obtain ⟨⟨caller, during, deed⟩, member, key⟩ := List.mem_filterMap.mp call
  obtain ⟨rfl, rfl, shown⟩ : caller = who ∧ during = iteration ∧
      deed.operation? = some (.backward stage microbatch) :=
    Sighting.call?_eq_some.mp key
  obtain ⟨handed, returned, rfl⟩ := Way.backward.deed_of_operation? shown
  have listed : Way.backward.pass stage microbatch ∈ chart.script caller :=
    closed.listed_of_call (split ▸ List.mem_append_left _ member)
      (Sighting.isCall_iff.mpr ⟨rfl, shown⟩)
  exact ⟨((closed.sound.scored.playable caller).known_pass listed).2.1.symm, handed, returned,
    member⟩

theorem placed_call (closed : Closed chart seen iteration) {sighting : Sighting α}
    (member : sighting ∈ seen) {operation : Operation}
    (called : sighting.isCall iteration operation = true) :
    ∃ stage microbatch, stage < drill.plan.layout.stageCount ∧
      microbatch < drill.plan.microbatches ∧
      operation ∈ [.forward (drill.plan.layout.stageAt stage) microbatch,
        .backward (drill.plan.layout.stageAt stage) microbatch,
        .backwardWeights (drill.plan.layout.stageAt stage) microbatch] := by
  have listed := closed.listed_of_call member called
  have compute : operation.isCompute = true :=
    Deed.operation?_isCompute (Sighting.isCall_iff.mp called).2
  obtain ⟨stage, microbatch, isStage, _, within, same⟩ := closed.compute_cases listed compute
  refine ⟨stage.logical, microbatch, isStage.inside, within, ?_⟩
  rw [isStage.named]
  rcases same with rfl | rfl | ⟨_, rfl⟩ <;> simp

/-- Every pass has one value, and every pass is handed the value of its source. -/
theorem values (closed : Closed chart seen iteration) : ∃ value : Way → Nat → Nat → α,
    (∀ (way : Way) stage microbatch, stage < drill.plan.layout.stageCount →
      microbatch < drill.plan.microbatches →
      seen.filter (·.isCall iteration (way.pass (drill.plan.layout.stageAt stage) microbatch)) =
        [⟨drill.plan.layout.rankOf (drill.plan.layout.stageAt stage), iteration,
          way.deed (drill.plan.layout.stageAt stage) microbatch
            (handed drill iteration value way stage microbatch)
            (.ok (value way stage microbatch))⟩]) ∧
    ∀ (way : Way) stage microbatch result, stage < drill.plan.layout.stageCount →
      Returned drill.plan.layout seen iteration way (drill.plan.layout.stageAt stage) microbatch
        result → result = value way stage microbatch := by
  have sound := closed.sound.scored.sound
  have known : ∀ stage, stage < drill.plan.layout.stageCount →
      drill.plan.layout.IsStage (drill.plan.layout.stageAt stage) :=
    fun stage inside => Layout.isStage_stageAt inside
  -- Some pass has returned something, so there are values to choose from.
  obtain ⟨_, sample, _⟩ := closed.pass .forward (known 0 (Layout.stageCount_pos sound))
    closed.sound.scored.busy
  have inhabited : Nonempty α := ⟨sample⟩
  have passes : ∀ (way : Way) stage microbatch, stage < drill.plan.layout.stageCount →
      microbatch < drill.plan.microbatches → ∃ input value,
        seen.filter (·.isCall iteration
            (way.pass (drill.plan.layout.stageAt stage) microbatch)) =
          [⟨drill.plan.layout.rankOf (drill.plan.layout.stageAt stage), iteration,
            way.deed (drill.plan.layout.stageAt stage) microbatch input (.ok value)⟩] ∧
        Fitting drill.plan.layout seen iteration
          (drill.inputs (drill.plan.layout.rankOf (drill.plan.layout.stageAt stage)) iteration) way
          (drill.plan.layout.stageAt stage) microbatch input :=
    fun way stage microbatch inside within => closed.pass way (known stage inside) within
  choose! input value once fitting using passes
  have unique : ∀ (way : Way) stage microbatch result, stage < drill.plan.layout.stageCount →
      Returned drill.plan.layout seen iteration way (drill.plan.layout.stageAt stage) microbatch
        result → result = value way stage microbatch :=
    fun way stage microbatch result inside returned => returned_eq
      (once way stage microbatch inside (closed.inside_of_returned returned)) returned
  refine ⟨value, fun way stage microbatch inside within => ?_, unique⟩
  have called := once way stage microbatch inside within
  have fits := fitting way stage microbatch inside within
  -- The source's value was seen coming back, and only one value ever did.
  have same : input way stage microbatch = handed drill iteration value way stage microbatch := by
    unfold Fitting at fits
    unfold handed
    cases found : way.source drill.plan.layout (drill.plan.layout.stageAt stage) with
    | some source =>
        simp only [found] at fits ⊢
        obtain ⟨result, same, returned⟩ := fits
        have isSource := way.isStage_source (known stage inside) found
        rw [← isSource.named] at returned
        rw [same, unique way source.logical microbatch result isSource.inside returned]
    | none =>
        simp only [found] at fits ⊢
        cases way with
        | forward =>
            have first : stage = 0 := Layout.prev_eq_none.mp found
            subst first
            rwa [Layout.rankOf_stageAt_zero sound] at fits
        | backward => exact fits
  rwa [same] at called

theorem composed (closed : Closed chart seen iteration) :
    ∃ output gradient : Nat → Nat → α, Composed drill seen iteration output gradient := by
  obtain ⟨value, once, unique⟩ := closed.values
  have count := Layout.stageCount_pos closed.sound.scored.sound
  have known : ∀ stage, stage < drill.plan.layout.stageCount →
      drill.plan.layout.IsStage (drill.plan.layout.stageAt stage) :=
    fun stage inside => Layout.isStage_stageAt inside
  refine ⟨value .forward, value .backward, ?_⟩
  constructor
  · intro stage microbatch inside within
    rw [← handed_forward value]
    exact once .forward stage microbatch inside within
  · intro stage microbatch inside within
    rw [← handed_backward value]
    exact once .backward stage microbatch inside within
  · intro stage microbatch inside within
    exact closed.weights_once (known stage inside) within
  · intro before who stage microbatch answer after split
    exact closed.weights_later split
  · intro sighting member operation called
    exact closed.placed_call member called
  · intro who result member
    obtain ⟨_, _, report, same, finished⟩ :=
      closed.witnessed.finished who iteration result member
    have playable := closed.sound.scored.playable who
    refine ⟨report, same, fun owner => ?_, fun owner => ?_⟩
    · refine finished.outputs.perm playable (known _ (by omega)) ?_ (fun microbatch within => ?_)
        fun microbatch result returned => unique .forward _ microbatch result (by omega) returned
      · exact Layout.next_eq_none.mpr (Nat.sub_add_cancel count)
      · have listed := closed.sound.mem_script_of_pass .forward
          (known (drill.plan.layout.stageCount - 1) (by omega)) within
        rwa [← owner] at listed
    · refine finished.inputGradients.perm playable (known _ count) ?_ (fun microbatch within => ?_)
        fun microbatch result returned => unique .backward _ microbatch result count returned
      · exact Layout.prev_eq_none.mpr rfl
      · have listed := closed.sound.mem_script_of_pass .backward (known 0 count) within
        rwa [← owner] at listed

end Closed

namespace Drill

/-- Whatever the order of the turns, an iteration that all ranks have returned from computed the
sequential composition of the stages, forwards and backwards. -/
theorem composes {blueprint : Blueprint} {members : List (Member σ α)} {limit : Duration}
    (ranks : 0 < blueprint.topology.depth) (built : blueprint.build = .ok drill.plan)
    (tags : 2 * drill.plan.layout.depth * drill.plan.layout.chunks * drill.plan.microbatches ≤
      2 ^ 32)
    (reliable : drill.callbacks.Reliable)
    (suited : ∀ who iteration, Suited drill.plan (drill.inputs who iteration))
    (crew : drill.Crew members)
    (reached : drill.follow? (drill.start limit members) moves = some (seen, cluster))
    (returned : ∀ who, who < drill.plan.ranks.length →
      ∃ result, ⟨who, iteration, .finish result⟩ ∈ seen) :
    ∃ output gradient : Nat → Nat → α, Composed drill seen iteration output gradient := by
  have tagged : drill.plan.layout.Tagged drill.plan.microbatches := by
    rw [Layout.Tagged, Layout.stageCount, ← Nat.mul_assoc]
    exact fun _ => tags
  obtain ⟨chart, joint⟩ := joint_of_reached ranks built tagged reliable suited crew reached
  have closed : Closed chart seen iteration := by
    refine ⟨joint.sound, joint.witnessed, fun who => ?_⟩
    by_cases inside : who < drill.plan.layout.depth
    · obtain ⟨result, member⟩ := returned who (by rw [joint.sound.scored.ranks]; exact inside)
      obtain ⟨begun, past, _⟩ := joint.witnessed.finished who iteration result member
      exact Chart.done_before begun past
    · have empty : chart.script who = [] := by
        refine List.eq_nil_iff_forall_not_mem.mpr fun operation member => inside ?_
        exact joint.sound.scored.inside who operation (Course.mem_partOf.mp member)
      have nothing := joint.sound.done_begins who iteration
      rw [empty, List.prefix_nil] at nothing
      rw [empty, nothing]
  exact closed.composed

def finishes (who iteration : Nat) (sighting : Sighting α) : Bool :=
  sighting.who == who && sighting.iteration == iteration && sighting.deed.operation?.isNone

theorem returned_of_finishes (shown : seen.any (finishes who iteration) = true) :
    ∃ result, ⟨who, iteration, .finish result⟩ ∈ seen := by
  obtain ⟨⟨other, during, deed⟩, member, same⟩ := List.any_eq_true.mp shown
  simp only [finishes, Bool.and_eq_true, beq_iff_eq] at same
  obtain ⟨⟨rfl, rfl⟩, silent⟩ := same
  cases deed with
  | finish result => exact ⟨result, member⟩
  | forward | backward | backwardWeights => cases silent

def bursts : List Nat :=
  [(12, 18), (7, 11), (16, 16), (12, 19), (25, 0)].flatMap fun turns =>
    List.replicate turns.1 0 ++ List.replicate turns.2 1

theorem composes_exercise : ∃ output gradient : Nat → Nat → List Nat,
    Composed exercise (exercised bursts).1 5 output gradient := by
  have built : twofold.build = .ok exercise.plan := rfl
  have possible :
      (exercise.follow? (exercise.start .zero [trainee 0, trainee 1]) bursts).isSome = true := by
    decide +kernel
  have shown : ∀ who, who < 2 → (exercised bursts).1.any (finishes who 5) = true := by
    decide +kernel
  exact composes (by decide) built (by decide) appending_reliable exercise_suited exercise_crew
    (exercised_reached possible) fun who inside => returned_of_finishes (shown who inside)

end Drill
end PipelineTraining
