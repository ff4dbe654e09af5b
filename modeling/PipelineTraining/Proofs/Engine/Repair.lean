import PipelineTraining.Proofs.Engine.PassInputs

/-!
Deferral repairs any order of the operations of a single rank. An iteration returns with all of
them done, inside the memory limit and the optimizer last; where results depend on nothing but
what is handed in, it yields what it does in the order that was planned.
-/

namespace PipelineTraining

variable {σ α : Type}

def Callbacks.Succeed (callbacks : Callbacks σ α) : Prop :=
  ∀ own (request : Request α), request.calls = true →
    (⟨request, (callbacks.alone own request).2⟩ : Exchange α).fails = false

structure Repaired (plan : Plan) (operations : List Operation)
    (turns : List (Run α × Option (Exchange α))) (final : Run α)
    (result : IterationResult α) : Prop where
  returns : final.phase = .ended (.ok ⟨1, .committed, result⟩)
  once : (Drain.taken turns).Perm operations
  executed : result.executed = operations.length
  bounded : ∀ before after, turns = before ++ after →
    ((Drain.taken before).filterMap Way.forward.key?).length ≤
      ((Drain.settled before).filterMap Way.backward.key?).length + plan.memoryLimit
  peak : result.peakPending ≤ plan.memoryLimit
  called : ∀ made ∈ Drain.exchanges turns, made.request.calls = true →
    made.settled?.isSome = true
  last : ∃ passes, Drain.settled turns = passes ++ [.optimizerStep] ∧
    passes.Perm (operations.filter Operation.isCompute)
  signed : result.fingerprint.isSome = true

structure Told (callbacks : Callbacks σ α) (layout : Layout) (inputs : Option (List α))
    (turns : List (Run α × Option (Exchange α))) (result : IterationResult α) : Prop where
  relays : ∀ made ∈ Drain.exchanges turns, callbacks.Relays layout inputs made
  outputs : result.outputs =
    (Drain.exchanges turns).filterMap (Exchange.produced layout .forward)
  inputGradients : result.inputGradients =
    (Drain.exchanges turns).filterMap (Exchange.produced layout .backward)
  signed : ∃ fingerprint, result.fingerprint = some fingerprint ∧
    ⟨.optimize, .ok fingerprint⟩ ∈ Drain.exchanges turns

structure IterationResult.Alike (result other : IterationResult α) : Prop where
  outputs : result.outputs.Perm other.outputs
  inputGradients : result.inputGradients.Perm other.inputGradients
  fingerprint : result.fingerprint = other.fingerprint

variable {plan : Plan} {operations behind before after : List Operation}
  {turns others : List (Run α × Option (Exchange α))} {begun run next : Run α} {trial : Trial α}
  {exchange : Option (Exchange α)} {callbacks : Callbacks σ α} {layout : Layout}
  {inputs : Option (List α)} {result other : IterationResult α}

/-- Once all that the optimizer waits for is done, no call is left but its own. -/
theorem Plan.Solitary.through (solitary : plan.Solitary operations)
    (split : (before ++ .optimizerStep :: after).Perm operations)
    (completed : plan.Completed before) : ∀ operation ∈ after, operation.calls = false := by
  have passes : ∀ way : Way, after.filterMap way.key? = [] := by
    intro way
    have whole := solitary.keys_split split way
    have card := completed.passes way
    rw [Way.entries, List.toFinset_card_of_nodup (solitary.behind_keys_nodup split way)] at card
    have skip : way.key? .optimizerStep = none := by cases way <;> rfl
    rw [List.filterMap_cons_none skip, card] at whole
    exact List.length_eq_zero_iff.mp (by omega)
  intro operation waits
  have listed : operation ∈ operations :=
    split.subset (List.mem_append_right _ (List.mem_cons_of_mem _ waits))
  have homely := solitary.homely operation listed
  cases operation with
  | forward stage microbatch =>
      cases List.filterMap_eq_nil_iff.mp (passes .forward) _ waits
  | backward stage microbatch =>
      cases List.filterMap_eq_nil_iff.mp (passes .backward) _ waits
  | backwardWeights stage microbatch =>
      have whole := (split.filterMap Operation.weightKey?).length_eq
      rw [List.filterMap_append, List.length_append, completed.weights homely.2,
        solitary.weights homely.2, List.filterMap_cons_none rfl] at whole
      have none : after.filterMap Operation.weightKey? = [] :=
        List.length_eq_zero_iff.mp (by omega)
      cases List.filterMap_eq_nil_iff.mp none _ waits
  | optimizerStep =>
      have once := (List.nodup_append.mp (split.nodup_iff.mpr solitary.once)).2.1
      exact absurd waits (List.nodup_cons.mp once).1
  | send | receive | validationSync => rfl

namespace Drained

variable (drained : Drained plan operations turns behind run trial exchange next)

include drained

theorem last (solitary : plan.Solitary operations) : ∃ passes,
    Drain.settled turns = passes ++ [.optimizerStep] ∧
      passes.Perm (operations.filter Operation.isCompute) := by
  obtain ⟨before, after, split⟩ := List.append_of_mem (drained.whole.symm.subset solitary.ends)
  have whole := drained.whole
  rw [split] at whole
  have through := solitary.through whole (drained.reckoning.closed before after split)
  have early : .optimizerStep ∉ before := solitary.not_behind whole List.mem_cons_self
  have calls : before.filter Operation.calls = before.filter Operation.isCompute := by
    refine List.filter_congr fun operation member => ?_
    cases operation with
    | optimizerStep => exact absurd member early
    | _ => rfl
  have rest : after.filter Operation.calls = [] :=
    List.filter_eq_nil_iff.mpr fun operation member => by simp [through operation member]
  have passed : after.filter Operation.isCompute = [] := by
    refine List.filter_eq_nil_iff.mpr fun operation member => ?_
    have silent := through operation member
    cases operation <;> first | exact Bool.false_ne_true | cases silent
  refine ⟨before.filter Operation.isCompute, ?_, ?_⟩
  · rw [drained.reckoning.settled, split, List.filter_append, calls, List.filter_cons_of_pos rfl,
      rest]
  · have listed := whole.filter Operation.isCompute
    rwa [List.filter_append, List.filter_cons_of_neg Bool.false_ne_true, passed,
      List.append_nil] at listed

theorem tally : Tally plan 0 behind run.worker.limiter trial.attempt := by
  have tallied := drained.reckoning.tallied
  cases tallied with
  | free tally => exact tally
  | busy => cases drained.hand

end Drained

theorem Callbacks.Succeed.answers {made : Exchange α} (succeed : callbacks.Succeed)
    (answered : made.From callbacks.alone) (calls : made.request.calls = true) :
    made.fails = false := by
  obtain ⟨request, answer⟩ := made
  obtain ⟨own, same⟩ := answered
  obtain rfl : answer = (callbacks.alone own request).2 := same
  exact succeed own request calls

namespace Exchange

variable {way : Way} {made : Exchange α} {stage : StageId} {microbatch : Nat}

theorem settled_of_calls (calls : made.request.calls = true)
    (well : made.fails = false) : made.settled?.isSome = true := by
  obtain ⟨request, answer⟩ := made
  cases request with
  | forward | backward | backwardWeights | optimize =>
      cases answer with
      | ok => rfl
      | error => cases well
  | _ => cases calls

theorem call_of_produced {yield : Nat × α} (produces : made.produced layout way = some yield) :
    ∃ stage microbatch input value, made = way.call stage microbatch input (.ok value) := by
  unfold produced at produces
  split at produces
  · exact ⟨_, _, _, _, rfl⟩
  · exact ⟨_, _, _, _, rfl⟩
  · cases produces

theorem call_of_settled (settled : made.settled? = some (way.pass stage microbatch)) :
    ∃ input value, made = way.call stage microbatch input (.ok value) := by
  unfold settled? at settled
  split at settled <;> cases way <;> cases settled
  · exact ⟨_, _, rfl⟩
  · exact ⟨_, _, rfl⟩

theorem settled?_call (way : Way) (stage : StageId) (microbatch : Nat) (input : Option α)
    (value : α) : (way.call stage microbatch input (.ok value)).settled? =
      some (way.pass stage microbatch) := by
  cases way <;> rfl

end Exchange

namespace Callbacks.Relays

variable {way : Way} {made another : Exchange α}

/-- Where results depend on nothing else, a pass that is made again yields the same. -/
theorem again (stateless : callbacks.Stateless) (relays : callbacks.Relays layout inputs made)
    (others : callbacks.Relays layout inputs another) (same : made.settled? = another.settled?)
    {yield : Nat × α} (produces : made.produced layout way = some yield) : another = made := by
  obtain ⟨stage, microbatch, input, value, rfl⟩ := Exchange.call_of_produced produces
  rw [Exchange.settled?_call] at same
  obtain ⟨given, returned, rfl⟩ := Exchange.call_of_settled same.symm
  obtain rfl := (others.handed way stage microbatch given _ rfl).unique stateless
    (relays.handed way stage microbatch input _ rfl)
  obtain ⟨own, answer⟩ := relays.answered.pass
  obtain ⟨mine, reply⟩ := others.answered.pass
  rw [← reply, stateless.pass way mine own, answer]

theorem produced_eq (stateless : callbacks.Stateless) (relays : callbacks.Relays layout inputs made)
    (others : callbacks.Relays layout inputs another) (same : made.settled? = another.settled?) :
    made.produced layout way = another.produced layout way := by
  refine Option.ext fun yield => ⟨fun produces => ?_, fun produces => ?_⟩
  · rwa [relays.again stateless others same produces]
  · rwa [others.again stateless relays same.symm produces]

theorem exists_yield (stateless : callbacks.Stateless) (layout : Layout)
    (inputs : Option (List α)) (way : Way) : ∃ yield : Operation → Option (Nat × α),
      ∀ made, callbacks.Relays layout inputs made →
        made.produced layout way = made.settled?.bind yield := by
  have one : ∀ operation, ∃ yield, ∀ made, callbacks.Relays layout inputs made →
      made.settled? = some operation → made.produced layout way = yield := by
    intro operation
    by_cases known : ∃ made, callbacks.Relays layout inputs made ∧ made.settled? = some operation
    · obtain ⟨made, relays, settled⟩ := known
      exact ⟨_, fun another others again =>
        others.produced_eq stateless relays (again.trans settled.symm)⟩
    · exact ⟨none, fun made relays settled => absurd ⟨made, relays, settled⟩ known⟩
  choose yield yields using one
  refine ⟨yield, fun made relays => ?_⟩
  cases settled : made.settled? with
  | some operation => exact yields operation made relays settled
  | none =>
      refine Option.eq_none_iff_forall_ne_some.mpr fun result produces => ?_
      obtain ⟨stage, microbatch, input, value, rfl⟩ := Exchange.call_of_produced produces
      rw [Exchange.settled?_call] at settled
      cases settled

end Callbacks.Relays

theorem Drain.settled_eq : settled turns = (exchanges turns).filterMap Exchange.settled? := by
  rw [settled, exchanges, List.filterMap_filterMap]

/-- Iterations that made the same calls yield the same. -/
theorem Told.alike (told : Told callbacks layout inputs turns result)
    (tells : Told callbacks layout inputs others other) (stateless : callbacks.Stateless)
    (permuted : (Drain.settled turns).Perm (Drain.settled others)) : result.Alike other := by
  have yields : ∀ way : Way, ((Drain.exchanges turns).filterMap (Exchange.produced layout way)).Perm
      ((Drain.exchanges others).filterMap (Exchange.produced layout way)) := by
    intro way
    obtain ⟨yield, yields⟩ := Callbacks.Relays.exists_yield stateless layout inputs way
    rw [List.filterMap_congr fun made member => yields made (told.relays made member),
      List.filterMap_congr fun made member => yields made (tells.relays made member),
      ← List.filterMap_filterMap, ← List.filterMap_filterMap, ← Drain.settled_eq,
      ← Drain.settled_eq]
    exact permuted.filterMap yield
  refine ⟨?_, ?_, ?_⟩
  · rw [told.outputs, tells.outputs]
    exact yields .forward
  · rw [told.inputGradients, tells.inputGradients]
    exact yields .backward
  · obtain ⟨fingerprint, signed, called⟩ := told.signed
    obtain ⟨another, signs, calls⟩ := tells.signed
    obtain ⟨own, answer⟩ := (told.relays _ called).answered
    obtain ⟨mine, reply⟩ := (tells.relays _ calls).answered
    have same : Except.ok fingerprint = Except.ok another :=
      answer.trans ((stateless.optimize own mine).trans reply.symm)
    rw [signed, signs, Except.ok.inj same]

namespace Drained

theorem signed (drained : Drained plan operations turns behind run trial exchange next)
    (solitary : plan.Solitary operations) : trial.attempt.fingerprint.isSome = true :=
  drained.tally.signed.mpr (drained.whole.symm.subset solitary.ends)

theorem exchanges (drained : Drained plan operations turns behind run trial exchange next)
    (made : Exchange α) : Drain.exchanges ((begun, some made) :: (turns ++ [(run, exchange)])) =
      made :: Drain.exchanges turns := by
  rw [drained.silent]
  simp [Drain.exchanges]

theorem repaired (drained : Drained plan operations turns behind run trial exchange next)
    (solitary : plan.Solitary operations) (fitted : Fitted plan 0 operations begun.worker)
    (phase : begun.phase = .clearing none) (drain : Drain (begun.cleared none) turns run)
    (shown : run.phase.trial? = some trial) (stride : Stride run exchange next)
    (succeeds : ∀ made ∈ Drain.exchanges turns, made.request.calls = true → made.fails = false) :
    Repaired plan operations
      ((begun, some ⟨.dropStale (begun.epoch none), ()⟩) :: (turns ++ [(run, exchange)]))
      next (run.result trial.attempt) := by
  have tally := drained.tally
  have whole := drain.turn shown stride
  obtain ⟨placed, _⟩ := drain.fitted fitted
  -- Nothing is taken up and no call is made while the run clears and when it finishes.
  have idle : begun.picks? = none := by
    simp only [Run.picks?, Run.choice?, phase]
  have taken : ∀ later : List (Run α × Option (Exchange α)),
      Drain.taken ((begun, some ⟨.dropStale (begun.epoch none), ()⟩) :: later) =
        Drain.taken later :=
    fun later => List.filterMap_cons_none idle
  have settled : ∀ later : List (Run α × Option (Exchange α)),
      Drain.settled ((begun, some ⟨.dropStale (begun.epoch none), ()⟩) :: later) =
        Drain.settled later :=
    fun later => List.filterMap_cons_none rfl
  constructor
  · rw [drained.finishes, drain.unguarded shown]
    rfl
  · rw [taken, Drain.taken_snoc, drained.picks, Option.toList_none, List.append_nil,
      drained.reckoning.taken, drained.hand, Option.toList_none, List.append_nil]
    exact drained.whole
  · exact tally.executed.trans drained.whole.length_eq
  · intro before after split
    rcases List.cons_eq_append_iff.mp split with ⟨rfl, _⟩ | ⟨front, rfl, rest⟩
    · exact Nat.zero_le _
    · obtain ⟨middle, drain⟩ := whole.front rest
      rw [taken, settled]
      exact drain.bounded fitted
  · have peak := tally.peak
    rw [tally.limit] at peak
    rwa [Run.result, placed]
  · rw [drained.exchanges]
    intro made member calls
    rcases List.mem_cons.mp member with rfl | called
    · cases calls
    · exact Exchange.settled_of_calls calls (succeeds made called calls)
  · rw [settled, Drain.settled_snoc, drained.silent]
    simpa using drained.last solitary
  · exact drained.signed solitary

theorem told (drained : Drained plan operations turns behind run trial exchange next)
    (solitary : plan.Solitary operations) (fitted : Fitted plan 0 operations begun.worker)
    (drain : Drain (begun.cleared none) turns run) (shown : run.phase.trial? = some trial)
    (answered : ∀ turn ∈ turns, ∀ made ∈ turn.2, made.From callbacks.alone) (own : σ) :
    Told callbacks plan.layout begun.inputs
      ((begun, some ⟨.dropStale (begun.epoch none), ()⟩) :: (turns ++ [(run, exchange)]))
      (run.result trial.attempt) := by
  have relayed := drain.relayed solitary fitted answered shown
  have yielding := drain.yielding shown
  rw [fitted.planned] at yielding
  constructor
  · rw [drained.exchanges]
    intro made member
    rcases List.mem_cons.mp member with rfl | called
    · refine ⟨⟨own, rfl⟩, fun way stage microbatch input answer same => ?_⟩
      cases way <;> cases same
    · exact relayed.relays made called
  · rw [drained.exchanges]
    exact yielding.outputs
  · rw [drained.exchanges]
    exact yielding.inputGradients
  · rw [drained.exchanges]
    obtain ⟨fingerprint, same⟩ := Option.isSome_iff_exists.mp (drained.signed solitary)
    exact ⟨fingerprint, same, List.mem_cons_of_mem _ (drain.signature shown same)⟩

end Drained

namespace Run

variable {worker : Worker}

theorem repaired (solitary : plan.Solitary operations)
    (room : plan.layout.chunks = 1 ∨ plan.passesPerRank ≤ plan.memoryLimit)
    (fitted : Fitted plan 0 operations worker) (silent : worker.validator.isEnabled = false)
    (suited : Suited plan inputs) (succeed : callbacks.Succeed) (own : σ) :
    let run : Run α := ofIteration worker inputs
    let turns := run.history callbacks.alone run.turnBound own
    let final := (run.drive callbacks.alone run.turnBound own).2
    ∃ result, Repaired plan operations turns final result ∧
      Told callbacks plan.layout inputs turns result := by
  intro run turns final
  have attempted : Attempted worker inputs (ofIteration worker inputs) none := .alone
  obtain ⟨here, phase⟩ := attempted.due fitted suited
  have kin : Kin _ run := .beginAttempt _ none
  have off : run.worker.validator.isEnabled = false := by
    rw [kin.validator]
    exact silent
  obtain ⟨past, last, trial, exchange, next, left, state, played, listed, reached⟩ :=
    played_ofIteration callbacks.alone fitted suited
      (List.nodup_iff_count_le_one.mp solitary.once _) own
  obtain ⟨drain, shown, stride, ended, answered⟩ := played
  obtain ⟨behind, drained⟩ := drain.drained here solitary room off shown stride
    (fun made member => succeed.answers
      (answered _ (List.mem_append_right _ List.mem_cons_self) made member)) ended
  have succeeds : ∀ made ∈ Drain.exchanges past, made.request.calls = true →
      made.fails = false := by
    intro made member
    obtain ⟨turn, listed, asked⟩ := List.mem_filterMap.mp member
    exact succeed.answers (answered turn (List.mem_append_left _ listed) made asked)
  have repaired := drained.repaired solitary here phase drain shown stride succeeds
  have told := drained.told solitary here drain shown
    (fun turn member => answered turn (List.mem_append_left _ member)) own
  have settles : final = next :=
    congrArg Prod.snd (reached.trans (Run.drive_of_ended repaired.returns left))
  rw [Run.history_of_ended repaired.returns] at listed
  rw [show (ofIteration worker inputs).inputs = inputs from kin.inputs, ← listed] at told
  rw [← listed, ← settles] at repaired
  exact ⟨_, repaired, told⟩

end Run

/-- Deferral repairs any order of what was built for a single rank, and without a state of the
callbacks' own the order is not to be seen in the result. -/
theorem Blueprint.any_order_repaired {blueprint : Blueprint} {rankPlan : RankPlan}
    {worker planned : Worker} (single : blueprint.topology.depth = 1)
    (built : blueprint.build = .ok plan) (found : plan.rankPlan? 0 = some rankPlan)
    (room : blueprint.chunks = 1 ∨
      blueprint.microbatches * blueprint.chunks ≤ blueprint.memoryLimit)
    (permuted : operations.Perm rankPlan.operations)
    (fitted : Fitted (plan.reordered operations) 0 operations worker)
    (silent : worker.validator.isEnabled = false)
    (straight : Fitted plan 0 rankPlan.operations planned)
    (quiet : planned.validator.isEnabled = false)
    (suited : Suited plan inputs) (succeed : callbacks.Succeed) (own start : σ) :
    let run : Run α := .ofIteration worker inputs
    let first : Run α := .ofIteration planned inputs
    ∃ result baseline,
      Repaired (plan.reordered operations) operations
        (run.history callbacks.alone run.turnBound own)
        (run.drive callbacks.alone run.turnBound own).2 result ∧
      Repaired plan rankPlan.operations
        (first.history callbacks.alone first.turnBound start)
        (first.drive callbacks.alone first.turnBound start).2 baseline ∧
      (callbacks.Stateless → result.Alike baseline) := by
  intro run first
  have ordered := solitary_of_build single built found
  obtain ⟨chunks, microbatches, limit⟩ := built_sizes (by omega) built
  have wide : plan.layout.chunks = 1 ∨ plan.passesPerRank ≤ plan.memoryLimit := by
    rwa [Plan.passesPerRank, chunks, microbatches, limit]
  obtain ⟨result, repaired, told⟩ :=
    Run.repaired (ordered.perm permuted).reordered wide fitted silent suited succeed own
  obtain ⟨baseline, kept, tells⟩ :=
    Run.repaired ordered wide straight quiet suited succeed start
  refine ⟨result, baseline, repaired, kept, fun stateless => told.alike tells stateless ?_⟩
  obtain ⟨passes, settled, same⟩ := repaired.last
  obtain ⟨others, settles, listed⟩ := kept.last
  rw [settled, settles]
  exact (same.trans ((permuted.filter _).trans listed.symm)).append_right _

/-- One rank with two stages and two micro-batches, its backwards split. -/
def paired : Blueprint :=
  ⟨⟨1, 2, none⟩, 2, 4, 2, .interleaved, true, true, .uniform⟩

def pairedPlan : Plan :=
  match paired.build with
  | .ok plan => plan
  | .error _ => .single []

def pairedOperations : List Operation :=
  (pairedPlan.rankPlan? 0).elim [] RankPlan.operations

def Worker.sole (plan : Plan) (operations : List Operation) : Worker :=
  { Worker.single operations with plan := plan, limiter := ⟨plan.memoryLimit, [0], [0]⟩ }

theorem Fitted.sole (plan : Plan) (operations : List Operation) :
    Fitted plan 0 operations (.sole plan operations) :=
  ⟨rfl, rfl, rfl, rfl, Nat.one_pos⟩

/-- Every pass notes its stage down behind what it is handed; the calls are only counted. -/
def Callbacks.noting : Callbacks Nat (List Nat) where
  forward calls stage _ input := (calls + 1, .ok (input.getD [] ++ [stage.logical]))
  backward calls stage _ gradient := (calls + 1, .ok (gradient.getD [] ++ [stage.logical]))
  backwardWeights calls _ _ := (calls + 1, .ok ())
  optimize calls := (calls + 1, .ok (.make 0 0.0))
  snapshot calls := (calls, .ok 0)
  restore calls _ := (calls, .ok ())
  discard calls := (calls, .ok ())
  gather calls _ entry := (calls, .ok [entry])
  obstruct calls _ _ := (calls, none)

/-- The planned operations from the last to the first, when other calls were made before. -/
theorem reversed_repaired :
    let operations := pairedOperations.reverse
    let run : Run (List Nat) :=
      .ofIteration (.sole (pairedPlan.reordered operations) operations) (some [[5], [6]])
    let first : Run (List Nat) :=
      .ofIteration (.sole pairedPlan pairedOperations) (some [[5], [6]])
    ∃ result baseline,
      Repaired (pairedPlan.reordered operations) operations
        (run.history Callbacks.noting.alone run.turnBound 3)
        (run.drive Callbacks.noting.alone run.turnBound 3).2 result ∧
      Repaired pairedPlan pairedOperations
        (first.history Callbacks.noting.alone first.turnBound 0)
        (first.drive Callbacks.noting.alone first.turnBound 0).2 baseline ∧
      result.Alike baseline := by
  have built : paired.build = .ok pairedPlan := rfl
  have found : pairedPlan.rankPlan? 0 = some ⟨0, pairedOperations⟩ := rfl
  have suited : Suited pairedPlan (some [[5], [6]]) := by
    rintro given ⟨⟩
    rfl
  have succeed : Callbacks.noting.Succeed := by
    intro calls request asked
    cases request <;> first | rfl | cases asked
  have stateless : Callbacks.noting.Stateless :=
    ⟨fun way _ _ _ _ _ => by cases way <;> rfl, fun _ _ => rfl⟩
  obtain ⟨result, baseline, repaired, kept, alike⟩ :=
    Blueprint.any_order_repaired rfl built found (Or.inr (by decide)) (List.reverse_perm _)
      (Fitted.sole _ _) rfl (Fitted.sole _ _) rfl suited succeed 3 0
  exact ⟨result, baseline, repaired, kept, alike stateless⟩

end PipelineTraining
