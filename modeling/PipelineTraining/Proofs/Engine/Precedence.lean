import PipelineTraining.Proofs.Engine.GroupCalls
import PipelineTraining.Proofs.Engine.Thoroughness

/-!
What has to come first has come first, on any plan. A backward follows its forward and its
weight pass follows it, the optimizer follows all of them and the sync the optimizer, and no
more backwards are pending than the limit allows. So what a start looks for is always there.
-/

namespace PipelineTraining

variable {α : Type}

/-- A start that did not find what it needs, or that there was no room for. -/
def Fault.untimely : Fault → Bool
  | .invariant _ (.withoutActivation _) => true
  | .invariant _ (.withoutGradient _) => true
  | .invariant _ (.overLimit _ _) => true
  | .invariant _ (.nothingTo _) => true
  | .invariant _ .syncBeforeOptimizer => true
  | _ => false

/-- The fault that a group without a mesh has answered the last turn with. -/
def Drain.reported? (turns : List (Run α × Option (Exchange α))) : Option Fault :=
  turns.getLast?.bind fun turn => turn.2.bind Exchange.reported?

/-- An attempt in which everything comes in its time, whatever it is answered. No start fails for
what has to come before it: where such a fault ends the attempt, a group without a mesh has
answered with it. -/
structure Timely (plan : Plan) (rank : Nat) (first : Run α) : Prop where
  bounded : ∀ {turns run}, Drain first turns run →
    ((Drain.taken turns).filterMap Way.forward.key?).length ≤
      ((Drain.settled turns).filterMap Way.backward.key?).length + plan.memoryLimit
  optimizes : ∀ {turns run next answer}, Drain first turns run →
    Stride run (some ⟨.optimize, answer⟩) next →
    plan.Completed (Drain.settled turns) ∧ run.worker.limiter.pendingOn rank = 0
  syncs : ∀ {turns run}, Drain first turns run → run.picks? = some .validationSync →
    .optimizerStep ∈ Drain.settled turns
  weighs : ∀ {turns run next stage microbatch answer}, Drain first turns run →
    Stride run (some ⟨.backwardWeights stage microbatch, answer⟩) next →
    (stage.logical, microbatch) ∈ Way.backward.entries (Drain.settled turns)
  returns : ∀ {turns run next stage microbatch gradient answer}, Drain first turns run →
    Stride run (some ⟨.backward stage microbatch gradient, answer⟩) next →
    (stage.logical, microbatch) ∈ Way.forward.entries (Drain.settled turns)
  guarded : ∀ {turns run fault}, Drain first turns run → run.failure? = some fault →
    fault.untimely = false ∨
      run.worker.validator.channel = some .other ∧ Drain.reported? turns = some fault

variable {plan : Plan} {rank : Nat} {operations behind : List Operation} {operation : Operation}
  {turns : List (Run α × Option (Exchange α))} {begun run next first : Run α}
  {limiter : Limiter} {trial : Trial α} {exchange : Option (Exchange α)} {guard : Option Guard}
  {worker : Worker} {inputs : Option (List α)}

theorem Transfer.timely_of_untagged {transfer : Transfer} {microbatches : Nat} {epoch : UInt32}
    {fault : Fault} (refused : transfer.tag microbatches epoch = .error fault) :
    fault.untimely = false := by
  have refusedIn : ∀ direction, transfer.tagIn microbatches direction epoch = .error fault →
      fault.untimely = false := by
    intro direction refused
    unfold tagIn at refused
    dsimp only at refused
    split at refused
    · obtain rfl := Except.error.inj refused
      rfl
    · split at refused
      · obtain rfl := Except.error.inj refused
        rfl
      · cases refused
  unfold tag at refused
  split at refused
  · exact refusedIn _ refused
  · exact refusedIn _ refused
  · obtain rfl := Except.error.inj refused
    rfl

theorem Limiter.timely_of_missing {rank : Nat} {fault : Fault}
    (missing : limiter.complete rank = .error fault) : fault.untimely = false := by
  unfold complete at missing
  split at missing
  · obtain rfl := Except.error.inj missing
    rfl
  · obtain rfl := Except.error.inj missing
    rfl
  · cases missing

namespace StepCycle

theorem timely_of_move {cycle : StepCycle} {current target : StepState} {fault : Fault}
    (refused : cycle.move current target = .error fault) : fault.untimely = false := by
  unfold move at refused
  split at refused
  · cases refused
  · obtain rfl := Except.error.inj refused
    rfl

theorem timely_of_judge {cycle after : StepCycle} {outcome : Outcome} {fault : Fault}
    (refused : cycle.judge outcome = (after, .error fault)) : fault.untimely = false := by
  unfold judge at refused
  split at refused <;> cases refused <;> rfl

end StepCycle

namespace Run

theorem timely_of_abort {run : Run α} {fault failed : Fault} (timely : fault.untimely = false)
    (same : (run.abort guard fault).failure? = some failed) : failed.untimely = false := by
  rw [failure?_abort] at same
  exact Option.some.inj same ▸ timely

theorem timely_of_decide {held : Guard} {result : IterationResult α} {fault : Fault}
    (failed : (run.decide held result).failure? = some fault) : fault.untimely = false := by
  unfold decide at failed
  split at failed
  · obtain rfl := Option.some.inj failed
    rfl
  · next outcome _ =>
    dsimp only at failed
    split at failed
    · next refused =>
      obtain rfl := Option.some.inj failed
      split at refused
      · exact StepCycle.timely_of_move refused
      · cases refused
    · split at failed
      · cases failed
      · cases failed
      · next refused =>
        obtain rfl := Option.some.inj failed
        exact StepCycle.timely_of_judge refused

theorem timely_of_finish {attempt : Attempt α} {fault : Fault}
    (failed : (run.finish guard attempt).failure? = some fault) : fault.untimely = false := by
  cases guard with
  | none => cases failed
  | some held => exact timely_of_decide failed

theorem timely_of_forwarded {guard : Option Guard} {attempt : Attempt α} {stage : StageId}
    {microbatch : Nat} {answer : Except String α} {fault : Fault}
    (failed : (run.forwarded guard attempt stage microbatch answer).failure? = some fault) :
    fault.untimely = false := by
  cases answer with
  | error source => exact timely_of_abort rfl failed
  | ok value =>
      simp only [forwarded] at failed
      split at failed
      · obtain rfl := Option.some.inj failed
        rfl
      · cases failed

theorem timely_of_backwarded {guard : Option Guard} {attempt : Attempt α} {stage : StageId}
    {microbatch : Nat} {answer : Except String α} {fault : Fault}
    (failed : (run.backwarded guard attempt stage microbatch answer).failure? = some fault) :
    fault.untimely = false := by
  cases answer with
  | error source => exact timely_of_abort rfl failed
  | ok value =>
      simp only [backwarded] at failed
      split at failed
      · next missing => exact timely_of_abort (Limiter.timely_of_missing missing) failed
      · split at failed
        · obtain rfl := Option.some.inj failed
          rfl
        · cases failed

theorem timely_of_gathering {guard : Option Guard} {attempt : Attempt α} {gather : Gather}
    (phase : run.phase = .gathering guard attempt gather) (stride : Stride run exchange next)
    {fault : Fault} (failed : next.failure? = some fault) : fault.untimely = false := by
  cases move : gather.move with
  | finish =>
      obtain ⟨rfl, rfl⟩ := stride.of_own (by simp only [turn, phase, move]; rfl)
      cases failed
  | publish peer =>
      obtain ⟨answer, rfl, rfl⟩ := stride.of_ask (by simp only [turn, phase, move]; rfl)
      cases answer with
      | error cause => exact timely_of_abort (by cases cause <;> rfl) failed
      | ok => cases failed
  | collect peer =>
      obtain ⟨answer, rfl, rfl⟩ := stride.of_ask (by simp only [turn, phase, move]; rfl)
      cases answer with
      | error cause => exact timely_of_abort (by cases cause <;> rfl) failed
      | ok => cases failed

/-- What an operation in hand fails of is its own call. -/
theorem timely_of_busy (shown : run.phase.trial? = some trial) (held : trial.hand = some operation)
    (stride : Stride run exchange next) {fault : Fault} (failed : next.failure? = some fault)
    (unreported : exchange.bind Exchange.reported? ≠ some fault) : fault.untimely = false := by
  cases phase : run.phase with
  | forwarding guard attempt stage microbatch input =>
      obtain ⟨answer, rfl, rfl⟩ := stride.of_ask (by simp only [turn, phase]; rfl)
      exact timely_of_forwarded failed
  | backwarding guard attempt stage microbatch gradient =>
      obtain ⟨answer, rfl, rfl⟩ := stride.of_ask (by simp only [turn, phase]; rfl)
      exact timely_of_backwarded failed
  | weighing guard attempt stage microbatch =>
      obtain ⟨answer, rfl, rfl⟩ := stride.of_ask (by simp only [turn, phase]; rfl)
      cases answer with
      | error source => exact timely_of_abort rfl failed
      | ok => cases failed
  | sending guard attempt peer transfer tag payload =>
      obtain ⟨answer, rfl, rfl⟩ := stride.of_ask (by simp only [turn, phase]; rfl)
      cases answer with
      | error cause => exact timely_of_abort (by cases cause <;> rfl) failed
      | ok => cases failed
  | receiving guard attempt peer transfer tag =>
      obtain ⟨answer, rfl, rfl⟩ := stride.of_ask (by simp only [turn, phase]; rfl)
      cases answer with
      | error cause => exact timely_of_abort (by cases cause <;> rfl) failed
      | ok => cases failed
  | optimizing guard attempt =>
      obtain ⟨answer, rfl, rfl⟩ := stride.of_ask (by simp only [turn, phase]; rfl)
      cases answer with
      | error source => exact timely_of_abort rfl failed
      | ok => cases failed
  | preparing guard attempt gather =>
      obtain ⟨answer, rfl, rfl⟩ := stride.of_ask (by simp only [turn, phase]; rfl)
      cases failed
  | gathering guard attempt gather => exact timely_of_gathering phase stride failed
  | consulting guard attempt own =>
      obtain ⟨answer, rfl, rfl⟩ := stride.of_ask (by simp only [turn, phase]; rfl)
      cases answer with
      | error cause => exact absurd ((failure?_abort run guard cause).symm.trans failed) unreported
      | ok => cases failed
  | choosing =>
      rw [phase] at shown
      obtain rfl := Option.some.inj shown
      cases held
  | snapshotting | clearing | restoring | discarding | ended => rw [phase] at shown; cases shown

theorem timely_of_stride (shown : run.phase.trial? = some trial) (stride : Stride run exchange next)
    {fault : Fault} (failed : next.failure? = some fault)
    (unreported : exchange.bind Exchange.reported? ≠ some fault) : fault.untimely = false := by
  cases held : trial.hand with
  | some operation => exact timely_of_busy shown held stride failed unreported
  | none =>
      obtain ⟨rfl, looked⟩ := looked shown held stride
      cases looked with
      | finish => exact timely_of_finish failed
      | stuck => exact timely_of_abort rfl failed
      | defer => cases failed
      | start _ _ _ starts =>
          cases starts with
          | take _ known =>
              rw [failure?_of_trial known] at failed
              cases failed
          | pass => cases failed
          | refuse _ refused => exact timely_of_abort (Transfer.timely_of_untagged refused) failed

end Run

theorem Stride.foreign (stride : Stride run exchange next)
    (convened : run.phase.Convened run.worker) {fault : Fault}
    (reported : exchange.bind Exchange.reported? = some fault) :
    next.worker.validator.channel = some .other := by
  rw [stride.kin.validator]
  cases stride with
  | own => cases reported
  | @ask request _ turn answer =>
      cases request with
      | gather epoch own =>
          cases phase : run.phase with
          | consulting =>
              rw [phase] at convened
              exact convened
          | gathering guard attempt gather =>
              cases move : gather.move <;> simp only [Run.turn, phase, move] at turn <;> cases turn
          | _ =>
              simp only [Run.turn, phase] at turn
              cases turn
      | _ => cases reported

theorem Stride.inHand {made : Exchange α} (stride : Stride run (some made) next)
    (asked : made.request.IsFor operation) (calls : operation.calls = true) :
    run.inHand? = some operation := by
  cases stride with
  | ask turn answer =>
      cases phase : run.phase with
      | gathering guard attempt gather =>
          cases move : gather.move <;> simp only [Run.turn, phase, move] at turn <;> cases turn <;>
            (obtain rfl := asked; cases calls)
      | sending | receiving =>
          simp only [Run.turn, phase] at turn
          cases turn
          obtain ⟨_, rfl⟩ := asked
          cases calls
      | preparing | consulting =>
          simp only [Run.turn, phase] at turn
          cases turn
          obtain rfl := asked
          cases calls
      | forwarding | backwarding | weighing | optimizing =>
          simp only [Run.turn, phase] at turn
          cases turn
          obtain rfl := asked
          rw [Run.inHand?, phase]
          rfl
      | snapshotting | clearing | restoring | discarding =>
          simp only [Run.turn, phase] at turn
          cases turn
          cases asked
      | choosing | ended =>
          simp only [Run.turn, phase] at turn
          cases turn

/-- Only passes have keys, so nothing but passes has to be looked at for them. -/
theorem filterMap_calls {key? : Operation → Option (Nat × Nat)}
    (only : ∀ operation, operation.calls = false → key? operation = none)
    (operations : List Operation) :
    (operations.filter Operation.calls).filterMap key? = operations.filterMap key? := by
  rw [List.filterMap_filter]
  congr 1
  funext operation
  cases calls : operation.calls with
  | false => simp [only operation calls]
  | true => simp

namespace Reckoning

theorem keys (reckoning : Reckoning plan rank operations turns behind limiter trial) (way : Way) :
    (Drain.settled turns).filterMap way.key? = behind.filterMap way.key? := by
  rw [reckoning.settled]
  refine filterMap_calls (fun operation silent => ?_) behind
  cases way <;> cases operation <;> first | rfl | cases silent

theorem weightKeys (reckoning : Reckoning plan rank operations turns behind limiter trial) :
    (Drain.settled turns).filterMap Operation.weightKey? =
      behind.filterMap Operation.weightKey? := by
  rw [reckoning.settled]
  refine filterMap_calls (fun operation silent => ?_) behind
  cases operation <;> first | rfl | cases silent

theorem entries (reckoning : Reckoning plan rank operations turns behind limiter trial)
    (way : Way) : way.entries (Drain.settled turns) = way.entries behind := by
  rw [Way.entries, Way.entries, reckoning.keys]

/-- Forwards are counted when they are taken up and backwards when they are over. -/
theorem bounded (reckoning : Reckoning plan rank operations turns behind limiter trial) :
    ((Drain.taken turns).filterMap Way.forward.key?).length ≤
      ((Drain.settled turns).filterMap Way.backward.key?).length + plan.memoryLimit := by
  rw [reckoning.keys, reckoning.taken]
  cases reckoning.tallied with
  | free tally =>
      obtain ⟨count, inside, _, balance⟩ := tally.pending
      have limit := tally.limit
      simp only [Option.toList_none, List.append_nil]
      omega
  | busy tally _ takes =>
      obtain ⟨count, inside, found, balance⟩ := tally.pending
      obtain ⟨more, room, _, added⟩ := takes.pending found inside
      have limit := takes.alike.limit.trans tally.limit
      simp only [Option.toList_some, length_filterMap_snoc]
      omega

theorem time (reckoning : Reckoning plan rank operations turns behind limiter trial)
    (held : trial.hand = some operation) : ∃ (attempt : Attempt α) (before : Limiter),
      Tally plan rank behind before attempt ∧ attempt.isReady plan rank before operation = true ∧
        ((Way.forward.key? operation) = none → limiter = before) := by
  cases reckoning.tallied with
  | free => cases held
  | busy tally time takes =>
      obtain rfl := Option.some.inj held
      refine ⟨_, _, tally, time, fun other => ?_⟩
      cases takes with
      | forward => cases other
      | backward | weights | send | receive | optimizer | sync => rfl

end Reckoning

namespace Drain

theorem calls {made : Exchange α} (fitted : Fitted plan rank operations begun.worker)
    (drain : Drain (begun.cleared guard) turns run) (stride : Stride run (some made) next)
    (asked : made.request.IsFor operation) (called : operation.calls = true) :
    ∃ behind trial, Reckoning plan rank operations turns behind run.worker.limiter trial ∧
      trial.hand = some operation := by
  obtain ⟨trial, shown, held⟩ := Option.bind_eq_some_iff.mp (stride.inHand asked called)
  obtain ⟨behind, reckoning⟩ := drain.reckoning fitted shown
  exact ⟨behind, trial, reckoning, held⟩

theorem quiet (shown : run.phase.trial? = some trial) (stride : Stride run exchange next)
    (ended : next.phase.trial? = none) :
    run.picks?.toList.filterMap Way.forward.key? = [] := by
  cases held : trial.hand with
  | some operation =>
      rw [Run.picks?, Run.choice?_of_busy shown held]
      rfl
  | none =>
      obtain ⟨_, looked⟩ := Run.looked shown held stride
      cases looked with
      | finish picks | stuck picks =>
          rw [picks]
          rfl
      | defer => cases ended
      | @start operation _ _ picks _ _ starts =>
          cases starts with
          | take _ known => cases known.symm.trans ended
          | pass => cases ended
          | refuse moves =>
              rw [picks]
              cases operation <;> first | rfl | cases moves

theorem bounded (fitted : Fitted plan rank operations begun.worker)
    (drain : Drain (begun.cleared guard) turns run) :
    ((taken turns).filterMap Way.forward.key?).length ≤
      ((settled turns).filterMap Way.backward.key?).length + plan.memoryLimit := by
  cases shown : run.phase.trial? with
  | some trial =>
      obtain ⟨behind, reckoning⟩ := drain.reckoning fitted shown
      exact reckoning.bounded
  | none =>
      cases drain with
      | start => cases shown
      | turn past before stride =>
          obtain ⟨behind, reckoning⟩ := past.reckoning fitted before
          have bounded := reckoning.bounded
          rw [taken_snoc, settled_snoc, List.filterMap_append, List.filterMap_append,
            quiet before stride shown, List.append_nil, List.length_append]
          omega

theorem optimizes {answer : Except String Fingerprint}
    (fitted : Fitted plan rank operations begun.worker)
    (drain : Drain (begun.cleared guard) turns run)
    (stride : Stride run (some ⟨.optimize, answer⟩) next) :
    plan.Completed (settled turns) ∧ run.worker.limiter.pendingOn rank = 0 := by
  obtain ⟨behind, trial, reckoning, held⟩ := drain.calls fitted stride rfl rfl
  obtain ⟨attempt, before, tally, time, same⟩ := reckoning.time held
  obtain rfl := same rfl
  obtain ⟨⟨passes, weights, drained⟩, pending⟩ := tally.completed time
  refine ⟨⟨fun way => ?_, fun split => ?_, ?_⟩, pending⟩
  · exact (congrArg Finset.card (reckoning.entries way)).trans (passes way)
  · exact (congrArg List.length reckoning.weightKeys).trans (weights split)
  · rw [reckoning.keys, reckoning.keys]
    exact drained

theorem syncs (fitted : Fitted plan rank operations begun.worker)
    (drain : Drain (begun.cleared guard) turns run)
    (picks : run.picks? = some .validationSync) : .optimizerStep ∈ settled turns := by
  obtain ⟨_, attempt, _, shown, picked⟩ := Run.picked picks
  obtain ⟨behind, reckoning⟩ := drain.reckoning fitted shown
  rw [reckoning.settled, List.mem_filter]
  cases reckoning.tallied with
  | free tally => exact ⟨tally.signed.mp picked.time, rfl⟩

theorem weighs {stage : StageId} {microbatch : Nat} {answer : Except String Unit}
    (fitted : Fitted plan rank operations begun.worker)
    (drain : Drain (begun.cleared guard) turns run)
    (stride : Stride run (some ⟨.backwardWeights stage microbatch, answer⟩) next) :
    (stage.logical, microbatch) ∈ Way.backward.entries (settled turns) := by
  obtain ⟨behind, trial, reckoning, held⟩ := drain.calls fitted stride rfl rfl
  obtain ⟨attempt, before, tally, time, _⟩ := reckoning.time held
  rw [reckoning.entries]
  exact (tally.entered .backward).contains.mp time

theorem returns {stage : StageId} {microbatch : Nat} {gradient : Option α}
    {answer : Except String α} (fitted : Fitted plan rank operations begun.worker)
    (drain : Drain (begun.cleared guard) turns run)
    (stride : Stride run (some ⟨.backward stage microbatch gradient, answer⟩) next) :
    (stage.logical, microbatch) ∈ Way.forward.entries (settled turns) := by
  obtain ⟨behind, trial, reckoning, held⟩ := drain.calls fitted stride rfl rfl
  obtain ⟨attempt, before, tally, time, _⟩ := reckoning.time held
  rw [reckoning.entries]
  exact (tally.entered .forward).contains.mp (Bool.and_eq_true_iff.mp time).1

theorem convened (drain : Drain (begun.cleared guard) turns run) :
    run.phase.Convened run.worker := by
  induction drain with
  | start => trivial
  | turn _ _ stride ih => exact stride.convened ih

theorem guarded {fault : Fault} (drain : Drain (begun.cleared guard) turns run)
    (failed : run.failure? = some fault) : fault.untimely = false ∨
      run.worker.validator.channel = some .other ∧ Drain.reported? turns = some fault := by
  cases drain with
  | start => cases failed
  | @turn turns before _ _ exchange past shown stride =>
      have last : Drain.reported? (turns ++ [(before, exchange)]) =
          exchange.bind Exchange.reported? := by
        rw [Drain.reported?, List.getLast?_concat]
        rfl
      rw [last]
      by_cases reported : exchange.bind Exchange.reported? = some fault
      · exact Or.inr ⟨stride.foreign past.convened reported, reported⟩
      · exact Or.inl (Run.timely_of_stride shown stride failed reported)

end Drain

/-- On any plan and whatever it is answered, an attempt does everything in its time. -/
theorem Attempted.timely (fitted : Fitted plan rank operations worker)
    (suited : Suited plan inputs) (attempted : Attempted worker inputs run guard) :
    Timely plan rank (run.cleared guard) := by
  have here := (attempted.due fitted suited).1
  constructor
  · exact fun drain => drain.bounded here
  · exact fun drain => drain.optimizes here
  · exact fun drain => drain.syncs here
  · exact fun drain => drain.weighs here
  · exact fun drain => drain.returns here
  · exact fun drain => drain.guarded

/-- A fused plan that has a weight pass all the same. -/
def weighing : List Operation :=
  [.forward ⟨0, 0⟩ 0, .backward ⟨0, 0⟩ 0, .backwardWeights ⟨0, 0⟩ 0, .optimizerStep]

theorem timely_weighing : Timely (.single weighing) 0
    ((Run.ofIteration (.single weighing) (some [5])).cleared none) := by
  have suited : Suited (.single weighing) (some [5]) := by
    rintro given ⟨⟩
    rfl
  exact Attempted.timely (Fitted.single weighing) suited .alone

/-- The optimizer only waits for the weight passes of a split plan, but it does not mind them on
a fused one: they may number as many there. -/
theorem weighed_unsplit : ∃ turns, ∃ run next : Run Nat, ∃ answer,
    Drain ((Run.ofIteration (.single weighing) (some [5])).cleared none) turns run ∧
      Stride run (some ⟨.optimize, answer⟩) next ∧
      ¬ (((Drain.settled turns).filterMap Operation.weightKey?).length =
          (Plan.single weighing).passesPerRank ↔ (Plan.single weighing).split = true) := by
  have chosen : Drain ((Run.ofIteration (.single weighing) (some [5])).cleared none) _ _ :=
    .turn .start rfl (.own rfl)
  have called := (chosen.turn rfl
    (@Stride.ask Nat _ (.forward ⟨0, 0⟩ 0 (some 5)) _ rfl (.ok 1))).turn rfl (.own rfl)
  have returned := (called.turn rfl
    (@Stride.ask Nat _ (.backward ⟨0, 0⟩ 0 none) _ rfl (.ok 2))).turn rfl (.own rfl)
  have weighed := (returned.turn rfl
    (@Stride.ask Nat _ (.backwardWeights ⟨0, 0⟩ 0) _ rfl (.ok ()))).turn rfl (.own rfl)
  exact ⟨_, _, _, .error "", weighed, .ask rfl _, fun same => absurd (same.mp rfl) Bool.noConfusion⟩

end PipelineTraining
