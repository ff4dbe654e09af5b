import PipelineTraining.Proofs.Engine.NextOperation
import PipelineTraining.Proofs.Engine.Steady

/-!
How a run conducts itself. Every attempt begins anew, with nothing pending and nothing
to hand, and what it has to hand is what its own calls returned.
-/

namespace PipelineTraining

variable {α : Type}

namespace Run

def inHand? (run : Run α) : Option Operation :=
  run.phase.trial?.bind Trial.hand

inductive Returns (run : Run α) : Run α → IterationResult α → Prop
  | finish {guard : Option Guard} {attempt : Attempt α}
      (phase : run.phase = .choosing guard attempt) :
      Returns run (run.finish guard attempt) (run.result attempt)

def failure? (run : Run α) : Option Fault :=
  match run.phase with
  | .ended (.error fault) => some fault
  | .restoring _ (.fail fault) => some fault
  | .discarding (.fail fault) => some fault
  | _ => none

end Run

namespace Exchange

/-- A snapshot that could not be taken, gone back to or given up. -/
def loses : Exchange α → Bool
  | ⟨.snapshot, .error _⟩ => true
  | ⟨.restore _, .error _⟩ => true
  | ⟨.discard, .error _⟩ => true
  | _ => false

def produced (layout : Layout) (way : Way) (exchange : Exchange α) : Option (Nat × α) :=
  match way, exchange with
  | .forward, ⟨.forward stage microbatch _, .ok value⟩ =>
      (Way.forward.leaves? layout stage microbatch).map (·, value)
  | .backward, ⟨.backward stage microbatch _, .ok value⟩ =>
      (Way.backward.leaves? layout stage microbatch).map (·, value)
  | _, _ => none

end Exchange

structure Yielding (layout : Layout) (part : List (Exchange α)) (attempt : Attempt α) : Prop where
  outputs : attempt.outputs = part.filterMap (Exchange.produced layout .forward)
  inputGradients : attempt.inputGradients = part.filterMap (Exchange.produced layout .backward)

variable {run next : Run α} {trial onward : Trial α} {exchange : Option (Exchange α)}
  {plan : Plan} {rank : Nat} {script : List Operation}

structure Phase.Resting (phase : Phase α) : Prop where
  idle : phase.trial? = none
  unreported : ∀ report, phase ≠ .ended (.ok report)

namespace Run

theorem resting_fail (run : Run α) (guard : Option Guard) (fault : Fault) :
    (run.fail guard fault).phase.Resting := by
  cases guard <;> exact ⟨rfl, fun _ same => by cases same⟩

theorem resting_abort (run : Run α) (guard : Option Guard) (fault : Fault) :
    (run.abort guard fault).phase.Resting :=
  resting_fail _ guard fault

theorem resting_beginAttempt (run : Run α) (guard : Option Guard) :
    (run.beginAttempt guard).phase.Resting := by
  unfold beginAttempt
  split
  · exact ⟨rfl, fun _ same => by cases same⟩
  · split
    · exact ⟨rfl, fun _ same => by cases same⟩
    · exact resting_fail run guard _

theorem resting_discarded (run : Run α) (after : Aftermath) (answer : Except String Unit) :
    (run.discarded after answer).phase.Resting := by
  have ended : ∀ fault, (run.become (.ended (.error fault))).phase.Resting :=
    fun fault => ⟨rfl, fun _ same => by cases same⟩
  cases answer with
  | error source => cases after <;> exact ended _
  | ok =>
      cases after with
      | fail fault => exact ended fault
      | retry guard =>
          simp only [discarded]
          split
          · exact ended _
          · exact resting_beginAttempt run _

theorem trial?_of_called {worker : Worker} {run : Run α} {inputs : Option (List α)}
    (called : run = .ofIteration worker inputs ∨ run = .ofStep worker inputs) :
    run.phase.trial? = none := by
  have idle : (ofIteration worker inputs).phase.trial? = none :=
    (resting_beginAttempt _ none).idle
  rcases called with rfl | rfl
  · exact idle
  · unfold ofStep
    dsimp only
    split
    · rfl
    · exact idle

theorem trial?_decide (run : Run α) (guard : Guard) (result : IterationResult α) :
    (run.decide guard result).phase.trial? = none := by
  unfold decide
  split
  · rfl
  · dsimp only
    split
    · rfl
    · split <;> rfl

theorem trial?_finish (run : Run α) (guard : Option Guard) (attempt : Attempt α) :
    (run.finish guard attempt).phase.trial? = none := by
  cases guard with
  | none => rfl
  | some guard => exact trial?_decide _ guard _

theorem result_of_decide {guard : Guard} {result : IterationResult α} {report : StepReport α}
    (ended : (run.decide guard result).phase = .ended (.ok report)) : report.result = result := by
  unfold decide at ended
  split at ended
  · cases ended
  · dsimp only at ended
    split at ended
    · cases ended
    · split at ended
      · obtain rfl := Except.ok.inj (Phase.ended.inj ended)
        rfl
      · cases ended
      · cases ended

theorem result_of_finish {guard : Option Guard} {attempt : Attempt α} {report : StepReport α}
    (ended : (run.finish guard attempt).phase = .ended (.ok report)) :
    report.result = run.result attempt := by
  cases guard with
  | none =>
      obtain rfl := Except.ok.inj (Phase.ended.inj ended)
      rfl
  | some guard => exact result_of_decide ended

theorem trial?_of_free (shown : run.phase.trial? = some trial) (free : trial.hand = none) :
    run.phase = .choosing trial.guard trial.attempt := by
  cases phase : run.phase with
  | choosing guard attempt =>
      rw [phase] at shown
      obtain rfl := Option.some.inj shown
      rfl
  | forwarding | backwarding | weighing | sending | receiving | optimizing | preparing
  | gathering | consulting =>
      rw [phase] at shown
      obtain rfl := Option.some.inj shown
      cases free
  | snapshotting | clearing | restoring | discarding | ended =>
      rw [phase] at shown
      cases shown

theorem failure?_of_trial (shown : run.phase.trial? = some trial) : run.failure? = none := by
  unfold failure?
  cases here : run.phase with
  | restoring | discarding | ended =>
      rw [here] at shown
      cases shown
  | _ => rfl

theorem failure?_abort (run : Run α) (guard : Option Guard) (fault : Fault) :
    (run.abort guard fault).failure? = some fault := by
  cases guard <;> rfl

end Run

/-- Outside of an attempt a run only gets into one by dropping what is stale. -/
theorem Stride.idle (stride : Stride run exchange next) (idle : run.phase.trial? = none) :
    next.phase.Resting ∨ ∃ guard, run.phase = .clearing guard ∧ next = run.cleared guard ∧
      exchange = some ⟨.dropStale (run.epoch guard), ()⟩ := by
  obtain ⟨made, rfl, interlude⟩ := stride.interlude rfl idle
  generalize run.phase = phase at interlude
  cases interlude with
  | snapshot answer =>
      cases answer with
      | error source => exact Or.inl ⟨rfl, fun _ same => by cases same⟩
      | ok handle => exact Or.inl (Run.resting_beginAttempt run _)
  | clear => exact Or.inr ⟨_, rfl, rfl, rfl⟩
  | @restore _ after answer =>
      cases answer with
      | error source => cases after <;> exact Or.inl ⟨rfl, fun _ same => by cases same⟩
      | ok => exact Or.inl ⟨rfl, fun _ same => by cases same⟩
  | discard answer => exact Or.inl (Run.resting_discarded run _ answer)

namespace Yielding

variable {layout : Layout} {part : List (Exchange α)} {attempt : Attempt α}

theorem start (layout : Layout) (epoch : UInt32) (inputs : List (Option α))
    (operations : List Operation) : Yielding layout [] (.start epoch inputs operations) :=
  ⟨rfl, rfl⟩

theorem served {limiter after : Limiter} {served : Attempt α} {operation : Operation}
    (yielding : Yielding layout part attempt)
    (serves : Served layout rank limiter attempt operation exchange after served) :
    Yielding layout (part ++ exchange.toList) served := by
  obtain ⟨outputs, inputGradients⟩ := yielding
  cases serves with
  | @forward stage microbatch input value =>
      rw [Attempt.passOn_eq]
      constructor
      · simp only [List.filterMap_append, ← outputs]
        cases found : Way.forward.leaves? layout stage microbatch <;>
          simp [Exchange.produced, found]
      · simp only [List.filterMap_append, ← inputGradients]
        simp [Exchange.produced]
  | @backward stage microbatch gradient value =>
      rw [Attempt.passBack_eq]
      constructor
      · simp only [List.filterMap_append, ← outputs]
        simp [Exchange.produced]
      · simp only [List.filterMap_append, ← inputGradients]
        cases found : Way.backward.leaves? layout stage microbatch <;>
          simp [Exchange.produced, found]
  | weights | send | receive | optimizer | gather =>
      constructor <;> simp [Exchange.produced, Attempt.received, outputs, inputGradients]
  | sync => constructor <;> simp [outputs, inputGradients]

theorem tried (yielding : Yielding run.worker.plan.layout part trial.attempt)
    (tried : Tried run trial exchange next) (shown : next.phase.trial? = some onward) :
    Yielding run.worker.plan.layout (part ++ exchange.toList) onward.attempt := by
  cases tried with
  | finish =>
      rw [Run.trial?_finish] at shown
      cases shown
  | defer =>
      obtain rfl := Option.some.inj shown
      rw [Option.toList_none, List.append_nil]
      exact ⟨yielding.outputs, yielding.inputGradients⟩
  | take _ picks takes known _ =>
      obtain rfl := Option.some.inj (known.symm.trans shown)
      rw [Option.toList_none, List.append_nil, takes.same, picks.same]
      exact ⟨yielding.outputs, yielding.inputGradients⟩
  | pass _ picks _ =>
      obtain rfl := Option.some.inj shown
      rw [Option.toList_none, List.append_nil, picks.same]
      exact ⟨yielding.outputs, yielding.inputGradients⟩
  | @wait made phase _ asked known _ =>
      obtain rfl := Option.some.inj (known.symm.trans shown)
      obtain ⟨request, answer⟩ := made
      -- Waiting is for a sync, whose exchanges return no values.
      have silent : ∀ way,
          Exchange.produced run.worker.plan.layout way ⟨request, answer⟩ = none := by
        intro way
        cases request <;> cases asked <;> cases way <;> rfl
      constructor
      · rw [yielding.outputs, List.filterMap_append]
        simp [silent]
      · rw [yielding.inputGradients, List.filterMap_append]
        simp [silent]
  | serve _ serves =>
      obtain rfl := Option.some.inj shown
      obtain ⟨outputs, inputGradients⟩ := yielding.served serves
      exact ⟨outputs, inputGradients⟩
  | abort =>
      rw [(Run.resting_abort ..).idle] at shown
      cases shown
  | collapse => cases shown

end Yielding

def Run.share (run : Run α) (plan : Plan) (rank : Nat) (script : List Operation) (retry : Nat) :
    Task α :=
  ⟨plan, rank, script, run.iteration, retry, run.inputs⟩

structure Underway (plan : Plan) (rank : Nat) (script : List Operation) (part : List (Exchange α))
    (run : Run α) (trial : Trial α) : Prop where
  steady : Steady (run.share plan rank script trial.retry) run.worker.limiter trial
  labelled : run.phase.Labelled plan.microbatches
  yielding : Yielding plan.layout part trial.attempt

structure Conduct (plan : Plan) (rank : Nat) (script : List Operation) (part : List (Exchange α))
    (run : Run α) : Prop where
  fitted : Fitted plan rank script run.worker
  orderly : Orderly run.phase
  suited : Suited plan run.inputs
  underway : ∀ trial, run.phase.trial? = some trial → Underway plan rank script part run trial

namespace Conduct

variable {part later : List (Exchange α)}

theorem fared (playable : Playable plan rank script) (sound : plan.layout.Sound)
    (tagged : plan.layout.Tagged plan.microbatches) (conduct : Conduct plan rank script part run)
    (shown : run.phase.trial? = some trial) (stride : Stride run exchange next) :
    Fared (run.share plan rank script trial.retry) run trial exchange next :=
  (conduct.underway trial shown).steady.tried playable sound tagged conduct.fitted
    (Run.tried shown stride)

theorem cleared (conduct : Conduct plan rank script part run) (guard : Option Guard)
    {trial : Trial α} (shown : (run.cleared guard).phase.trial? = some trial) :
    Underway plan rank script [] (run.cleared guard) trial := by
  obtain ⟨placed, planned, scripted, limited, tracked⟩ := conduct.fitted
  obtain rfl := Option.some.inj shown
  have retry : (guard.map Guard.attempts).getD 0 =
      (Trial.mk (guard.map fun guard => { guard with attempts := guard.attempts + 1 })
        (Attempt.start (run.epoch guard) run.attemptInputs run.worker.operations) none).retry := by
    cases guard <;> rfl
  have standing : Standing ((run.cleared guard).share plan rank script _) [] [] script _ _ :=
    .cleared scripted limited tracked rfl rfl retry
  exact ⟨.free standing, trivial, .start ..⟩

theorem stride (playable : Playable plan rank script) (sound : plan.layout.Sound)
    (tagged : plan.layout.Tagged plan.microbatches) (conduct : Conduct plan rank script part run)
    (stride : Stride run exchange next)
    (onward : run.underway? = next.underway? → later = part ++ exchange.toList)
    (anew : run.underway? = none → next.underway?.isSome = true → later = []) :
    Conduct plan rank script later next := by
  refine ⟨conduct.fitted.kin stride.kin, conduct.orderly.stride stride,
    stride.kin.inputs ▸ conduct.suited, fun reached shown => ?_⟩
  have begun : next.underway? = some (next.iteration, reached.retry) := by
    rw [Run.underway?, shown]
    rfl
  -- Outside of an attempt there is nothing to keep; an attempt can only begin from there.
  cases before : run.phase.trial? with
  | none =>
      have idle : run.underway? = none := by rw [Run.underway?, before, Option.map_none]
      rw [anew idle (by rw [begun]; rfl)]
      rcases stride.idle before with resting | ⟨guard, _, rfl, rfl⟩
      · rw [resting.idle] at shown
        cases shown
      · exact conduct.cleared guard shown
  | some trial =>
      have tried := Run.tried before stride
      cases conduct.fared playable sound tagged before stride with
      | @on _ _ other known guarded steady labelled =>
          -- The attempt is still the same, and its share and its calls go on with it.
          obtain rfl : reached = other := Option.some.inj (shown.symm.trans known)
          have retry : trial.retry = reached.retry := by rw [Trial.retry, Trial.retry, guarded]
          have share : run.share plan rank script trial.retry =
              next.share plan rank script reached.retry := by
            rw [Run.share, Run.share, stride.kin.iteration, stride.kin.inputs, retry]
          have same : run.underway? = next.underway? := by
            rw [begun, Run.underway?, before, Option.map_some, retry, stride.kin.iteration]
          have yielding := (conduct.underway trial before).yielding
          rw [← conduct.fitted.planned] at yielding
          rw [onward same]
          refine ⟨share ▸ steady, labelled, ?_⟩
          rw [← conduct.fitted.planned]
          exact yielding.tried tried shown
      | returned =>
          rw [Run.trial?_finish] at shown
          cases shown
      | broken =>
          rw [(Run.resting_abort ..).idle] at shown
          cases shown

/-- An attempt holds what its own passes have returned. -/
theorem returned {result : IterationResult α} (conduct : Conduct plan rank script part run)
    (returns : run.Returns next result) :
    result.outputs = part.filterMap (Exchange.produced plan.layout .forward) ∧
      result.inputGradients = part.filterMap (Exchange.produced plan.layout .backward) := by
  cases returns with
  | finish phase =>
      obtain ⟨outputs, inputGradients⟩ := (conduct.underway _ (by rw [phase]; rfl)).yielding
      exact ⟨outputs, inputGradients⟩

/-- An attempt whose own calls succeed returns or breaks off over a message. -/
theorem ends (playable : Playable plan rank script) (sound : plan.layout.Sound)
    (tagged : plan.layout.Tagged plan.microbatches) (conduct : Conduct plan rank script part run)
    (stride : Stride run exchange next) (begun : run.underway?.isSome = true)
    (ended : next.underway? = none) (fine : ∀ made ∈ exchange, made.fails = false) :
    (∃ result, run.Returns next result) ∨
      ∃ fault, next.failure? = some fault ∧ fault.isDelivery = true := by
  obtain ⟨trial, shown⟩ : ∃ trial, run.phase.trial? = some trial := by
    rw [Run.underway?, Option.isSome_map] at begun
    exact Option.isSome_iff_exists.mp begun
  cases conduct.fared playable sound tagged shown stride with
  | on known =>
      rw [Run.underway?, known] at ended
      cases ended
  | returned free => exact Or.inl ⟨_, .finish (Run.trial?_of_free shown free)⟩
  | @broken made fault failed =>
      rcases failed with failed | ⟨_, delivery⟩
      · rw [fine made rfl] at failed
        cases failed
      · exact Or.inr ⟨fault, Run.failure?_abort run trial.guard fault, delivery⟩

/-- Outside of its attempts a run fails only over its snapshot. -/
theorem loses (conduct : Conduct plan rank script part run) (stride : Stride run exchange next)
    (idle : run.underway? = none) (sane : run.failure? = none) {fault : Fault}
    (failed : next.failure? = some fault) : ∃ made, exchange = some made ∧ made.loses = true := by
  have suited : Suited run.worker.plan run.inputs := conduct.fitted.planned.symm ▸ conduct.suited
  rw [Run.underway?, Option.map_eq_none_iff] at idle
  obtain ⟨made, rfl, interlude⟩ := stride.interlude rfl idle
  refine ⟨made, rfl, ?_⟩
  have orderly := conduct.orderly
  unfold Run.failure? at sane
  generalize run.phase = phase at orderly sane interlude
  cases interlude with
  | snapshot answer =>
      cases answer with
      | error source => rfl
      | ok handle =>
          rw [Run.snapshotTaken_of_suited suited] at failed
          cases failed
  | clear => cases failed
  | @restore _ after answer =>
      cases answer with
      | error source => rfl
      | ok =>
          cases after with
          | retry guard => cases failed
          | fail fault => cases sane
  | @discard after answer =>
      cases answer with
      | error source => rfl
      | ok =>
          cases after with
          | fail fault => cases sane
          | retry guard =>
              -- The cycle is rolled back and can begin its retry; the inputs were right before.
              obtain ⟨_, rank, cycle⟩ := orderly.discarded guard rfl
              rw [Run.discarded_of_rolledBack suited cycle] at failed
              cases failed

end Conduct

/-- A run is about to move the payload of a transfer of its script, under the tag of its attempt. -/
structure Labelling (plan : Plan) (script : List Operation) (run : Run α) (operation : Operation)
    (transfer : Transfer) (tag : Tag) : Prop where
  hand : run.inHand? = some operation
  listed : operation ∈ script
  labelled : ∃ retry ≤ 1, run.underway? = some (run.iteration, retry) ∧
    transfer.tag plan.microbatches (attemptEpoch run.iteration retry) = .ok tag

namespace Conduct

variable {part : List (Exchange α)} {peer : Nat} {tag : Tag} {payload : α}

theorem labelling {operation : Operation} {transfer : Transfer}
    (conduct : Conduct plan rank script part run) (shown : run.phase.trial? = some trial)
    (held : trial.hand = some operation)
    (tags : transfer.tag plan.microbatches trial.attempt.epoch = .ok tag) :
    Labelling plan script run operation transfer tag := by
  have steady := (conduct.underway trial shown).steady
  refine ⟨?_, steady.listed held, trial.retry, conduct.orderly.retry_le shown, ?_, ?_⟩
  · rw [Run.inHand?, shown]
    exact held
  · rw [Run.underway?, shown]
    rfl
  · rw [steady.epoch] at tags
    exact tags

theorem sends {answer : (Request.send peer tag payload).Answer}
    (conduct : Conduct plan rank script part run)
    (stride : Stride run (some ⟨.send peer tag payload, answer⟩) next) :
    ∃ transfer, Labelling plan script run (.send peer transfer) transfer tag := by
  cases stride with
  | ask turn =>
      cases phase : run.phase with
      | sending guard attempt other transfer label value =>
          simp only [Run.turn, phase] at turn
          cases turn
          have shown : run.phase.trial? = some ⟨guard, attempt, some (.send peer transfer)⟩ := by
            rw [phase]
            rfl
          have labelled := (conduct.underway _ shown).labelled
          rw [phase] at labelled
          exact ⟨transfer, conduct.labelling shown rfl labelled⟩
      | gathering guard attempt gather =>
          cases move : gather.move <;> simp only [Run.turn, phase, move] at turn <;> cases turn
      | _ =>
          simp only [Run.turn, phase] at turn
          cases turn

theorem receives {answer : (Request.receive (α := α) peer tag).Answer}
    (conduct : Conduct plan rank script part run)
    (stride : Stride run (some ⟨.receive peer tag, answer⟩) next) :
    ∃ transfer, Labelling plan script run (.receive peer transfer) transfer tag := by
  cases stride with
  | ask turn =>
      cases phase : run.phase with
      | receiving guard attempt other transfer label =>
          simp only [Run.turn, phase] at turn
          cases turn
          have shown : run.phase.trial? = some ⟨guard, attempt, some (.receive peer transfer)⟩ := by
            rw [phase]
            rfl
          have labelled := (conduct.underway _ shown).labelled
          rw [phase] at labelled
          exact ⟨transfer, conduct.labelling shown rfl labelled⟩
      | gathering guard attempt gather =>
          cases move : gather.move <;> simp only [Run.turn, phase, move] at turn <;> cases turn
      | _ =>
          simp only [Run.turn, phase] at turn
          cases turn

end Conduct

/-- Whatever came before, an attempt begins by dropping what is stale, with nothing pending. -/
theorem Stride.opens {attempt : Nat × Nat} (stride : Stride run exchange next)
    (idle : run.underway? = none) (begun : next.underway? = some attempt) :
    attempt = (run.iteration, run.phase.begun) ∧
      exchange = some ⟨.dropStale (attemptEpoch attempt.1 attempt.2), ()⟩ ∧
      ∀ rank, next.worker.limiter.pendingOn rank = 0 := by
  rw [Run.underway?, Option.map_eq_none_iff] at idle
  rcases stride.idle idle with resting | ⟨guard, phase, rfl, rfl⟩
  · rw [Run.underway?, resting.idle] at begun
    cases begun
  · have counted : attempt = (run.iteration, run.phase.begun) := by
      rw [phase]
      cases guard <;> exact (Option.some.inj begun).symm
    subst counted
    refine ⟨rfl, by rw [phase]; rfl, fun rank => ?_⟩
    simp only [Run.cleared, Limiter.pendingOn, Limiter.reset, List.getElem?_map]
    cases run.worker.limiter.pending[rank]? <;> rfl

theorem Run.Returns.underway {result : IterationResult α} (returns : run.Returns next result) :
    ∃ attempt, run.underway? = some attempt ∧ result.iteration = attempt.1 := by
  cases returns with
  | finish phase => exact ⟨_, by rw [Run.underway?, phase]; rfl, rfl⟩

def Run.Past (run : Run α) (attempt : Nat × Nat) : Prop :=
  attempt.1 < run.iteration ∨ attempt.1 = run.iteration ∧ attempt.2 < run.phase.begun

theorem Run.not_past (run : Run α) : ¬ run.Past (run.iteration, run.phase.begun) := by
  unfold Past
  omega

theorem Run.Past.stride {attempt : Nat × Nat} (past : run.Past attempt)
    (orderly : Orderly run.phase) (stride : Stride run exchange next) : next.Past attempt := by
  have more := stride.begun_le orderly
  unfold Run.Past at past ⊢
  rw [stride.kin.iteration]
  omega

theorem Stride.past {attempt : Nat × Nat} (stride : Stride run exchange next)
    (orderly : Orderly run.phase) (underway : run.underway? = some attempt) :
    next.Past attempt := by
  obtain ⟨trial, shown, rfl⟩ := Option.map_eq_some_iff.mp underway
  have begun := Phase.begun_of_trial shown
  exact Run.Past.stride (Or.inr ⟨rfl, by omega⟩) orderly stride

/-- A run that ends well reports what its last attempt returned. -/
theorem Stride.reported {report : StepReport α} (stride : Stride run exchange next)
    (ended : next.phase = .ended (.ok report)) : run.Returns next report.result := by
  cases shown : run.phase.trial? with
  | none =>
      rcases stride.idle shown with resting | ⟨guard, _, rfl, _⟩
      · exact absurd ended (resting.unreported report)
      · cases ended
  | some trial =>
      cases Run.tried shown stride with
      | finish free =>
          rw [Run.result_of_finish ended]
          exact .finish (Run.trial?_of_free shown free)
      | defer | pass | serve | collapse => cases ended
      | take _ _ _ known =>
          obtain rfl := ended
          cases known
      | wait _ _ known =>
          obtain rfl := ended
          cases known
      | abort => exact absurd ended ((Run.resting_abort ..).unreported report)

end PipelineTraining
