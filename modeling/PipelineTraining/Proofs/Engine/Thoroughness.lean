import PipelineTraining.Proofs.Engine.Atomicity
import PipelineTraining.Proofs.Engine.Drain

/-!
An attempt at any plan is thorough. It takes every operation up at most once and ends after
two rounds for each of them. If it returns, it has executed all. If no call failed and no
message was refused its tag, and it does not return, it names those that it has not executed,
and the time of none has come.
-/

namespace PipelineTraining

variable {α : Type}

/-- A call of the callbacks, the transport, the validator or the limiter that failed. -/
inductive Foul (run : Run α) : Exchange α → Fault → Prop
  | call {exchange : Exchange α} {fault : Fault}
      (failed : exchange.fails = true ∨ exchange.strays = true) :
      Foul run exchange fault
  | uncounted {stage : StageId} {microbatch : Nat} {gradient : Option α} {value : α} {fault : Fault}
      (refused : run.worker.limiter.complete run.worker.rank = .error fault) :
      Foul run ⟨.backward stage microbatch gradient, .ok value⟩ fault

inductive Concluded (operations : List Operation) (turns : List (Run α × Option (Exchange α)))
    (run : Run α) (trial : Trial α) (exchange : Option (Exchange α)) : Run α → Prop
  | returned {next : Run α} {result : IterationResult α} (returns : run.Returns next result)
      (all : (Drain.taken turns).Perm operations) (executed : result.executed = operations.length) :
      Concluded operations turns run trial exchange next
  | failed {made : Exchange α} {fault : Fault} (asked : exchange = some made)
      (foul : Foul run made fault) :
      Concluded operations turns run trial exchange (run.abort trial.guard fault)
  -- The tag is made before the transport is asked for anything.
  | untagged {operation : Operation} {transfer : Transfer} {fault : Fault}
      (silent : exchange = none) (picks : run.picks? = some operation)
      (moves : operation.payload? = some transfer)
      (refused : transfer.tag run.worker.plan.microbatches trial.attempt.epoch = .error fault) :
      Concluded operations turns run trial exchange (run.abort trial.guard fault)
  | stuck {left : List Operation} (silent : exchange = none) (some : left ≠ [])
      (rest : (Drain.taken turns ++ left).Perm operations)
      (order : left.Sublist (Drain.putOff turns))
      (late : ∀ operation ∈ left, trial.attempt.isReady run.worker.plan run.worker.rank
        run.worker.limiter operation = false) :
      Concluded operations turns run trial exchange
        (run.abort trial.guard (.invariant run.worker.rank (.stuck left)))

/-- An attempt that drops no operation, repeats none and comes to an end, whatever it is
answered. A round takes an operation up or puts one off. -/
structure Thorough (operations : List Operation) (members : Nat) (first : Run α) : Prop where
  once : ∀ {turns run}, Drain first turns run → (Drain.taken turns).Subperm operations
  order : ∀ {turns run}, Drain first turns run → (Drain.putOff turns).Sublist operations
  rounds : ∀ {turns run}, Drain first turns run →
    (Drain.taken turns).length + (Drain.putOff turns).length ≤ 2 * operations.length
  turns : ∀ {turns run}, Drain first turns run → turns.length ≤
    3 * operations.length + (2 * members + 1) * operations.count .validationSync + 1
  onward : ∀ {turns run trial}, Drain first turns run → run.phase.trial? = some trial →
    ∃ exchange next, Stride run exchange next
  concludes : ∀ {turns run trial exchange next}, Drain first turns run →
    run.phase.trial? = some trial → Stride run exchange next → next.phase.trial? = none →
    Concluded operations turns run trial exchange next

/-- A run about to make an attempt: the only one of an iteration by itself, or one of those of a
guarded step. -/
inductive Attempted (worker : Worker) (inputs : Option (List α)) : Run α → Option Guard → Prop
  | alone : Attempted worker inputs (.ofIteration worker inputs) none
  | guarded {log : List (Exchange α)} {run : Run α} {guard : Option Guard}
      (dialogue : Dialogue (.ofStep worker inputs) log run) (phase : run.phase = .clearing guard) :
      Attempted worker inputs run guard

variable {plan : Plan} {rank : Nat} {operations behind : List Operation}
  {turns : List (Run α × Option (Exchange α))} {begun run next first : Run α}
  {trial : Trial α} {exchange : Option (Exchange α)} {guard : Option Guard}
  {worker : Worker} {inputs : Option (List α)}

theorem Fitted.of_make {members : Nat} (made : Worker.make plan rank members = .ok worker) :
    ∃ rankPlan, plan.rankPlan? rank = some rankPlan ∧
      Fitted plan rank rankPlan.operations worker := by
  unfold Worker.make at made
  split at made
  · cases made
  · split at made
    · cases made
    · next rankPlan found =>
      obtain ⟨limiter, limits, rfl⟩ : ∃ limiter,
          Limiter.make plan.ranks.length plan.memoryLimit = .ok limiter ∧ _ = worker := by
        cases limits : Limiter.make plan.ranks.length plan.memoryLimit with
        | error fault => rw [limits] at made; cases made
        | ok limiter =>
            rw [limits] at made
            exact ⟨limiter, rfl, Except.ok.inj made⟩
      unfold Limiter.make at limits
      split at limits
      · cases limits
      · obtain rfl := Except.ok.inj limits
        refine ⟨rankPlan, found, rfl, rfl, rfl, rfl, ?_⟩
        rw [List.length_replicate]
        exact (List.getElem?_eq_some_iff.mp found).1

/-- There is always something to say, so a run in an attempt can always make its next turn. -/
theorem Stride.exists (shown : run.phase.trial? = some trial) :
    ∃ exchange next, Stride run exchange next := by
  cases turn : run.turn with
  | «over» result =>
      cases phase : run.phase with
      | ended => rw [phase] at shown; cases shown
      | gathering guard attempt gather =>
          cases move : gather.move <;> simp only [Run.turn, phase, move] at turn <;> cases turn
      | _ =>
          simp only [Run.turn, phase] at turn
          cases turn
  | own next => exact ⟨none, next, .own turn⟩
  | ask request resume =>
      have answer : Nonempty request.Answer := by
        cases request with
        | dropStale | dropPublished => exact ⟨()⟩
        | send | receive | publish | collect => exact ⟨.error (.disconnected 0)⟩
        | gather => exact ⟨.ok []⟩
        | _ => exact ⟨.error ""⟩
      obtain ⟨answer⟩ := answer
      exact ⟨_, _, .ask turn answer⟩

namespace Drain

theorem turns_le (drain : Drain first turns run) (shown : run.phase.trial? = some trial) :
    turns.length + run.turnsAhead ≤ first.turnsAhead := by
  induction drain generalizing trial with
  | start => simp
  | @turn turns run next before exchange past here stride ih =>
      have nearer := stride.nearer here shown
      have spent := ih here
      rw [List.length_append, List.length_singleton]
      omega

theorem turns_le_all (drain : Drain first turns run) (begun : first.phase.trial?.isSome = true) :
    turns.length ≤ first.turnsAhead := by
  cases drain with
  | start => exact Nat.zero_le _
  | @turn turns run next before exchange past here stride =>
      have spent := past.turns_le here
      have last : 0 < run.turnsAhead := by
        rw [Run.turnsAhead, here]
        exact Nat.succ_pos _
      rw [List.length_append, List.length_singleton]
      omega

theorem looked (fitted : Fitted plan rank operations begun.worker)
    (drain : Drain (begun.cleared guard) turns run) :
    (taken turns).Subperm operations ∧ (putOff turns).Sublist operations := by
  cases drain with
  | start => exact ⟨List.nil_subperm, List.nil_sublist _⟩
  | turn past shown stride =>
      obtain ⟨behind, reckoning⟩ := past.reckoning fitted shown
      rw [taken_snoc, putOff_snoc]
      exact reckoning.looks shown

/-- An attempt ends because it returns, because a call failed, because a message has no tag or
because it is stuck. -/
theorem concludes (fitted : Fitted plan rank operations begun.worker)
    (placed : plan.layout.places = true) (drain : Drain (begun.cleared guard) turns run)
    (shown : run.phase.trial? = some trial) (stride : Stride run exchange next)
    (ended : next.phase.trial? = none) : Concluded operations turns run trial exchange next := by
  obtain ⟨behind, reckoning⟩ := drain.reckoning fitted shown
  have ahead := reckoning.ahead
  rw [Trial.ahead, ← List.append_assoc, ← reckoning.taken] at ahead
  cases held : trial.hand with
  | none =>
      obtain ⟨rfl, looked⟩ := Run.looked shown held stride
      cases looked with
      | finish _ waited through =>
          rw [waited, through, List.append_nil, List.append_nil] at ahead
          have taken := reckoning.taken
          rw [held, Option.toList_none, List.append_nil] at taken
          refine .returned (.finish (Run.trial?_of_free shown held)) ahead ?_
          cases reckoning.tallied with
          | free tally => exact tally.executed.trans (taken ▸ ahead.length_eq)
          | busy => cases held
      | stuck _ left through late =>
          rw [through, List.append_nil] at ahead
          exact .stuck rfl left ahead reckoning.queued late
      | defer => cases ended
      | start picking defers picks starts =>
          cases starts with
          | take _ known => cases known.symm.trans ended
          | pass => cases ended
          | refuse moves refused =>
              rw [picks.same] at refused
              exact .untagged rfl picking moves refused
  | some operation =>
      cases Run.tried shown stride with
      | finish free | defer free | take free | pass free =>
          rw [held] at free
          cases free
      | wait _ _ known => cases known.symm.trans ended
      | serve => cases ended
      | abort halted =>
          cases halted with
          | stuck free | refuse free =>
              rw [held] at free
              cases free
          | uncounted _ missing => exact .failed rfl (.uncounted missing)
          | fail _ _ failed => exact .failed rfl (.call (failed.imp_right And.left))
      | collapse _ unplaced =>
          rw [(drain.fitted fitted).planned, placed] at unplaced
          cases unplaced

/-- Whatever the plan is and whatever it is answered, an attempt is thorough. -/
theorem thorough_of_fitted (fitted : Fitted plan rank operations begun.worker)
    (placed : plan.layout.places = true) :
    Thorough operations begun.worker.seat.members (begun.cleared guard) where
  once drain := (drain.looked fitted).1
  order drain := (drain.looked fitted).2
  rounds drain := by
    have taken := (drain.looked fitted).1.length_le
    have putOff := (drain.looked fitted).2.length_le
    omega
  turns drain := by
    have span := Operation.sum_span begun.worker.seat.members begun.worker.operations
    have turns := drain.turns_le_all rfl
    rw [Run.turnsAhead_cleared_eq, fitted.scripted] at turns
    rw [fitted.scripted] at span
    omega
  onward _ shown := Stride.exists shown
  concludes drain := drain.concludes fitted placed

end Drain

theorem Fitted.called (fitted : Fitted plan rank operations worker) :
    Fitted plan rank operations (Run.ofIteration worker inputs).worker ∧
      Fitted plan rank operations (Run.ofStep worker inputs).worker := by
  let entry : Run α :=
    ⟨{ worker with iteration := worker.iteration + 1 }, worker.iteration, inputs, .clearing none⟩
  have entered : Fitted plan rank operations entry.worker :=
    ⟨fitted.placed, fitted.planned, fitted.scripted, fitted.limited, fitted.tracked⟩
  have iteration : Kin entry (.ofIteration worker inputs) := .beginAttempt entry none
  refine ⟨entered.kin iteration, entered.kin (iteration.trans ?_)⟩
  unfold Run.ofStep
  dsimp only
  split
  · exact .become _ _
  · exact .refl _

theorem Attempted.due (fitted : Fitted plan rank operations worker) (suited : Suited plan inputs)
    (attempted : Attempted worker inputs run guard) :
    Fitted plan rank operations run.worker ∧ run.phase = .clearing guard := by
  cases attempted with
  | alone =>
      refine ⟨fitted.called.1, ?_⟩
      rw [Run.ofIteration, Run.beginAttempt_of_suited (fitted.planned ▸ suited)]
      rfl
  | guarded dialogue phase => exact ⟨fitted.called.2.kin dialogue.kin, phase⟩

/-- An attempt at any plan drops no operation, repeats none and always comes to an end. -/
theorem Attempted.thorough (fitted : Fitted plan rank operations worker)
    (suited : Suited plan inputs) (placed : plan.layout.places = true)
    (attempted : Attempted worker inputs run guard) :
    run.turn = .ask (.dropStale (run.epoch guard)) (fun _ => run.cleared guard) ∧
      Thorough operations run.worker.seat.members (run.cleared guard) := by
  obtain ⟨here, phase⟩ := attempted.due fitted suited
  exact ⟨by simp only [Run.turn, phase], Drain.thorough_of_fitted here placed⟩

/-- One rank with one stage and one micro-batch, its backwards fused, and any operations. -/
def Plan.single (operations : List Operation) : Plan where
  layout := ⟨1, 1, 1, .interleaved⟩
  microbatches := 1
  memoryLimit := 1
  split := false
  validates := false
  ranks := [⟨0, operations⟩]
  statistics := ⟨0, [], []⟩

def Worker.single (operations : List Operation) : Worker where
  rank := 0
  plan := .single operations
  operations := operations
  limiter := ⟨1, [0], [0]⟩
  validator := .disabled
  seat := ⟨0, 1⟩
  recorder := .make .disabled
  sink := .silent
  timeout := usualTimeout
  iteration := 4

theorem Fitted.single (operations : List Operation) :
    Fitted (.single operations) 0 operations (.single operations) :=
  ⟨rfl, rfl, rfl, rfl, Nat.one_pos⟩

/-- A plan without a backward, whose attempt is stuck on the optimizer step. -/
theorem thorough_stuck :
    let operations : List Operation := [.optimizerStep, .forward ⟨0, 0⟩ 0]
    let run : Run Nat := .ofIteration (.single operations) (some [5])
    Thorough operations 1 (run.cleared none) ∧
      (run.drive (recording Run.unoptimized) 10 []).2.phase =
        .ended (.error (.invariant 0 (.stuck [.optimizerStep]))) := by
  refine ⟨?_, rfl⟩
  have suited : Suited (.single [.optimizerStep, .forward ⟨0, 0⟩ 0]) (some [5]) := by
    rintro given ⟨⟩
    rfl
  exact (Attempted.thorough (Fitted.single _) suited rfl .alone).2

/-- A fingerprint that a plan moves like an activation. -/
def signing : List Operation :=
  [.receive 0 ⟨.fingerprint, ⟨0, 0⟩, ⟨0, 0⟩, 0⟩]

/-- No call failed and the attempt did not return, but its fault is that of the tag. -/
theorem unthorough_untagged : ∃ turns, ∃ run next : Run Nat, ∃ fault,
    Drain ((Run.ofIteration (.single signing) (some [5])).cleared none) turns run ∧
      Stride run none next ∧ (∀ turn ∈ turns, turn.2 = none) ∧
      next.phase = .ended (.error (.configuration fault)) := by
  refine ⟨_, _, _, _, .start, .own rfl, ?_, rfl⟩
  rintro turn ⟨⟩

end PipelineTraining
