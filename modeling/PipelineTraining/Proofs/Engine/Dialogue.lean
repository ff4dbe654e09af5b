import PipelineTraining.Cluster.Callbacks
import PipelineTraining.Proofs.Engine.Trial

/-!
Dialogues of runs with their surroundings: every question with the answer that came,
whatever that was. The run stays that of its rank all the while.
-/

namespace PipelineTraining

variable {α : Type}

inductive Dialogue (first : Run α) : List (Exchange α) → Run α → Prop
  | start : Dialogue first [] first
  | stride {log : List (Exchange α)} {run next : Run α} {exchange : Option (Exchange α)}
      (past : Dialogue first log run) (stride : Stride run exchange next) :
      Dialogue first (log ++ exchange.toList) next

namespace Run

theorem fail_eq_become (run : Run α) (guard : Option Guard) (fault : Fault) :
    ∃ phase, run.fail guard fault = run.become phase := by
  cases guard <;> exact ⟨_, rfl⟩

theorem beginAttempt_eq_become (run : Run α) (guard : Option Guard) :
    ∃ phase, run.beginAttempt guard = run.become phase := by
  unfold beginAttempt
  split
  · exact ⟨_, rfl⟩
  · split
    · exact ⟨_, rfl⟩
    · exact fail_eq_become run guard _

theorem decide_eq_become (run : Run α) (guard : Guard) (result : IterationResult α) :
    ∃ phase, run.decide guard result = run.become phase := by
  unfold decide
  split
  · exact fail_eq_become run _ _
  · dsimp only
    split
    · exact fail_eq_become run _ _
    · split
      · exact ⟨_, rfl⟩
      · exact ⟨_, rfl⟩
      · exact fail_eq_become run _ _

theorem finish_eq_become (run : Run α) (guard : Option Guard) (attempt : Attempt α) :
    ∃ phase, run.finish guard attempt =
      ({ run with worker := run.worker.flushed } : Run α).become phase := by
  cases guard with
  | none => exact ⟨_, rfl⟩
  | some guard => exact decide_eq_become _ guard _

theorem rollBackFailed_eq_become (run : Run α) (after : Aftermath) (source : String) :
    ∃ phase, run.rollBackFailed after source = run.become phase := by
  cases after <;> exact ⟨_, rfl⟩

theorem discarded_eq_become (run : Run α) (after : Aftermath) (answer : Except String Unit) :
    ∃ phase, run.discarded after answer = run.become phase := by
  cases answer with
  | error source => exact rollBackFailed_eq_become run after source
  | ok =>
      cases after with
      | fail fault => exact ⟨_, rfl⟩
      | retry guard =>
          simp only [discarded]
          split
          · exact ⟨_, rfl⟩
          · exact beginAttempt_eq_become run _

end Run

/-- What a turn leaves alone: the rank, its plan and the iteration that it is in. -/
structure Kin (run next : Run α) : Prop where
  rank : next.worker.rank = run.worker.rank
  plan : next.worker.plan = run.worker.plan
  operations : next.worker.operations = run.worker.operations
  validator : next.worker.validator = run.worker.validator
  seat : next.worker.seat = run.worker.seat
  counted : next.worker.iteration = run.worker.iteration
  limiter : run.worker.limiter.Alike next.worker.limiter
  iteration : next.iteration = run.iteration
  inputs : next.inputs = run.inputs

namespace Kin

variable {run next last : Run α}

theorem refl (run : Run α) : Kin run run :=
  ⟨rfl, rfl, rfl, rfl, rfl, rfl, .refl _, rfl, rfl⟩

theorem trans (first : Kin run next) (second : Kin next last) : Kin run last :=
  ⟨second.rank.trans first.rank, second.plan.trans first.plan,
    second.operations.trans first.operations, second.validator.trans first.validator,
    second.seat.trans first.seat, second.counted.trans first.counted,
    first.limiter.trans second.limiter, second.iteration.trans first.iteration,
    second.inputs.trans first.inputs⟩

theorem become (run : Run α) (phase : Phase α) : Kin run (run.become phase) :=
  ⟨rfl, rfl, rfl, rfl, rfl, rfl, .refl _, rfl, rfl⟩

theorem of_become (same : ∃ phase, next = run.become phase) : Kin run next := by
  obtain ⟨phase, rfl⟩ := same
  exact become run phase

theorem beginAttempt (run : Run α) (guard : Option Guard) : Kin run (run.beginAttempt guard) :=
  .of_become (run.beginAttempt_eq_become guard)

theorem abort (run : Run α) (guard : Option Guard) (fault : Fault) :
    Kin run (run.abort guard fault) := by
  have reset := run.worker.limiter.alike_reset
  cases guard <;> exact ⟨rfl, rfl, rfl, rfl, rfl, rfl, reset, rfl, rfl⟩

theorem finish (run : Run α) (guard : Option Guard) (attempt : Attempt α) :
    Kin run (run.finish guard attempt) := by
  have flushed : Kin run { run with worker := run.worker.flushed } :=
    ⟨rfl, rfl, rfl, rfl, rfl, rfl, .refl _, rfl, rfl⟩
  exact flushed.trans (.of_become (run.finish_eq_become guard attempt))

theorem of_tried {trial : Trial α} {exchange : Option (Exchange α)}
    (tried : Tried run trial exchange next) : Kin run next := by
  cases tried with
  | finish => exact finish run _ _
  | defer => exact become run _
  | take _ _ takes => exact ⟨rfl, rfl, rfl, rfl, rfl, rfl, takes.alike, rfl, rfl⟩
  | pass => exact ⟨rfl, rfl, rfl, rfl, rfl, rfl, .refl _, rfl, rfl⟩
  | wait => exact become run _
  | serve _ serves => exact ⟨rfl, rfl, rfl, rfl, rfl, rfl, serves.alike, rfl, rfl⟩
  | abort => exact abort run _ _
  | collapse alike => exact ⟨rfl, rfl, rfl, rfl, rfl, rfl, alike, rfl, rfl⟩

end Kin

theorem Stride.kin {run next : Run α} {exchange : Option (Exchange α)}
    (stride : Stride run exchange next) : Kin run next := by
  cases shown : run.phase.trial? with
  | some trial => exact .of_tried (Run.tried shown stride)
  | none =>
      obtain ⟨made, rfl, interlude⟩ := stride.interlude rfl shown
      generalize run.phase = phase at interlude
      cases interlude with
      | snapshot answer =>
          cases answer with
          | error source => exact .become run _
          | ok handle => exact .beginAttempt run _
      | clear => exact ⟨rfl, rfl, rfl, rfl, rfl, rfl, run.worker.limiter.alike_reset, rfl, rfl⟩
      | restore answer =>
          cases answer with
          | error source => exact .of_become (run.rollBackFailed_eq_become _ source)
          | ok => exact .become run _
      | discard answer => exact .of_become (run.discarded_eq_become _ answer)

def recording (reply : List (Exchange α) → (request : Request α) → request.Answer)
    (log : List (Exchange α)) (request : Request α) : List (Exchange α) × request.Answer :=
  (log ++ [⟨request, reply log request⟩], reply log request)

namespace Dialogue

variable {first run : Run α} {log : List (Exchange α)}

theorem kin (dialogue : Dialogue first log run) : Kin first run := by
  induction dialogue with
  | start => exact .refl first
  | stride _ stride ih => exact ih.trans stride.kin

/-- However a run is driven, that is a dialogue. -/
theorem drive (past : Dialogue first log run)
    (reply : List (Exchange α) → (request : Request α) → request.Answer) (turns : Nat) :
    Dialogue first (run.drive (recording reply) turns log).1
      (run.drive (recording reply) turns log).2 := by
  induction turns generalizing log run with
  | zero => exact past
  | succ turns ih =>
      unfold Run.drive
      cases turn : run.turn with
      | own next =>
          have onward := past.stride (.own turn)
          rw [Option.toList_none, List.append_nil] at onward
          exact ih onward
      | ask request resume => exact ih (past.stride (.ask turn (reply log request)))
      | _ => exact past

end Dialogue

end PipelineTraining
