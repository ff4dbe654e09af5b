import PipelineTraining.Document.Timing
import PipelineTraining.Engine.Attempt
import PipelineTraining.Validation.Gather
import PipelineTraining.Validation.StepCycle
import PipelineTraining.Validation.Validator

/-!
A rank at work on its plan: what it keeps from one iteration to the next.
-/

namespace PipelineTraining

structure Seat where
  member : Nat
  members : Nat

structure Worker where
  rank : Nat
  plan : Plan
  operations : List Operation
  limiter : Limiter
  validator : Validator
  seat : Seat
  recorder : Recorder
  sink : Sink
  timeout : Duration
  iteration : Nat

namespace Worker

def usualTimeout : Duration := .ofMilliseconds 60000

/-- A rank of a group of `members`. The group must have one rank for every rank of the plan. -/
def make (plan : Plan) (rank members : Nat) : Except Fault Worker :=
  if members ≠ plan.ranks.length then
    .error (.configuration (.groupSize plan.ranks.length members))
  else
    match plan.rankPlan? rank with
    | none => .error (.invariant rank .noPlan)
    | some rankPlan =>
        (Limiter.make plan.ranks.length plan.memoryLimit).map fun limiter => {
          rank := rank
          plan := plan
          operations := rankPlan.operations
          limiter := limiter
          validator := .disabled
          seat := ⟨0, 1⟩
          recorder := .make .disabled
          sink := .silent
          timeout := usualTimeout
          iteration := 0 }

/-- A validator at work needs a plan that ends in a sync. -/
def withValidator (worker : Worker) (validator : Validator) (seat : Seat) : Except Fault Worker :=
  if validator.isEnabled && !worker.plan.validates then .error (.configuration .syncMissing)
  else .ok { worker with validator := validator, seat := seat }

def withProfiling (worker : Worker) (window : Window) (sink : Sink) : Worker :=
  { worker with recorder := .make window, sink := sink }

/-- A failing callback of the whole rank counts as one of its first stage. -/
def rankFault (worker : Worker) (source : String) : Fault :=
  .compute worker.rank (worker.plan.layout.stage worker.rank 0).logical none .optimizerStep source

def passFault (worker : Worker) (kind : OperationKind) (stage : StageId) (microbatch : Nat)
    (source : String) : Fault :=
  .compute worker.rank stage.logical (some microbatch) kind source

def recorded (worker : Worker) (operation : Operation) : Worker :=
  { worker with recorder := worker.recorder.record worker.rank operation 0 0 }

def flushed (worker : Worker) : Worker :=
  let flush := worker.recorder.flush worker.sink
  { worker with recorder := flush.1, sink := flush.2.1 }

end Worker
end PipelineTraining
