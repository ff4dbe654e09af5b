import PipelineTraining.Clock.WorkOrder
import PipelineTraining.Fault

/-!
What a rank does on the simulated clock, and what each action costs in ticks.
-/

namespace PipelineTraining

/-- Ticks of each kind of pass and of a transfer between two ranks. Handing a payload on
within a rank is free. -/
structure CostModel where
  forward : Nat
  backward : Nat
  weight : Nat
  transfer : Nat
deriving DecidableEq

namespace CostModel

def uniform : CostModel := ⟨1, 1, 1, 0⟩

def check (cost : CostModel) : Except Fault Unit :=
  if cost.forward = 0 then .error (.configuration .freeForward)
  else if cost.backward = 0 then .error (.configuration .freeBackward)
  else if cost.weight = 0 then .error (.configuration .freeWeights)
  else .ok ()

end CostModel

inductive Action where
  | forward (pass : Pass)
  | backward (pass : Pass)
  | weights (pass : Pass)
deriving DecidableEq

namespace Action

def cost (model : CostModel) : Action → Nat
  | .forward _ => model.forward
  | .backward _ => model.backward
  | .weights _ => model.weight

def operation : Action → Operation
  | .forward pass => .forward pass.1 pass.2
  | .backward pass => .backward pass.1 pass.2
  | .weights pass => .backwardWeights pass.1 pass.2

end Action

structure TimedAction where
  action : Action
  start : Nat
  finish : Nat
deriving DecidableEq

namespace TimedAction

def text (timed : TimedAction) : String :=
  s!"{timed.action.operation.text}[{timed.start},{timed.finish}]"

def textAll (timeline : List TimedAction) : String :=
  " ".intercalate (timeline.map text)

end TimedAction
end PipelineTraining
