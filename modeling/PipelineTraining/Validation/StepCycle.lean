import PipelineTraining.Validation.Comparison

/-!
The course of one training step from its optimizer update to the verdict. A
mismatch rolls the step back and lets it be tried once more; a second mismatch
is a divergence.
-/

namespace PipelineTraining

inductive StepAction where
  | commit
  | rollBackAndRetry
deriving DecidableEq

structure StepCycle where
  rank : Nat
  state : StepState
  retries : Nat
deriving DecidableEq

namespace StepCycle

def maxRetries : Nat := 1

def start (rank : Nat) : StepCycle := ⟨rank, .applied, 0⟩

def move (cycle : StepCycle) (current target : StepState) : Except Fault StepCycle :=
  if cycle.state = current then .ok { cycle with state := target }
  else .error (.invariant cycle.rank (.noMove target cycle.state))

def beginValidation (cycle : StepCycle) : Except Fault StepCycle :=
  cycle.move .applied .validating

def beginRetry (cycle : StepCycle) : Except Fault StepCycle :=
  (cycle.move .rolledBack .retrying).map fun next => { next with retries := next.retries + 1 }

/-- Takes a verdict in. The cycle moves on also where the answer is a fault. -/
def judge (cycle : StepCycle) (outcome : Outcome) : StepCycle × Except Fault StepAction :=
  match cycle.state, outcome with
  | .validating, .consistent => ({ cycle with state := .committed }, .ok .commit)
  | .retrying, .consistent => ({ cycle with state := .committed }, .ok .commit)
  | .validating, .mismatch .. => ({ cycle with state := .rolledBack }, .ok .rollBackAndRetry)
  | .retrying, .mismatch own other =>
      ({ cycle with state := .divergent }, .error (.divergence own other cycle.retries))
  | state, _ => (cycle, .error (.invariant cycle.rank (.outcomeIn state)))

end StepCycle
end PipelineTraining
