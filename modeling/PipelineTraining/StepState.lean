/-!
Where a training step stands between its optimizer update and the verdict on it.
-/

namespace PipelineTraining

inductive StepState where
  | applied
  | validating
  | committed
  | rolledBack
  | retrying
  | divergent
deriving DecidableEq

namespace StepState

def text : StepState → String
  | .applied => "applied"
  | .validating => "validating"
  | .committed => "committed"
  | .rolledBack => "rolled_back"
  | .retrying => "retrying"
  | .divergent => "divergent"

end StepState
end PipelineTraining
