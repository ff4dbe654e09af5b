import PipelineTraining.Layout

/-!
The units of work in a rank's plan: passes over a micro-batch, transfers
between ranks, the optimizer step and the validation behind it.
-/

namespace PipelineTraining

/-- What a message carries. Fingerprints travel between replicas and are part of no plan. -/
inductive TransferKind where
  | activation
  | gradient
  | fingerprint
deriving DecidableEq

namespace TransferKind

def text : TransferKind → String
  | .activation => "activation"
  | .gradient => "gradient"
  | .fingerprint => "fingerprint"

end TransferKind

structure Transfer where
  kind : TransferKind
  source : StageId
  target : StageId
  microbatch : Nat
deriving DecidableEq

namespace Transfer

def activation (source target : StageId) (microbatch : Nat) : Transfer :=
  ⟨.activation, source, target, microbatch⟩

def gradient (source target : StageId) (microbatch : Nat) : Transfer :=
  ⟨.gradient, source, target, microbatch⟩

end Transfer

inductive OperationKind where
  | forward
  | backward
  | backwardWeights
  | send
  | receive
  | optimizerStep
  | validationSync
deriving DecidableEq

namespace OperationKind

def all : List OperationKind :=
  [.forward, .backward, .backwardWeights, .send, .receive, .optimizerStep, .validationSync]

def text : OperationKind → String
  | .forward => "forward"
  | .backward => "backward"
  | .backwardWeights => "backward_weights"
  | .send => "send"
  | .receive => "recv"
  | .optimizerStep => "optimizer_step"
  | .validationSync => "post_validation_sync"

end OperationKind

inductive Operation where
  | forward (stage : StageId) (microbatch : Nat)
  | backward (stage : StageId) (microbatch : Nat)
  | backwardWeights (stage : StageId) (microbatch : Nat)
  | send (peer : Nat) (transfer : Transfer)
  | receive (peer : Nat) (transfer : Transfer)
  | optimizerStep
  | validationSync
deriving DecidableEq

namespace Operation

def kind : Operation → OperationKind
  | .forward .. => .forward
  | .backward .. => .backward
  | .backwardWeights .. => .backwardWeights
  | .send .. => .send
  | .receive .. => .receive
  | .optimizerStep => .optimizerStep
  | .validationSync => .validationSync

def microbatch : Operation → Option Nat
  | .forward _ microbatch => some microbatch
  | .backward _ microbatch => some microbatch
  | .backwardWeights _ microbatch => some microbatch
  | .send _ transfer => some transfer.microbatch
  | .receive _ transfer => some transfer.microbatch
  | .optimizerStep => none
  | .validationSync => none

def stage : Operation → Option StageId
  | .forward stage _ => some stage
  | .backward stage _ => some stage
  | .backwardWeights stage _ => some stage
  | .send _ transfer => some transfer.source
  | .receive _ transfer => some transfer.target
  | .optimizerStep => none
  | .validationSync => none

def isCompute : Operation → Bool
  | .forward .. => true
  | .backward .. => true
  | .backwardWeights .. => true
  | _ => false

def isTransfer : Operation → Bool
  | .send .. => true
  | .receive .. => true
  | _ => false

def text : Operation → String
  | .forward stage microbatch => s!"F{microbatch}@{stage.text}"
  | .backward stage microbatch => s!"B{microbatch}@{stage.text}"
  | .backwardWeights stage microbatch => s!"W{microbatch}@{stage.text}"
  | .send peer transfer => s!"send {transfer.kind.text} mb{transfer.microbatch} -> rank {peer}"
  | .receive peer transfer => s!"recv {transfer.kind.text} mb{transfer.microbatch} <- rank {peer}"
  | .optimizerStep => "optimizer_step"
  | .validationSync => "post_validation_sync"

end Operation
end PipelineTraining
