import PipelineTraining.Duration
import PipelineTraining.Fingerprint.Basic
import PipelineTraining.Operation
import PipelineTraining.StepState

/-!
What can go wrong, as causes. Wrong settings and broken plans end the training;
missing messages and failing callbacks end one iteration only. Each cause has
one text, given here.
-/

namespace PipelineTraining

inductive DocumentFormat where
  | json
  | yaml
deriving DecidableEq

inductive Misconfiguration where
  | noRanks
  | tooFewLayers (layers depth : Nat)
  | unevenLayers (layers depth : Nat)
  | chunksForPlacement (placement : Placement) (required chunks : Nat)
  | oddLayers (placement : Placement) (layersPerRank : Nat)
  | noChunks
  | unevenChunks (chunks layersPerRank : Nat)
  | pinnedChunks (pinned chunks : Nat)
  | chunksForFold (chunks : Nat)
  | noMicrobatches
  | noMemory
  /-- No rank can go on. Each stuck rank is listed with its pending backwards. -/
  | stalled (limit : Nat) (stuck : List (Nat × Nat))
  | freeForward
  | freeBackward
  | freeWeights
  | noTimeout
  | tolerance (relative : Float)
  | groupSize (ranks members : Nat)
  | syncMissing
  | inputCount (expected given : Nat)
  | notPayload
  | microbatchBeyondWords (microbatch : Nat)
  | microbatchBeyondTags (microbatch : Nat)
  /-- A document that could not be read, with the memory limit it names if that was refused. -/
  | unreadable (format : DocumentFormat) (limit : Option String)
  | unknownExtension (path : String)

namespace Misconfiguration

def parameter : Misconfiguration → String
  | .noRanks => "pipeline_depth"
  | .tooFewLayers .. => "num_layers"
  | .unevenLayers .. => "num_layers"
  | .chunksForPlacement .. => "interleave_factor"
  | .oddLayers .. => "num_layers"
  | .noChunks => "interleave_factor"
  | .unevenChunks .. => "interleave_factor"
  | .pinnedChunks .. => "interleave_factor"
  | .chunksForFold .. => "interleave_factor"
  | .noMicrobatches => "num_microbatches"
  | .noMemory => "memory_limit"
  | .stalled .. => "memory_limit"
  | .freeForward => "cost.forward"
  | .freeBackward => "cost.backward"
  | .freeWeights => "cost.weight"
  | .noTimeout => "recv_timeout_ms"
  | .tolerance .. => "post_validation.relative_tolerance"
  | .groupSize .. => "pipeline_depth"
  | .syncMissing => "post_validation"
  | .inputCount .. => "inputs"
  | .notPayload => "transfer"
  | .microbatchBeyondWords .. => "num_microbatches"
  | .microbatchBeyondTags .. => "num_microbatches"
  | .unreadable .. => "config"
  | .unknownExtension .. => "config"

def stuckText (stuck : List (Nat × Nat)) : String :=
  ", ".intercalate (stuck.map fun entry => s!"rank {entry.1} ({entry.2} pending)")

def reason : Misconfiguration → String
  | .noRanks => "must be >= 1"
  | .tooFewLayers layers depth => s!"{layers} layers cannot fill {depth} pipeline stages"
  | .unevenLayers layers depth => s!"{layers} layers must be divisible by pipeline_depth {depth}"
  | .chunksForPlacement placement required chunks =>
      s!"{placement.text} placement needs exactly {required} virtual stages per rank, got {chunks}"
  | .oddLayers placement layersPerRank =>
      s!"{placement.text} placement needs an even number of layers per rank, got {layersPerRank}"
  | .noChunks => "must be >= 1"
  | .unevenChunks chunks layersPerRank =>
      s!"{chunks} does not evenly divide the {layersPerRank} layers assigned to each rank"
  | .pinnedChunks pinned chunks =>
      s!"topology pins {pinned} virtual stages per rank, got {chunks}"
  | .chunksForFold chunks => s!"v_schedule runs 2 virtual stages per rank, got {chunks}"
  | .noMicrobatches => "must be >= 1, got 0"
  | .noMemory => "must be >= 1, got 0"
  | .stalled limit stuck =>
      s!"memory_limit {limit} cannot sustain this schedule: {stuckText stuck} stalled"
  | .freeForward => "must be >= 1 tick"
  | .freeBackward => "must be >= 1 tick"
  | .freeWeights => "must be >= 1 tick"
  | .noTimeout => "must be > 0"
  | .tolerance relative => "must be a finite value >= 0, got " ++ Decimal.plain.write relative
  | .groupSize ranks members =>
      s!"schedule has {ranks} ranks but the transport group has {members}"
  | .syncMissing => "validator enabled but the schedule was built without a post-validation sync"
  | .inputCount expected given => s!"expected {expected} micro-batches, got {given}"
  | .notPayload => "fingerprints are not pipeline transfers"
  | .microbatchBeyondWords microbatch => s!"micro-batch id {microbatch} overflows tag range"
  | .microbatchBeyondTags microbatch => s!"tag overflow for mb_id={microbatch}"
  | .unreadable .json _ => "JSON parse error"
  | .unreadable .yaml _ => "YAML parse error"
  | .unknownExtension path => s!"unsupported config file extension: {path}"

def limitDetail (limit : String) : String :=
  "expected a number or \"auto\", got " ++ Text.quoted limit

def detail : Misconfiguration → Option String
  | .unreadable _ limit => limit.map limitDetail
  | _ => none

end Misconfiguration

inductive Violation where
  | noPlan
  | duplicate (operation : Operation)
  | overLimit (operation : Operation) (limit : Nat)
  | beforeForward (operation : Operation)
  | fusedBackward (operation : Operation)
  | misplaced (operation : Operation)
  | notOwned (stage : StageId)
  | passCounts (expected forwards backwards : Nat)
  | weightCount (expected weights : Nat)
  | unclosed
  | unmatched (sends receives : Nat)
  | untracked
  | nothingPending
  /-- Operations that never became ready, in the order in which they were put off. -/
  | stuck (operations : List Operation)
  | nothingTo (operation : Operation)
  | withoutActivation (operation : Operation)
  | withoutGradient (operation : Operation)
  | syncBeforeOptimizer
  | unvalidated
  | outcomeIn (state : StepState)
  | noMove (target current : StepState)

namespace Violation

def reason : Violation → String
  | .noPlan => "no schedule for this rank"
  | .duplicate operation => s!"duplicate {operation.text}"
  | .overLimit operation limit => s!"{operation.text} exceeds memory_limit {limit}"
  | .beforeForward operation => s!"{operation.text} before its forward"
  | .fusedBackward operation => s!"{operation.text} in a fused-backward schedule"
  | .misplaced operation => s!"misplaced {operation.text}"
  | .notOwned stage => s!"stage {stage.text} is not owned by this rank"
  | .passCounts expected forwards backwards =>
      s!"expected {expected} forwards and backwards, got {forwards} and {backwards}"
  | .weightCount expected weights => s!"expected {expected} weight passes, got {weights}"
  | .unclosed => "schedule must end with a single optimizer step"
  | .unmatched sends receives => s!"unmatched transfers: {sends} sends vs {receives} receives"
  | .untracked => "backward completed on a rank the limiter does not track"
  | .nothingPending =>
      "backward completed with no pending forward (pending-backward count would go negative)"
  | .stuck operations =>
      let listed := ", ".intercalate (operations.map Operation.text)
      s!"schedule cannot make progress, stuck on [{listed}]"
  | .nothingTo operation => s!"nothing to {operation.text}"
  | .withoutActivation operation => s!"{operation.text} ran without its activation"
  | .withoutGradient operation => s!"{operation.text} ran without its gradient"
  | .syncBeforeOptimizer => "post-validation before optimizer step"
  | .unvalidated => "iteration finished without post-validation"
  | .outcomeIn state => s!"validation outcome received in state {state.text}"
  | .noMove target current => s!"cannot move to {target.text} from {current.text}"

end Violation

inductive DeliveryFault where
  | timeout (span : Duration)
  | disconnected (peer : Nat)
  | outsideGroup (peer members : Nat)
deriving DecidableEq

namespace DeliveryFault

def text : DeliveryFault → String
  | .timeout span => s!"receive timed out after {span.text}"
  | .disconnected peer => s!"peer {peer} disconnected"
  | .outsideGroup peer members => s!"rank {peer} is outside a group of {members}"

end DeliveryFault

inductive Undelivered where
  | payload (kind : TransferKind) (microbatch : Nat) (fault : DeliveryFault)
  | fingerprint (fault : DeliveryFault)
  | stated (reason : String)

namespace Undelivered

def reason : Undelivered → String
  | .payload kind microbatch fault => s!"{kind.text} of micro-batch {microbatch}: {fault.text}"
  | .fingerprint fault => s!"fingerprint exchange: {fault.text}"
  | .stated reason => reason

end Undelivered

inductive Fault where
  | configuration (cause : Misconfiguration)
  | invariant (rank : Nat) (cause : Violation)
  /-- A receive that waited in vain; fingerprints belong to no micro-batch. -/
  | stall (rank peer : Nat) (microbatch : Option Nat) (kind : TransferKind) (timeout : Duration)
  /-- A callback that failed, with its own text. -/
  | compute (rank stage : Nat) (microbatch : Option Nat) (kind : OperationKind) (source : String)
  | divergence (left right : Fingerprint) (retries : Nat)
  | transport (rank peer : Nat) (cause : Undelivered)
  | io (reason : String)
  /-- A stage was looked up in a layout that places none. -/
  | unplaced

namespace Fault

/-- Whether training ends, and not just the current iteration. -/
def isFatal : Fault → Bool
  | .configuration .. => true
  | .invariant .. => true
  | .divergence .. => true
  | .unplaced => true
  | _ => false

def optionText : Option Nat → String
  | none => "None"
  | some value => s!"Some({value})"

def message : Fault → String
  | .configuration cause => s!"invalid configuration '{cause.parameter}': {cause.reason}"
  | .invariant rank cause => s!"invariant violated on rank {rank}: {cause.reason}"
  | .stall rank peer microbatch kind timeout =>
      let part := (microbatch.map fun id => s!" of micro-batch {id}").getD ""
      let span := timeout.text
      s!"rank {rank} stalled waiting for {kind.text}{part} from rank {peer} (timeout {span})"
  | .compute rank stage microbatch kind source =>
      let part := optionText microbatch
      s!"compute error on rank {rank} during {kind.text} (stage {stage}, micro-batch {part}): {source}"
  | .divergence left right retries =>
      let ours := left.text
      let theirs := right.text
      s!"numeric divergence after {retries} retry: local fingerprint {ours}, remote fingerprint {theirs}"
  | .transport rank peer cause => s!"transport error on rank {rank} (peer {peer}): {cause.reason}"
  | .io reason => s!"io error: {reason}"
  | .unplaced => "a layout without ranks places no stage"

end Fault
end PipelineTraining
