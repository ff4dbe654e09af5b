import PipelineTraining.Document.Record
import PipelineTraining.Plan.Basic
import PipelineTraining.Topology

/-!
Plans and their parts as records. Every `decode?` reads what `encode` writes.
-/

namespace PipelineTraining
open Document

namespace StageId

def encode (stage : StageId) : Json :=
  .object [("chunk", .natural stage.chunk), ("logical", .natural stage.logical)]

def decode? (json : Json) : Option StageId := do
  match ← values? ["chunk", "logical"] json with
  | [chunk, logical] => return ⟨← natural? chunk, ← natural? logical⟩
  | _ => none

end StageId

namespace Placement

def encode (placement : Placement) : Json :=
  .string placement.text

def decode? (json : Json) : Option Placement := do
  match ← name? json with
  | "interleaved" => return .interleaved
  | "v_shape" => return .vShape
  | _ => none

end Placement

namespace Topology

def encode (topology : Topology) : Json :=
  .object [
    ("pipeline_depth", .natural topology.depth),
    ("num_layers", .natural topology.layers),
    ("virtual_stages", .optional (topology.pinned.map .natural))]

/-- An object may leave the pinned number of chunks out, a list may not. -/
def decode? (json : Json) : Option Topology := do
  let slots ← slots? ["pipeline_depth", "num_layers", "virtual_stages"] json
  match slots.values with
  | [some depth, some layers, some pinned] =>
      return ⟨← natural? depth, ← natural? layers, ← nullable? natural? pinned⟩
  | [some depth, some layers, none] =>
      if slots.listed then none else return ⟨← natural? depth, ← natural? layers, none⟩
  | _ => none

end Topology

namespace Layout

def encode (layout : Layout) : Json :=
  .object [
    ("pipeline_depth", .natural layout.depth),
    ("chunks", .natural layout.chunks),
    ("layers_per_chunk", .natural layout.layersPerChunk),
    ("placement", layout.placement.encode)]

/-- Stages are dealt out round by round unless a placement is given. -/
def decode? (json : Json) : Option Layout := do
  let slots ← slots? ["pipeline_depth", "chunks", "layers_per_chunk", "placement"] json
  match slots.values with
  | [some depth, some chunks, some layersPerChunk, some placement] =>
      return ⟨← natural? depth, ← natural? chunks, ← natural? layersPerChunk,
        ← Placement.decode? placement⟩
  | [some depth, some chunks, some layersPerChunk, none] =>
      return ⟨← natural? depth, ← natural? chunks, ← natural? layersPerChunk, .interleaved⟩
  | _ => none

end Layout

namespace TransferKind

def encode (kind : TransferKind) : Json :=
  .string kind.text

def ofName? (name : String) : Option TransferKind :=
  match name with
  | "activation" => some .activation
  | "gradient" => some .gradient
  | "fingerprint" => some .fingerprint
  | _ => none

def decode? (json : Json) : Option TransferKind :=
  (name? json).bind ofName?

end TransferKind

namespace Transfer

def encode (transfer : Transfer) : Json :=
  .object [
    ("kind", transfer.kind.encode),
    ("from", transfer.source.encode),
    ("to", transfer.target.encode),
    ("microbatch", .natural transfer.microbatch)]

def decodeNaming? (kindName? : Json → Option String) (json : Json) : Option Transfer := do
  match ← values? ["kind", "from", "to", "microbatch"] json with
  | [kind, source, target, microbatch] =>
      return ⟨← (kindName? kind).bind TransferKind.ofName?, ← StageId.decode? source,
        ← StageId.decode? target, ← natural? microbatch⟩
  | _ => none

def decode? : Json → Option Transfer :=
  decodeNaming? name?

end Transfer

namespace OperationKind

def name : OperationKind → String
  | .forward => "forward"
  | .backward => "backward"
  | .backwardWeights => "backward_weights"
  | .send => "comm_send"
  | .receive => "comm_recv"
  | .optimizerStep => "optimizer_step"
  | .validationSync => "post_validation_sync"

def encode (kind : OperationKind) : Json :=
  .string kind.name

def ofName? (name : String) : Option OperationKind :=
  all.find? fun kind => kind.name == name

def decode? (json : Json) : Option OperationKind :=
  (name? json).bind ofName?

end OperationKind

namespace Operation

def passMembers (stage : StageId) (microbatch : Nat) : List (String × Json) :=
  [("stage", stage.encode), ("microbatch", .natural microbatch)]

def transferMembers (peer : Nat) (transfer : Transfer) : List (String × Json) :=
  [("peer", .natural peer), ("transfer", transfer.encode)]

def members : Operation → List (String × Json)
  | .forward stage microbatch => passMembers stage microbatch
  | .backward stage microbatch => passMembers stage microbatch
  | .backwardWeights stage microbatch => passMembers stage microbatch
  | .send peer transfer => transferMembers peer transfer
  | .receive peer transfer => transferMembers peer transfer
  | .optimizerStep => []
  | .validationSync => []

/-- The kind of an operation comes first, its data in the same object. -/
def encode (operation : Operation) : Json :=
  .object (("op", operation.kind.encode) :: operation.members)

def pass? (json : Json) : Option (StageId × Nat) := do
  match ← values? ["stage", "microbatch"] json with
  | [stage, microbatch] => return (← StageId.decode? stage, ← natural? microbatch)
  | _ => none

def transfer? (json : Json) : Option (Nat × Transfer) := do
  match ← values? ["peer", "transfer"] json with
  | [peer, transfer] => return (← natural? peer, ← Transfer.decodeNaming? looseName? transfer)
  | _ => none

def bare? : Json → Option Unit
  | .object _ => some ()
  | .array [] => some ()
  | _ => none

def decodeAs (kind : OperationKind) (json : Json) : Option Operation :=
  match kind with
  | .forward => (pass? json).map fun pass => .forward pass.1 pass.2
  | .backward => (pass? json).map fun pass => .backward pass.1 pass.2
  | .backwardWeights => (pass? json).map fun pass => .backwardWeights pass.1 pass.2
  | .send => (transfer? json).map fun entry => .send entry.1 entry.2
  | .receive => (transfer? json).map fun entry => .receive entry.1 entry.2
  | .optimizerStep => (bare? json).map fun _ => .optimizerStep
  | .validationSync => (bare? json).map fun _ => .validationSync

/-- The kind is the one member `op` of an object, wherever it stands, or the head of a list. -/
def decode? : Json → Option Operation
  | .object members => do
      if repeated members "op" then none
      let op ← members.lookup "op"
      match op with
      | .string name =>
          decodeAs (← OperationKind.ofName? name)
            (.object (members.filter fun member => member.1 != "op"))
      | _ => none
  | .array (.string name :: rest) => do
      decodeAs (← OperationKind.ofName? name) (.array rest)
  | _ => none

end Operation

namespace RankPlan

def encode (plan : RankPlan) : Json :=
  .object [
    ("rank", .natural plan.rank),
    ("ops", .array (plan.operations.map Operation.encode))]

def decode? (json : Json) : Option RankPlan := do
  match ← values? ["rank", "ops"] json with
  | [rank, operations] => return ⟨← natural? rank, ← list? Operation.decode? operations⟩
  | _ => none

end RankPlan

namespace Statistics

def encode (statistics : Statistics) : Json :=
  .object [
    ("makespan", .natural statistics.makespan),
    ("busy", .array (statistics.busy.map .natural)),
    ("bubble", .array (statistics.bubble.map .natural))]

def decode? (json : Json) : Option Statistics := do
  match ← values? ["makespan", "busy", "bubble"] json with
  | [makespan, busy, bubble] =>
      return ⟨← natural? makespan, ← naturals? busy, ← naturals? bubble⟩
  | _ => none

end Statistics

namespace Plan

def encode (plan : Plan) : Json :=
  .object [
    ("layout", plan.layout.encode),
    ("num_microbatches", .natural plan.microbatches),
    ("memory_limit", .natural plan.memoryLimit),
    ("split_backward", .bool plan.split),
    ("post_validation", .bool plan.validates),
    ("ranks", .array (plan.ranks.map RankPlan.encode)),
    ("stats", plan.statistics.encode)]

def decode? (json : Json) : Option Plan := do
  match ← values? ["layout", "num_microbatches", "memory_limit", "split_backward",
      "post_validation", "ranks", "stats"] json with
  | [layout, microbatches, memoryLimit, split, validates, ranks, statistics] =>
      return {
        layout := ← Layout.decode? layout
        microbatches := ← natural? microbatches
        memoryLimit := ← natural? memoryLimit
        split := ← bool? split
        validates := ← bool? validates
        ranks := ← list? RankPlan.decode? ranks
        statistics := ← Statistics.decode? statistics }
  | _ => none

end Plan
end PipelineTraining
