import PipelineTraining.Clock.Simulation
import PipelineTraining.Plan.Verification
import PipelineTraining.Topology

/-!
Building plans. A blueprint names the topology and the choices; its plan has
the compute order of the simulated clock, every pass wrapped in the receive it
waits for and the send it feeds, and the closing steps behind them.
-/

namespace PipelineTraining

structure Blueprint where
  topology : Topology
  microbatches : Nat
  memoryLimit : Nat
  chunks : Nat
  placement : Placement
  split : Bool
  validates : Bool
  cost : CostModel

namespace Blueprint

def simple (topology : Topology) (microbatches memoryLimit chunks : Nat) : Blueprint where
  topology := topology
  microbatches := microbatches
  memoryLimit := memoryLimit
  chunks := chunks
  placement := .interleaved
  split := false
  validates := false
  cost := .uniform

def receiveFrom (layout : Layout) (rank : Nat) (neighbour : Option StageId)
    (transfer : StageId → Transfer) : List Operation :=
  match neighbour with
  | none => []
  | some stage =>
      if layout.rankOf stage = rank then [] else [.receive (layout.rankOf stage) (transfer stage)]

def sendTo (layout : Layout) (rank : Nat) (neighbour : Option StageId)
    (transfer : StageId → Transfer) : List Operation :=
  match neighbour with
  | none => []
  | some stage =>
      if layout.rankOf stage = rank then [] else [.send (layout.rankOf stage) (transfer stage)]

def wrap (layout : Layout) (rank : Nat) : Action → List Operation
  | .forward (stage, microbatch) =>
      receiveFrom layout rank (layout.prev stage) (Transfer.activation · stage microbatch) ++
        [.forward stage microbatch] ++
        sendTo layout rank (layout.next stage) (Transfer.activation stage · microbatch)
  | .backward (stage, microbatch) =>
      receiveFrom layout rank (layout.next stage) (Transfer.gradient · stage microbatch) ++
        [.backward stage microbatch] ++
        sendTo layout rank (layout.prev stage) (Transfer.gradient stage · microbatch)
  | .weights (stage, microbatch) => [.backwardWeights stage microbatch]

def expand (validates : Bool) (layout : Layout) (rank : Nat) (timeline : List TimedAction) :
    RankPlan where
  rank := rank
  operations := timeline.flatMap (fun timed => wrap layout rank timed.action) ++ Plan.closing validates

def workload (blueprint : Blueprint) (layout : Layout) : Workload where
  layout := layout
  microbatches := blueprint.microbatches
  memoryLimit := blueprint.memoryLimit
  split := blueprint.split
  cost := blueprint.cost

def assemble (blueprint : Blueprint) (layout : Layout) (timelines : List (List TimedAction)) :
    Plan where
  layout := layout
  microbatches := blueprint.microbatches
  memoryLimit := blueprint.memoryLimit
  split := blueprint.split
  validates := blueprint.validates
  ranks := timelines.mapIdx (expand blueprint.validates layout)
  statistics := .ofTimelines timelines

def checkCounts (blueprint : Blueprint) : Except Fault Unit :=
  if blueprint.memoryLimit = 0 then .error (.configuration .noMemory)
  else if blueprint.microbatches = 0 then .error (.configuration .noMicrobatches)
  else .ok ()

def build (blueprint : Blueprint) : Except Fault Plan := do
  blueprint.checkCounts
  blueprint.cost.check
  let layout ← blueprint.topology.layout blueprint.chunks blueprint.placement
  let timelines ← (blueprint.workload layout).simulate
  let plan := blueprint.assemble layout timelines
  plan.verify
  return plan

end Blueprint
end PipelineTraining
