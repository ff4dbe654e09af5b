import PipelineTraining.Plan.Blueprint
import PipelineTraining.Timing.Window
import PipelineTraining.Validation.Settings

/-!
The settings of a training run as one value: what a plan is built from, how
steps are validated, what is timed and how long a receive may wait.
-/

namespace PipelineTraining

/-- How many backwards may be pending on a rank. Left to itself the limit is one for every
stage of the pipeline. -/
inductive MemoryLimit where
  | auto
  | fixed (count : Nat)
deriving DecidableEq

namespace MemoryLimit

def resolve (limit : MemoryLimit) (depth chunks : Nat) : Nat :=
  match limit with
  | .auto => depth * chunks
  | .fixed count => count

end MemoryLimit

structure Config where
  depth : Nat
  layers : Nat
  microbatches : Nat
  limit : MemoryLimit
  interleave : Nat
  folded : Bool
  split : Bool
  validation : ValidationSettings
  profiling : Window
  timeoutMilliseconds : Nat
  cost : CostModel

namespace Config

def standard : Config where
  depth := 1
  layers := 1
  microbatches := 1
  limit := .auto
  interleave := 1
  folded := false
  split := false
  validation := .standard
  profiling := .standard
  timeoutMilliseconds := 60000
  cost := .uniform

/-- Chunks on every rank. A folded pipeline always has two. -/
def chunks (config : Config) : Nat :=
  if config.folded then 2 else config.interleave

def placement (config : Config) : Placement :=
  if config.folded then .vShape else .interleaved

def memoryLimit (config : Config) : Nat :=
  config.limit.resolve config.depth config.chunks

def timeout (config : Config) : Duration :=
  .ofMilliseconds config.timeoutMilliseconds

def topology (config : Config) : Except Fault Topology :=
  Topology.make config.depth config.layers

def checkCounts (config : Config) : Except Fault Unit :=
  if config.microbatches = 0 then .error (.configuration .noMicrobatches)
  else if config.memoryLimit = 0 then .error (.configuration .noMemory)
  else if config.timeoutMilliseconds = 0 then .error (.configuration .noTimeout)
  else .ok ()

/-- A folded pipeline may still say one chunk, the default, or the two that it has. -/
def checkFold (config : Config) : Except Fault Unit :=
  if config.folded ∧ config.interleave ≠ 1 ∧ config.interleave ≠ 2 then
    .error (.configuration (.chunksForFold config.interleave))
  else .ok ()

def check (config : Config) : Except Fault Unit := do
  config.checkCounts
  config.checkFold
  config.validation.check
  config.cost.check
  let topology ← config.topology
  discard (topology.layout config.chunks config.placement)

def blueprint (config : Config) : Except Fault Blueprint := do
  let topology ← config.topology
  return {
    topology := topology
    microbatches := config.microbatches
    memoryLimit := config.memoryLimit
    chunks := config.chunks
    placement := config.placement
    split := config.split
    validates := config.validation.enabled
    cost := config.cost }

def buildPlan (config : Config) : Except Fault Plan := do
  config.check
  let blueprint ← config.blueprint
  blueprint.build

end Config
end PipelineTraining
