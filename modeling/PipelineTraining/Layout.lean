/-!
Where the stages of a pipeline live. A model is cut into logical stages in
forward order; every rank holds the same number of them, its chunks. A layout
says which stage is which chunk of which rank, and which layers it computes.
-/

namespace PipelineTraining

structure StageId where
  chunk : Nat
  logical : Nat
deriving DecidableEq

namespace StageId

def text (stage : StageId) : String :=
  s!"{stage.logical}/c{stage.chunk}"

end StageId

/-- How chunks map to logical stages. Interleaved deals stages out round by round; the V shape
runs down the ranks and back up, so that the turn stays on the last rank and both ends of the
pipeline meet on the first. -/
inductive Placement where
  | interleaved
  | vShape
deriving DecidableEq

namespace Placement

def text : Placement → String
  | .interleaved => "interleaved"
  | .vShape => "v_shape"

def requiredChunks : Placement → Option Nat
  | .interleaved => none
  | .vShape => some 2

end Placement

structure Layout where
  depth : Nat
  chunks : Nat
  layersPerChunk : Nat
  placement : Placement
deriving DecidableEq

namespace Layout

def stageCount (layout : Layout) : Nat :=
  layout.depth * layout.chunks

def stage (layout : Layout) (rank chunk : Nat) : StageId where
  chunk := chunk
  logical :=
    match layout.placement with
    | .interleaved => rank + chunk * layout.depth
    | .vShape => if chunk = 0 then rank else 2 * layout.depth - 1 - rank

def stageAt (layout : Layout) (logical : Nat) : StageId where
  chunk :=
    match layout.placement with
    | .interleaved => logical / layout.depth
    | .vShape => if logical < layout.depth then 0 else 1
  logical := logical

/-- The rank of a stage. On the V only for logical stages below twice the depth: from there on
`2 * depth - 1 - logical` has no value, where subtraction is cut off at 0 here. Only a plan read
from a file has such stages. -/
def rankOf (layout : Layout) (stage : StageId) : Nat :=
  match layout.placement with
  | .interleaved => stage.logical % layout.depth
  | .vShape =>
      if stage.logical < layout.depth then stage.logical
      else 2 * layout.depth - 1 - stage.logical

/-- Whether logical stages can be placed at all. Dealing them out round by round takes at
least one rank; a layout read from a file may have none. -/
def places (layout : Layout) : Bool :=
  match layout.placement with
  | .interleaved => layout.depth != 0
  | .vShape => true

def isFirst (_layout : Layout) (stage : StageId) : Bool :=
  stage.logical == 0

def isLast (layout : Layout) (stage : StageId) : Bool :=
  stage.logical + 1 == layout.stageCount

def prev (layout : Layout) (stage : StageId) : Option StageId :=
  if layout.isFirst stage then none else some (layout.stageAt (stage.logical - 1))

def next (layout : Layout) (stage : StageId) : Option StageId :=
  if layout.isLast stage then none else some (layout.stageAt (stage.logical + 1))

def layers (layout : Layout) (stage : StageId) : Nat × Nat :=
  let start := stage.logical * layout.layersPerChunk
  (start, start + layout.layersPerChunk)

def stagesOf (layout : Layout) (rank : Nat) : List StageId :=
  (List.range layout.chunks).map (layout.stage rank)

/-- A rank's stage is one it owns under its own name: its place in the pipeline belongs to the
rank and its chunk number is the one of that place. -/
def owns (layout : Layout) (rank : Nat) (stage : StageId) : Bool :=
  layout.rankOf stage == rank && layout.stageAt stage.logical == stage

end Layout
end PipelineTraining
