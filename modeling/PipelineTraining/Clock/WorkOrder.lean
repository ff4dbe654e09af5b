import PipelineTraining.Layout

/-!
The fixed order in which a rank takes up its work. Micro-batches go in groups
of one per rank; a group visits all chunks of the rank before the next group
starts, first to last on the way forward and last to first on the way back.
-/

namespace PipelineTraining

abbrev Pass := StageId × Nat

namespace WorkOrder

/-- A layout without ranks still takes micro-batches one at a time. -/
def groupSize (layout : Layout) : Nat :=
  max layout.depth 1

def groupCount (layout : Layout) (microbatches : Nat) : Nat :=
  (microbatches + groupSize layout - 1) / groupSize layout

def group (layout : Layout) (microbatches index : Nat) : List Nat :=
  let start := index * groupSize layout
  List.range' start (min (groupSize layout) (microbatches - start))

def visit (layout : Layout) (rank microbatches : Nat) (chunks : List Nat) : List Pass :=
  (List.range (groupCount layout microbatches)).flatMap fun index =>
    chunks.flatMap fun chunk =>
      (group layout microbatches index).map fun microbatch => (layout.stage rank chunk, microbatch)

def forward (layout : Layout) (rank microbatches : Nat) : List Pass :=
  visit layout rank microbatches (List.range layout.chunks)

def backward (layout : Layout) (rank microbatches : Nat) : List Pass :=
  visit layout rank microbatches (List.range layout.chunks).reverse

def text (passes : List Pass) : String :=
  " ".intercalate (passes.map fun pass => s!"{pass.2}@{pass.1.text}")

end WorkOrder
end PipelineTraining
