import PipelineTraining.Clock.Action
import PipelineTraining.Timing.Window

/-!
Timed operations: one record each, the buffer that collects them during an
iteration, and their totals by rank and kind, from which costs can be measured.
-/

namespace PipelineTraining

structure TimingRecord where
  iteration : Nat
  rank : Nat
  operation : Operation
  start : Nat
  finish : Nat
deriving DecidableEq

namespace TimingRecord

/-- A record that ends before it starts took no time. -/
def duration (record : TimingRecord) : Nat :=
  record.finish - record.start

def text (record : TimingRecord) : String :=
  s!"{record.iteration} {record.rank} {record.operation.text}"

end TimingRecord

structure Recorder where
  window : Window
  iteration : Nat
  buffer : List TimingRecord

namespace Recorder

def make (window : Window) : Recorder := ⟨window, 0, []⟩

def beginIteration (recorder : Recorder) (iteration : Nat) : Recorder :=
  { recorder with iteration := iteration }

def isActive (recorder : Recorder) (rank : Nat) : Bool :=
  recorder.window.contains recorder.iteration rank

/-- Outside the window nothing is kept. -/
def record (recorder : Recorder) (rank : Nat) (operation : Operation) (start finish : Nat) :
    Recorder :=
  if recorder.isActive rank then
    { recorder with
      buffer := recorder.buffer ++ [⟨recorder.iteration, rank, operation, start, finish⟩] }
  else recorder

end Recorder

namespace OperationKind

def index : OperationKind → Nat
  | .forward => 0
  | .backward => 1
  | .backwardWeights => 2
  | .send => 3
  | .receive => 4
  | .optimizerStep => 5
  | .validationSync => 6

end OperationKind

structure Total where
  rank : Nat
  kind : OperationKind
  count : Nat
  time : Nat
deriving DecidableEq

/-- Totals in the order of ranks and, within a rank, of kinds. -/
structure Summary where
  totals : List Total
deriving DecidableEq

namespace Summary

def empty : Summary := ⟨[]⟩

def precedes (rank : Nat) (kind : OperationKind) (total : Total) : Bool :=
  rank < total.rank || (rank == total.rank && kind.index < total.kind.index)

def addTo (rank : Nat) (kind : OperationKind) (time : Nat) : List Total → List Total
  | [] => [⟨rank, kind, 1, time⟩]
  | total :: rest =>
      if rank = total.rank ∧ kind = total.kind then
        { total with count := total.count + 1, time := total.time + time } :: rest
      else if precedes rank kind total then ⟨rank, kind, 1, time⟩ :: total :: rest
      else total :: addTo rank kind time rest

def add (summary : Summary) (record : TimingRecord) : Summary :=
  ⟨addTo record.rank record.operation.kind record.duration summary.totals⟩

def addAll (summary : Summary) (records : List TimingRecord) : Summary :=
  records.foldl add summary

def total? (summary : Summary) (rank : Nat) (kind : OperationKind) : Option Total :=
  summary.totals.find? fun total => total.rank == rank && total.kind == kind

def count (summary : Summary) (rank : Nat) (kind : OperationKind) : Nat :=
  ((summary.total? rank kind).map Total.count).getD 0

def mean? (summary : Summary) (rank : Nat) (kind : OperationKind) : Option Nat :=
  (summary.total? rank kind).map fun total => total.time / total.count

def means (summary : Summary) (kind : OperationKind) : List Nat :=
  (summary.totals.filter fun total => total.kind == kind).map fun total => total.time / total.count

/-- The median of the ranks' means, the upper one of two. -/
def median? (summary : Summary) (kind : OperationKind) : Option Nat :=
  let means := (summary.means kind).mergeSort fun left right => left ≤ right
  means[means.length / 2]?

/-- The measured cost of a kind of pass, at least one tick. -/
def passCost (summary : Summary) (kind : OperationKind) (fallback : Nat) : Nat :=
  ((summary.median? kind).map (max 1)).getD fallback

/-- Measured costs, one tick a microsecond. What was never measured keeps its usual cost. -/
def costModel (summary : Summary) : CostModel where
  forward := summary.passCost .forward CostModel.uniform.forward
  backward := summary.passCost .backward CostModel.uniform.backward
  weight := summary.passCost .backwardWeights CostModel.uniform.weight
  transfer := (summary.median? .send).getD CostModel.uniform.transfer

def costHistory (summary : Summary) : List TimingRecord → List CostModel
  | [] => []
  | record :: rest =>
      let next := summary.add record
      next.costModel :: next.costHistory rest

end Summary
end PipelineTraining
