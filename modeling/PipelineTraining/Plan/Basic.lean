import PipelineTraining.Clock.Action

/-!
Plans: for every rank the operations it executes, in order, and how well the
simulated clock judged the whole.
-/

namespace PipelineTraining

structure RankPlan where
  rank : Nat
  operations : List Operation
deriving DecidableEq

namespace RankPlan

def count (plan : RankPlan) (kind : OperationKind) : Nat :=
  plan.operations.countP fun operation => operation.kind == kind

def withoutTransfers (plan : RankPlan) : List Operation :=
  plan.operations.filter fun operation => !operation.isTransfer

end RankPlan

structure Statistics where
  makespan : Nat
  busy : List Nat
  bubble : List Nat
deriving DecidableEq

namespace Statistics

def busyTicks (timeline : List TimedAction) : Nat :=
  timeline.foldl (fun busy timed => busy + (timed.finish - timed.start)) 0

def lastTick (timeline : List TimedAction) : Nat :=
  (timeline.getLast?.map TimedAction.finish).getD 0

def ofTimelines (timelines : List (List TimedAction)) : Statistics :=
  let makespan := (timelines.map lastTick).foldl max 0
  let busy := timelines.map busyTicks
  { makespan := makespan
    busy := busy
    bubble := busy.map fun ticks => makespan - ticks }

def bubbleRatio (statistics : Statistics) : Float :=
  let total := statistics.makespan * statistics.busy.length
  if total = 0 then 0.0
  else (statistics.bubble.foldl (· + ·) 0).toUInt64.toFloat / total.toUInt64.toFloat

end Statistics

structure Plan where
  layout : Layout
  microbatches : Nat
  memoryLimit : Nat
  split : Bool
  validates : Bool
  ranks : List RankPlan
  statistics : Statistics
deriving DecidableEq

namespace Plan

def rankPlan? (plan : Plan) (rank : Nat) : Option RankPlan :=
  plan.ranks[rank]?

/-- Passes of one kind that every rank runs in an iteration. Here as everywhere in the library,
counts, ticks of the clock and numbers of iterations are natural numbers: they stand for machine
words as long as they and the sums and products made of them are below 2 ^ 64. `Workload.Fits`
says of a clock that its ticks are. -/
def passesPerRank (plan : Plan) : Nat :=
  plan.microbatches * plan.layout.chunks

def closing (validates : Bool) : List Operation :=
  if validates then [.optimizerStep, .validationSync] else [.optimizerStep]

end Plan
end PipelineTraining
