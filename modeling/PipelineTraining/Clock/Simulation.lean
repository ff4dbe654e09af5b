import PipelineTraining.Clock.Action

/-!
A list scheduler over simulated time. Every rank has a next forward and a next
backward; a forward waits for the activation from the stage before, a backward
for the gradient from the stage behind. Of all ranks the one that can start
earliest commits its action, so start times never fall. The memory limit bounds
the forwards of a rank whose backward is still to come; with split backwards,
weight passes fill the gaps.
-/

namespace PipelineTraining

structure Workload where
  layout : Layout
  microbatches : Nat
  memoryLimit : Nat
  split : Bool
  cost : CostModel

structure RankClock where
  forwards : List Pass
  backwards : List Pass
  weights : List Pass
  pending : Nat
  freeAt : Nat
  timeline : List TimedAction

namespace RankClock

def start (work : Workload) (rank : Nat) : RankClock where
  forwards := WorkOrder.forward work.layout rank work.microbatches
  backwards := WorkOrder.backward work.layout rank work.microbatches
  weights := []
  pending := 0
  freeAt := 0
  timeline := []

def done (clock : RankClock) : Bool :=
  clock.forwards.isEmpty && clock.backwards.isEmpty && clock.weights.isEmpty

/-- An upper bound on the actions to come: every backward may bring a weight pass. -/
def ahead (clock : RankClock) : Nat :=
  clock.forwards.length + 2 * clock.backwards.length + clock.weights.length

end RankClock

abbrev Completion := Nat → Nat → Option Nat

namespace Completion

def empty : Completion := fun _ _ => none

def record (table : Completion) (pass : Pass) (tick : Nat) : Completion :=
  fun logical microbatch =>
    if logical = pass.1.logical ∧ microbatch = pass.2 then some tick else table logical microbatch

def at? (table : Completion) (stage : StageId) (microbatch : Nat) : Option Nat :=
  table stage.logical microbatch

end Completion

structure Simulation where
  ranks : List RankClock
  forwardDone : Completion
  backwardDone : Completion

structure Candidate where
  start : Nat
  action : Action

namespace Simulation

def initial (work : Workload) : Simulation where
  ranks := (List.range work.layout.depth).map (RankClock.start work)
  forwardDone := .empty
  backwardDone := .empty

def hop (work : Workload) (rank : Nat) (neighbour : StageId) : Nat :=
  if work.layout.rankOf neighbour = rank then 0 else work.cost.transfer

def forwardArrival (work : Workload) (state : Simulation) (rank : Nat) (pass : Pass) : Option Nat :=
  match work.layout.prev pass.1 with
  | none => some 0
  | some before => (state.forwardDone.at? before pass.2).map (· + hop work rank before)

/-- The tick at which a backward can begin: the last stage starts from its own forward. -/
def backwardArrival (work : Workload) (state : Simulation) (rank : Nat) (pass : Pass) :
    Option Nat :=
  match work.layout.next pass.1 with
  | none => state.forwardDone.at? pass.1 pass.2
  | some behind => (state.backwardDone.at? behind pass.2).map (· + hop work rank behind)

def nextForward (work : Workload) (state : Simulation) (rank : Nat) (clock : RankClock) :
    Option Candidate :=
  match clock.forwards with
  | [] => none
  | pass :: _ =>
      if clock.pending < work.memoryLimit then
        (state.forwardArrival work rank pass).map fun tick =>
          ⟨max tick clock.freeAt, .forward pass⟩
      else none

def nextBackward (work : Workload) (state : Simulation) (rank : Nat) (clock : RankClock) :
    Option Candidate :=
  match clock.backwards with
  | [] => none
  | pass :: _ =>
      (state.backwardArrival work rank pass).map fun tick =>
        ⟨max tick clock.freeAt, .backward pass⟩

def nextWeights (clock : RankClock) : Option Candidate :=
  clock.weights.head?.map fun pass => ⟨clock.freeAt, .weights pass⟩

/-- The earlier one; a forward wins a tie. -/
def earlier : Option Candidate → Option Candidate → Option Candidate
  | some forward, some backward => if forward.start ≤ backward.start then forward else backward
  | some forward, none => forward
  | none, backward => backward

/-- A weight pass goes first where it fits into the gap before the other action. -/
def fill (work : Workload) (clock : RankClock) : Option Candidate → Option Candidate → Option Candidate
  | some critical, some weights =>
      if clock.freeAt + work.cost.weight ≤ critical.start then weights else critical
  | some critical, none => critical
  | none, weights => weights

def candidate (work : Workload) (state : Simulation) (rank : Nat) (clock : RankClock) :
    Option Candidate :=
  fill work clock (earlier (state.nextForward work rank clock) (state.nextBackward work rank clock))
    (nextWeights clock)

/-- The earliest candidate of the given ranks, numbered from `rank`; the lower rank wins a tie. -/
def earliest (work : Workload) (state : Simulation) : Nat → List RankClock → Option (Nat × Candidate)
  | _, [] => none
  | rank, clock :: rest =>
      match state.candidate work rank clock, state.earliest work (rank + 1) rest with
      | some first, some (other, second) =>
          if first.start ≤ second.start then some (rank, first) else some (other, second)
      | some first, none => some (rank, first)
      | none, found => found

def advance (work : Workload) (choice : Candidate) (clock : RankClock) : RankClock :=
  let finish := choice.start + choice.action.cost work.cost
  let timeline := clock.timeline ++ [⟨choice.action, choice.start, finish⟩]
  match choice.action with
  | .forward _ =>
      { clock with
        forwards := clock.forwards.tail
        pending := clock.pending + 1
        freeAt := finish
        timeline := timeline }
  | .backward pass =>
      { clock with
        backwards := clock.backwards.tail
        weights := if work.split then clock.weights ++ [pass] else clock.weights
        pending := clock.pending - 1
        freeAt := finish
        timeline := timeline }
  | .weights _ =>
      { clock with weights := clock.weights.tail, freeAt := finish, timeline := timeline }

def commit (work : Workload) (state : Simulation) (rank : Nat) (choice : Candidate) : Simulation :=
  let finish := choice.start + choice.action.cost work.cost
  let ranks := state.ranks.modify rank (advance work choice)
  match choice.action with
  | .forward pass => { state with ranks := ranks, forwardDone := state.forwardDone.record pass finish }
  | .backward pass => { state with ranks := ranks, backwardDone := state.backwardDone.record pass finish }
  | .weights _ => { state with ranks := ranks }

def done (state : Simulation) : Bool :=
  state.ranks.all RankClock.done

def stuck : Nat → List RankClock → List (Nat × Nat)
  | _, [] => []
  | rank, clock :: rest =>
      if clock.done then stuck (rank + 1) rest
      else (rank, clock.pending) :: stuck (rank + 1) rest

def run (work : Workload) : Nat → Simulation → Except Fault Simulation
  | 0, state => .ok state
  | steps + 1, state =>
      if state.done then .ok state
      else
        match state.earliest work 0 state.ranks with
        | none => .error (.configuration (.stalled work.memoryLimit (stuck 0 state.ranks)))
        | some (rank, choice) => run work steps (state.commit work rank choice)

/-- Every commit takes one action off the work ahead, so this many steps always suffice. -/
def steps (state : Simulation) : Nat :=
  (state.ranks.map RankClock.ahead).foldl (· + ·) 0 + 1

end Simulation

namespace Workload

def simulate (work : Workload) : Except Fault (List (List TimedAction)) :=
  let start := Simulation.initial work
  (Simulation.run work start.steps start).map fun state => state.ranks.map RankClock.timeline

end Workload
end PipelineTraining
