import PipelineTraining.Cluster.Rehearsal

/-!
Who takes part in a rehearsal. An ensemble is so many replicas of a planned
pipeline; members are counted replica by replica and, within one, rank by rank.
Most of what it says holds for all members, some of it for single ones.
-/

namespace PipelineTraining

namespace Rehearsal

def usual (rank ranks : Nat) : Rehearsal where
  faults := []
  fingerprints := [usualFingerprint rank]
  optimizerCalls := 0
  snapshots := 0
  minimal := false
  payloadLimit := Worker.usualTimeout
  exchangeLimit := Worker.usualTimeout
  members := ranks
  ranks := ranks
  log := []

def alone (worker : Worker) (ranks : Nat) : Rehearsal × Run Int :=
  let run : Run Int := .ofIteration worker none
  run.drive callbacks.alone run.turnBound (usual worker.rank ranks)

end Rehearsal

structure Ensemble where
  plan : Plan
  replicas : Nat
  payloadLimit : Duration
  exchangeLimit : Duration
  /-- The iteration at which members start, unless they are listed with their own. -/
  iteration : Nat
  iterations : List (Nat × Nat)
  validation : Option ValidationSettings
  unvalidated : List Nat
  minimal : Bool
  profiling : Option (Window × Sink)
  fingerprints : List (Nat × List Fingerprint)
  faults : List PlannedFault

namespace Ensemble

def ranks (ensemble : Ensemble) : Nat :=
  ensemble.plan.ranks.length

def size (ensemble : Ensemble) : Nat :=
  ensemble.replicas * ensemble.ranks

def rankOf (ensemble : Ensemble) (who : Nat) : Nat :=
  who % ensemble.ranks

def replicaOf (ensemble : Ensemble) (who : Nat) : Nat :=
  who / ensemble.ranks

/-- Of several entries about a member the last one counts. -/
def lastOf {α : Type} (entries : List (Nat × α)) (who : Nat) : Option α :=
  entries.reverse.lookup who

def plainWorker (ensemble : Ensemble) (who : Nat) : Except Fault Worker := do
  let worker ← Worker.make ensemble.plan (ensemble.rankOf who) ensemble.ranks
  let worker := { worker with
    timeout := ensemble.payloadLimit
    iteration := (lastOf ensemble.iterations who).getD ensemble.iteration }
  match ensemble.profiling with
  | some (window, sink) => return worker.withProfiling window sink
  | none => return worker

def worker (ensemble : Ensemble) (who : Nat) : Except Fault Worker := do
  let worker ← ensemble.plainWorker who
  match ensemble.validation with
  | none => return worker
  | some settings =>
      if who ∈ ensemble.unvalidated then return worker
      else
        let validator ← Validator.make settings (ensemble.rankOf who) (ensemble.replicaOf who)
        worker.withValidator validator ⟨who, ensemble.size⟩

def rehearsal (ensemble : Ensemble) (who : Nat) : Rehearsal :=
  let rank := ensemble.rankOf who
  { Rehearsal.usual rank ensemble.ranks with
    faults := ensemble.faults.filter fun fault => fault.member.all (· == who)
    fingerprints :=
      (lastOf ensemble.fingerprints who).getD [Rehearsal.usualFingerprint rank]
    minimal := ensemble.minimal
    payloadLimit := ensemble.payloadLimit
    exchangeLimit := ensemble.exchangeLimit
    members := ensemble.size }

def member (ensemble : Ensemble) (who : Nat) : Except Fault (Member Rehearsal Int) := do
  return {
    replica := ensemble.replicaOf who
    worker := ← ensemble.worker who
    own := ensemble.rehearsal who
    activity := .idle
    result := none }

/-- The members in their order; the first one that cannot be set up stops the rest. Members
without a validator cannot be reached with fingerprints. -/
def assemble (ensemble : Ensemble) : Except Fault (Cluster Rehearsal Int) := do
  let members ← (List.range ensemble.size).mapM ensemble.member
  let cluster := Cluster.make ensemble.replicas ensemble.ranks ensemble.exchangeLimit members
  return cluster.putFingerprints (ensemble.unvalidated.foldl Mesh.close cluster.fingerprints)

end Ensemble

/-- One call to some of the members, or to all of them: a guarded step or a bare iteration, with
inputs for those that are listed. -/
structure Cue where
  guarded : Bool
  members : Option (List Nat)
  inputs : List (Nat × List Int)

namespace Cue

def calls (cue : Cue) (who : Nat) : Bool :=
  match cue.members with
  | none => true
  | some members => members.contains who

def run (cue : Cue) (who : Nat) (worker : Worker) : Run Int :=
  let inputs := cue.inputs.lookup who
  if cue.guarded then .ofStep worker inputs else .ofIteration worker inputs

end Cue

namespace Cluster

def quiet (cluster : Cluster Rehearsal Int) : Cluster Rehearsal Int :=
  { cluster with
    members := cluster.members.map fun member =>
      { member with own := { member.own with log := [] } } }

def follow (cluster : Cluster Rehearsal Int) (cue : Cue) : Cluster Rehearsal Int :=
  let called := cluster.quiet.begin fun who worker =>
    if cue.calls who then some (cue.run who worker) else none
  called.complete Rehearsal.callbacks

end Cluster
end PipelineTraining
