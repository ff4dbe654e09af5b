import PipelineTraining.Cluster.Basic

/-!
Running a cluster until everybody has returned. Members take their turns one
after the other, each as far as it gets. Once nobody can move, no message is on
its way any more, so all waits end at once. What a member sees does not depend on
the order: messages are told apart by sender and tag.
-/

namespace PipelineTraining.Cluster

variable {σ α : Type}

def isWaiting (member : Member σ α) : Bool :=
  match member.activity with
  | .waiting _ => true
  | _ => false

def drain (callbacks : Callbacks σ α) (who : Nat) : Nat → Bool → Cluster σ α → Bool × Cluster σ α
  | 0, moved, cluster => (moved, cluster)
  | turns + 1, moved, cluster =>
      match cluster.move? callbacks who with
      | none => (moved, cluster)
      | some next => drain callbacks who turns true next

def sweep (callbacks : Callbacks σ α) (turns : Nat) : List Nat → Bool → Cluster σ α →
    Bool × Cluster σ α
  | [], moved, cluster => (moved, cluster)
  | who :: rest, moved, cluster =>
      let (moved, cluster) := drain callbacks who turns moved cluster
      sweep callbacks turns rest moved cluster

def expireAll (cluster : Cluster σ α) : Cluster σ α :=
  (List.range cluster.members.length).foldl expire cluster

def settle (callbacks : Callbacks σ α) (turns : Nat) : Nat → Cluster σ α → Cluster σ α
  | 0, cluster => cluster
  | rounds + 1, cluster =>
      let (moved, cluster) := sweep callbacks turns (List.range cluster.members.length) false cluster
      if moved then settle callbacks turns rounds cluster
      else if cluster.members.any isWaiting then
        settle callbacks turns rounds cluster.expireAll
      else cluster

/-- More than the turns that the members have before them. -/
def turnBound (cluster : Cluster σ α) : Nat :=
  cluster.members.foldl (fun turns member =>
    match member.activity with
    | .running run => turns + run.turnBound
    | .waiting run => turns + run.turnBound
    | .idle => turns) 0

def complete (callbacks : Callbacks σ α) (cluster : Cluster σ α) : Cluster σ α :=
  let turns := cluster.turnBound + 1
  cluster.settle callbacks turns (2 * turns)

end PipelineTraining.Cluster
