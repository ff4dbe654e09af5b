import PipelineTraining.Transport.Mesh
import PipelineTraining.Validation.Comparison

/-!
The exchange of fingerprints. Every member drops what is left of earlier epochs,
sends its own fingerprint to all others and collects theirs in the order of the
members, its own in its place. A call that fails leaves the rest undone.
-/

namespace PipelineTraining

structure Gather where
  rank : Nat
  members : Nat
  epoch : UInt32
  own : StageFingerprint
  unsent : List Nat
  missing : List Nat
  gathered : List StageFingerprint

namespace Gather

inductive Move where
  | publish (peer : Nat)
  | collect (peer : Nat)
  | finish

def start (rank members : Nat) (epoch : UInt32) (own : StageFingerprint) : Gather where
  rank := rank
  members := members
  epoch := epoch
  own := own
  unsent := (List.range members).filter fun peer => peer != rank
  missing := List.range members
  gathered := []

def tag (gather : Gather) : Tag :=
  .fingerprint gather.epoch

def enterOwn (gather : Gather) : Gather :=
  match gather.missing with
  | [] => gather
  | peer :: rest =>
      if peer = gather.rank then
        { gather with missing := rest, gathered := gather.gathered ++ [gather.own] }
      else gather

def move (gather : Gather) : Move :=
  match gather.unsent, gather.enterOwn.missing with
  | peer :: _, _ => .publish peer
  | [], peer :: _ => .collect peer
  | [], [] => .finish

def published (gather : Gather) : Gather :=
  { gather with unsent := gather.unsent.tail }

def collected (gather : Gather) (entry : StageFingerprint) : Gather :=
  let gather := gather.enterOwn
  { gather with missing := gather.missing.tail, gathered := gather.gathered ++ [entry] }

def result (gather : Gather) : List StageFingerprint :=
  gather.enterOwn.gathered

def failure (rank peer : Nat) : DeliveryFault → Fault
  | .timeout span => .stall rank peer none .fingerprint span
  | fault => .transport rank peer (.fingerprint fault)

/-- Runs a call on a mesh where nothing more will arrive, so that an empty receive has timed
out. -/
def run (limit : Duration) : Nat → Mesh StageFingerprint → Gather →
    Mesh StageFingerprint × Except Fault (List StageFingerprint)
  | 0, mesh, gather => (mesh, .ok gather.result)
  | steps + 1, mesh, gather =>
      match gather.move with
      | .finish => (mesh, .ok gather.result)
      | .publish peer =>
          match mesh.send gather.rank peer gather.tag gather.own with
          | .ok mesh => run limit steps mesh gather.published
          | .error fault => (mesh, .error (failure gather.rank peer fault))
      | .collect peer =>
          match mesh.receive gather.rank peer gather.tag with
          | .ok (some entry, mesh) => run limit steps mesh (gather.collected entry)
          | .ok (none, mesh) => (mesh, .error (failure gather.rank peer (.timeout limit)))
          | .error fault => (mesh, .error (failure gather.rank peer fault))

def alone (mesh : Mesh StageFingerprint) (rank : Nat) (epoch : UInt32) (own : StageFingerprint)
    (limit : Duration) : Mesh StageFingerprint × Except Fault (List StageFingerprint) :=
  let (_, mesh) := mesh.discard rank (·.isStale epoch)
  run limit (2 * mesh.size) mesh (start rank mesh.size epoch own)

end Gather
end PipelineTraining
