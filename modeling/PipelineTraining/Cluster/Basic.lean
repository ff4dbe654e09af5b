import PipelineTraining.Cluster.Callbacks

/-!
The members of a training group at work together. Every replica of the pipeline
has a mesh for its payloads; all members share one for their fingerprints. One
member moves at a time, by one turn of its run; a receive with nothing to
receive keeps it waiting.
-/

namespace PipelineTraining

variable {σ α : Type}

/-- What a member is doing. A waiting member has asked for a message that was let through. -/
inductive Activity (α : Type) where
  | idle
  | running (run : Run α)
  | waiting (run : Run α)

structure Member (σ α : Type) where
  replica : Nat
  worker : Worker
  own : σ
  activity : Activity α
  result : Option (Except Fault (StepReport α))

structure Cluster (σ α : Type) where
  members : List (Member σ α)
  payloads : List (Mesh α)
  fingerprints : Mesh StageFingerprint
  exchangeLimit : Duration

namespace Cluster

def make (replicas ranks : Nat) (exchangeLimit : Duration) (members : List (Member σ α)) :
    Cluster σ α where
  members := members
  payloads := List.replicate replicas (.make ranks)
  fingerprints := .make (replicas * ranks)
  exchangeLimit := exchangeLimit

def put (cluster : Cluster σ α) (who : Nat) (member : Member σ α) : Cluster σ α :=
  { cluster with members := cluster.members.set who member }

def payloadMesh (cluster : Cluster σ α) (replica : Nat) : Mesh α :=
  (cluster.payloads[replica]?).getD (.make 0)

def putPayloads (cluster : Cluster σ α) (replica : Nat) (mesh : Mesh α) : Cluster σ α :=
  { cluster with payloads := cluster.payloads.set replica mesh }

def putFingerprints (cluster : Cluster σ α) (mesh : Mesh StageFingerprint) : Cluster σ α :=
  { cluster with fingerprints := mesh }

def goOn (cluster : Cluster σ α) (who : Nat) (member : Member σ α) (own : σ) (run : Run α) :
    Cluster σ α :=
  cluster.put who { member with own := own, activity := .running run }

/-- Answers a question of a member. A receive that is let through makes the member wait. -/
def serve (callbacks : Callbacks σ α) (cluster : Cluster σ α) (who : Nat) (member : Member σ α)
    (run : Run α) : (request : Request α) → (request.Answer → Run α) → Cluster σ α
  | .forward stage microbatch input, resume =>
      let (own, answer) := callbacks.forward member.own stage microbatch input
      cluster.goOn who member own (resume answer)
  | .backward stage microbatch gradient, resume =>
      let (own, answer) := callbacks.backward member.own stage microbatch gradient
      cluster.goOn who member own (resume answer)
  | .backwardWeights stage microbatch, resume =>
      let (own, answer) := callbacks.backwardWeights member.own stage microbatch
      cluster.goOn who member own (resume answer)
  | .optimize, resume =>
      let (own, answer) := callbacks.optimize member.own
      cluster.goOn who member own (resume answer)
  | .snapshot, resume =>
      let (own, answer) := callbacks.snapshot member.own
      cluster.goOn who member own (resume answer)
  | .restore handle, resume =>
      let (own, answer) := callbacks.restore member.own handle
      cluster.goOn who member own (resume answer)
  | .discard, resume =>
      let (own, answer) := callbacks.discard member.own
      cluster.goOn who member own (resume answer)
  | .gather epoch entry, resume =>
      let (own, answer) := callbacks.gather member.own epoch entry
      cluster.goOn who member own (resume answer)
  | .dropStale epoch, resume =>
      let (_, mesh) :=
        (cluster.payloadMesh member.replica).discard member.worker.rank (·.isStale epoch)
      (cluster.putPayloads member.replica mesh).goOn who member member.own (resume ())
  | .dropPublished epoch, resume =>
      let (_, mesh) := cluster.fingerprints.discard who (·.isStale epoch)
      (cluster.putFingerprints mesh).goOn who member member.own (resume ())
  | .send peer tag payload, resume =>
      match callbacks.obstruct member.own .send peer with
      | (own, some fault) => cluster.goOn who member own (resume (.error fault))
      | (own, none) =>
          match (cluster.payloadMesh member.replica).send member.worker.rank peer tag payload with
          | .error fault => cluster.goOn who member own (resume (.error fault))
          | .ok mesh =>
              (cluster.putPayloads member.replica mesh).goOn who member own (resume (.ok ()))
  | .publish peer tag entry, resume =>
      match callbacks.obstruct member.own .publish peer with
      | (own, some fault) => cluster.goOn who member own (resume (.error fault))
      | (own, none) =>
          match cluster.fingerprints.send who peer tag entry with
          | .error fault => cluster.goOn who member own (resume (.error fault))
          | .ok mesh => (cluster.putFingerprints mesh).goOn who member own (resume (.ok ()))
  | .receive peer _, resume =>
      match callbacks.obstruct member.own .receive peer with
      | (own, some fault) => cluster.goOn who member own (resume (.error fault))
      | (own, none) => cluster.put who { member with own := own, activity := .waiting run }
  | .collect peer _, resume =>
      match callbacks.obstruct member.own .collect peer with
      | (own, some fault) => cluster.goOn who member own (resume (.error fault))
      | (own, none) => cluster.put who { member with own := own, activity := .waiting run }

def poll? (cluster : Cluster σ α) (who : Nat) (member : Member σ α) :
    (request : Request α) → (request.Answer → Run α) → Option (Cluster σ α)
  | .receive peer tag, resume =>
      match (cluster.payloadMesh member.replica).receive member.worker.rank peer tag with
      | .error fault => some (cluster.goOn who member member.own (resume (.error fault)))
      | .ok (some payload, mesh) =>
          some ((cluster.putPayloads member.replica mesh).goOn who member member.own
            (resume (.ok payload)))
      | .ok (none, _) => none
  | .collect peer tag, resume =>
      match cluster.fingerprints.receive who peer tag with
      | .error fault => some (cluster.goOn who member member.own (resume (.error fault)))
      | .ok (some entry, mesh) =>
          some ((cluster.putFingerprints mesh).goOn who member member.own (resume (.ok entry)))
      | .ok (none, _) => none
  | _, _ => none

def timeOut (cluster : Cluster σ α) (who : Nat) (member : Member σ α) :
    (request : Request α) → (request.Answer → Run α) → Cluster σ α
  | .receive _ _, resume =>
      cluster.goOn who member member.own (resume (.error (.timeout member.worker.timeout)))
  | .collect _ _, resume =>
      cluster.goOn who member member.own (resume (.error (.timeout cluster.exchangeLimit)))
  | _, _ => cluster

def move? (callbacks : Callbacks σ α) (cluster : Cluster σ α) (who : Nat) :
    Option (Cluster σ α) :=
  match cluster.members[who]? with
  | none => none
  | some member =>
      match member.activity with
      | .idle => none
      | .running run =>
          match run.turn with
          | .over result =>
              some (cluster.put who { member with
                worker := run.worker, activity := .idle, result := some result })
          | .own next => some (cluster.goOn who member member.own next)
          | .ask request resume => some (cluster.serve callbacks who member run request resume)
      | .waiting run =>
          match run.turn with
          | .ask request resume => cluster.poll? who member request resume
          | _ => none

def expire (cluster : Cluster σ α) (who : Nat) : Cluster σ α :=
  match cluster.members[who]? with
  | some member =>
      match member.activity with
      | .waiting run =>
          match run.turn with
          | .ask request resume => cluster.timeOut who member request resume
          | _ => cluster
      | _ => cluster
  | none => cluster

def begin (cluster : Cluster σ α) (start : Nat → Worker → Option (Run α)) : Cluster σ α :=
  { cluster with
    members := cluster.members.mapIdx fun who member =>
      match start who member.worker with
      | none => member
      | some run => { member with activity := .running run, result := none } }

end Cluster
end PipelineTraining
