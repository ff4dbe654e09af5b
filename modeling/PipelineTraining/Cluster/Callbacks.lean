import PipelineTraining.Engine.Run

/-!
What the members of a cluster bring along: the model's passes, the optimizer, the
keeping of snapshots and an exchange of fingerprints for members that do not use
the mesh, over a state of their own.
-/

namespace PipelineTraining

variable {σ α : Type}

inductive Passage where
  | send
  | receive
  | publish
  | collect
deriving DecidableEq

structure Callbacks (σ α : Type) where
  forward : σ → StageId → Nat → Option α → σ × Except String α
  backward : σ → StageId → Nat → Option α → σ × Except String α
  backwardWeights : σ → StageId → Nat → σ × Except String Unit
  optimize : σ → σ × Except String Fingerprint
  snapshot : σ → σ × Except String Nat
  restore : σ → Nat → σ × Except String Unit
  discard : σ → σ × Except String Unit
  gather : σ → UInt32 → StageFingerprint → σ × Except Fault (List StageFingerprint)
  obstruct : σ → Passage → Nat → σ × Option DeliveryFault

namespace Callbacks

/-- Drives a run without a mesh: sends are taken, nothing is stale and every receive finds its
peer gone. -/
def alone (callbacks : Callbacks σ α) (own : σ) :
    (request : Request α) → σ × request.Answer
  | .forward stage microbatch input => callbacks.forward own stage microbatch input
  | .backward stage microbatch gradient => callbacks.backward own stage microbatch gradient
  | .backwardWeights stage microbatch => callbacks.backwardWeights own stage microbatch
  | .optimize => callbacks.optimize own
  | .dropStale _ => (own, ())
  | .send .. => (own, .ok ())
  | .receive peer _ => (own, .error (.disconnected peer))
  | .dropPublished _ => (own, ())
  | .publish .. => (own, .ok ())
  | .collect peer _ => (own, .error (.disconnected peer))
  | .gather epoch entry => callbacks.gather own epoch entry
  | .snapshot => callbacks.snapshot own
  | .restore handle => callbacks.restore own handle
  | .discard => callbacks.discard own

end Callbacks

namespace Run

def drive (answer : σ → (request : Request α) → σ × request.Answer) : Nat → σ → Run α → σ × Run α
  | 0, own, run => (own, run)
  | turns + 1, own, run =>
      match run.turn with
      | .over _ => (own, run)
      | .own next => drive answer turns own next
      | .ask request resume =>
          let (own, reply) := answer own request
          drive answer turns own (resume reply)

def outcome? (run : Run α) : Option (Except Fault (StepReport α)) :=
  match run.phase with
  | .ended result => some result
  | _ => none

end Run
end PipelineTraining
