import PipelineTraining.Cluster.Schedule
import PipelineTraining.Fingerprint.Digest

/-!
A rehearsal runs a plan without a model. Payloads are small whole numbers that
every pass mixes with its stage and micro-batch, so that a payload in the wrong
place shows; calls are logged and can be made to fail as planned.
-/

namespace PipelineTraining

inductive Call where
  | forward
  | backward
  | backwardWeights
  | discard
  | optimizer
  | snapshot
  | restore
  | passage (passage : Passage)
deriving DecidableEq

structure Occasion where
  call : Call
  stage : Option Nat
  microbatch : Option Nat
  peer : Option Nat

/-- A planned failure: the calls it is meant for, how many of them it lets pass first and how
many it then makes fail. -/
structure PlannedFault where
  member : Option Nat
  call : Call
  stage : Option Nat
  microbatch : Option Nat
  peer : Option Nat
  skip : Nat
  times : Nat
  message : String

namespace PlannedFault

def fits (wanted given : Option Nat) : Bool :=
  match wanted with
  | none => true
  | some value => given == some value

def isMeant (fault : PlannedFault) (occasion : Occasion) : Bool :=
  fault.call == occasion.call && fits fault.stage occasion.stage &&
    fits fault.microbatch occasion.microbatch && fits fault.peer occasion.peer

/-- Goes through the planned faults in order. Each one that is meant and not used up lets the
call pass once more, or strikes; behind a strike nothing is looked at. -/
def strike (occasion : Occasion) : List PlannedFault → List PlannedFault × Option String
  | [] => ([], none)
  | fault :: rest =>
      if fault.isMeant occasion && 0 < fault.times then
        if 0 < fault.skip then
          let (rest, message) := strike occasion rest
          ({ fault with skip := fault.skip - 1 } :: rest, message)
        else ({ fault with times := fault.times - 1 } :: rest, some fault.message)
      else
        let (rest, message) := strike occasion rest
        (fault :: rest, message)

end PlannedFault

structure Rehearsal where
  faults : List PlannedFault
  /-- What the optimizer answers, call by call; the last one repeats. -/
  fingerprints : List Fingerprint
  optimizerCalls : Nat
  snapshots : Nat
  /-- Without weight passes and discarding of their own, members leave both to the default. -/
  minimal : Bool
  payloadLimit : Duration
  exchangeLimit : Duration
  members : Nat
  ranks : Nat
  log : List String

namespace Rehearsal

/-- A prime number, so that mixing loses nothing. -/
def modulus : Int := 1000003

def forwardValue (stage : StageId) (microbatch : Nat) (input : Int) : Int :=
  (input * 31 + stage.logical * 7 + microbatch + 1) % modulus

def backwardValue (stage : StageId) (microbatch : Nat) (gradient : Int) : Int :=
  (gradient * 37 + stage.logical * 11 + microbatch + 3) % modulus

def note (rehearsal : Rehearsal) (entry : String) : Rehearsal :=
  { rehearsal with log := rehearsal.log ++ [entry] }

def strike (rehearsal : Rehearsal) (occasion : Occasion) : Rehearsal × Option String :=
  let (faults, message) := PlannedFault.strike occasion rehearsal.faults
  ({ rehearsal with faults := faults }, message)

def payloadText : Option Int → String
  | none => "none"
  | some value => toString value

def plainCall (rehearsal : Rehearsal) (occasion : Occasion) (entry : String) :
    Rehearsal × Except String Unit :=
  match rehearsal.strike occasion with
  | (rehearsal, some message) => (rehearsal.note (entry ++ " !"), .error message)
  | (rehearsal, none) => (rehearsal.note entry, .ok ())

def passCall (rehearsal : Rehearsal) (call : Call) (stage : StageId) (microbatch : Nat)
    (entry : String) (value : Int) : Rehearsal × Except String Int :=
  match rehearsal.strike ⟨call, some stage.logical, some microbatch, none⟩ with
  | (rehearsal, some message) => (rehearsal.note (entry ++ " !"), .error message)
  | (rehearsal, none) => (rehearsal.note s!"{entry}->{value}", .ok value)

/-- The first stage starts from 5 if no inputs are given. -/
def forward (rehearsal : Rehearsal) (stage : StageId) (microbatch : Nat) (input : Option Int) :
    Rehearsal × Except String Int :=
  let text := (Operation.forward stage microbatch).text
  rehearsal.passCall .forward stage microbatch s!"{text} {payloadText input}"
    (forwardValue stage microbatch (input.getD 5))

/-- The loss at the last stage has the gradient 7. -/
def backward (rehearsal : Rehearsal) (stage : StageId) (microbatch : Nat) (gradient : Option Int) :
    Rehearsal × Except String Int :=
  let text := (Operation.backward stage microbatch).text
  rehearsal.passCall .backward stage microbatch s!"{text} {payloadText gradient}"
    (backwardValue stage microbatch (gradient.getD 7))

def backwardWeights (rehearsal : Rehearsal) (stage : StageId) (microbatch : Nat) :
    Rehearsal × Except String Unit :=
  if rehearsal.minimal then (rehearsal, .ok ())
  else
    rehearsal.plainCall ⟨.backwardWeights, some stage.logical, some microbatch, none⟩
      (Operation.backwardWeights stage microbatch).text

def discard (rehearsal : Rehearsal) : Rehearsal × Except String Unit :=
  if rehearsal.minimal then (rehearsal, .ok ())
  else rehearsal.plainCall ⟨.discard, none, none, none⟩ "discard"

def nextFingerprint (rehearsal : Rehearsal) : Fingerprint :=
  (rehearsal.fingerprints[rehearsal.optimizerCalls]?.or rehearsal.fingerprints.getLast?).getD
    Digest.empty.finish

/-- A call that fails is not counted. -/
def optimize (rehearsal : Rehearsal) : Rehearsal × Except String Fingerprint :=
  match rehearsal.plainCall ⟨.optimizer, none, none, none⟩ "optimizer" with
  | (rehearsal, .error message) => (rehearsal, .error message)
  | (rehearsal, .ok ()) =>
      ({ rehearsal with optimizerCalls := rehearsal.optimizerCalls + 1 },
        .ok rehearsal.nextFingerprint)

def snapshot (rehearsal : Rehearsal) : Rehearsal × Except String Nat :=
  match rehearsal.plainCall ⟨.snapshot, none, none, none⟩ "snapshot" with
  | (rehearsal, .error message) => (rehearsal, .error message)
  | (rehearsal, .ok ()) =>
      let handle := rehearsal.snapshots + 1
      ({ rehearsal with snapshots := handle }, .ok handle)

def restore (rehearsal : Rehearsal) (handle : Nat) : Rehearsal × Except String Unit :=
  rehearsal.plainCall ⟨.restore, none, none, none⟩ s!"restore {handle}"

def deliveryFault (rehearsal : Rehearsal) (passage : Passage) (peer : Nat) (message : String) :
    DeliveryFault :=
  if message = "timeout" then
    match passage with
    | .receive => .timeout rehearsal.payloadLimit
    | .collect => .timeout rehearsal.exchangeLimit
    | _ => .timeout .zero
  else if message = "invalid_peer" then
    match passage with
    | .send => .outsideGroup peer rehearsal.ranks
    | .receive => .outsideGroup peer rehearsal.ranks
    | _ => .outsideGroup peer rehearsal.members
  else .disconnected peer

def obstruct (rehearsal : Rehearsal) (passage : Passage) (peer : Nat) :
    Rehearsal × Option DeliveryFault :=
  match rehearsal.strike ⟨.passage passage, none, none, some peer⟩ with
  | (rehearsal, none) => (rehearsal, none)
  | (rehearsal, some message) => (rehearsal, some (rehearsal.deliveryFault passage peer message))

def callbacks : Callbacks Rehearsal Int where
  forward := forward
  backward := backward
  backwardWeights := backwardWeights
  optimize := optimize
  snapshot := snapshot
  restore := restore
  discard := discard
  gather own _ entry := (own, .ok [entry])
  obstruct := obstruct

def usualFingerprint (rank : Nat) : Fingerprint :=
  (Digest.empty.addAll .single
    [(Float.ofNat (rank + 1)).toFloat32.toBits.toNat, (0.5 : Float).toFloat32.toBits.toNat]).finish

end Rehearsal
end PipelineTraining
