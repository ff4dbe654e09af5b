import PipelineTraining.Fault

/-!
Message tags. A tag names the attempt a message belongs to and, within it, the
message: receiving stage, micro-batch and direction. Epochs count attempts and
wrap; a tag from up to half the circle behind is stale, one from ahead is not.
-/

namespace PipelineTraining

/-- An epoch in the upper word, the place within it in the lower. -/
structure Tag where
  epoch : UInt32
  slot : UInt32
deriving DecidableEq

namespace Tag

def number (tag : Tag) : Nat :=
  tag.epoch.toNat * Nat.pow 2 32 + tag.slot.toNat

def ofNumber (number : Nat) : Tag :=
  ⟨(number / Nat.pow 2 32).toUInt32, number.toUInt32⟩

def lag (tag : Tag) (current : UInt32) : UInt32 :=
  current - tag.epoch

def isStale (tag : Tag) (current : UInt32) : Bool :=
  0 < tag.lag current && tag.lag current < 0x80000000

/-- The slot of fingerprints. They have a mesh of their own. -/
def fingerprintSlot : UInt32 := 0x7a620001

def fingerprint (epoch : UInt32) : Tag :=
  ⟨epoch, fingerprintSlot⟩

end Tag

/-- The epoch of an attempt: two to an iteration, around the circle. -/
def attemptEpoch (iteration attempt : Nat) : UInt32 :=
  (2 * iteration + attempt % 2).toUInt32

namespace Transfer

/-- The place of a payload among those of one attempt: receiving stage first, then micro-batch,
then direction. -/
def slot (transfer : Transfer) (microbatches direction : Nat) : Nat :=
  (transfer.target.logical * microbatches + transfer.microbatch) * 2 + direction

def tagIn (transfer : Transfer) (microbatches direction : Nat) (epoch : UInt32) :
    Except Fault Tag :=
  let slot := transfer.slot microbatches direction
  if Nat.pow 2 64 ≤ slot then .error (.configuration (.microbatchBeyondWords transfer.microbatch))
  else if Nat.pow 2 32 ≤ slot then .error (.configuration (.microbatchBeyondTags transfer.microbatch))
  else .ok ⟨epoch, slot.toUInt32⟩

def tag (transfer : Transfer) (microbatches : Nat) (epoch : UInt32) : Except Fault Tag :=
  match transfer.kind with
  | .activation => transfer.tagIn microbatches 0 epoch
  | .gradient => transfer.tagIn microbatches 1 epoch
  | .fingerprint => .error (.configuration .notPayload)

/-- A payload that could not be moved. A timeout counts as a stall of the receiving rank. -/
def undelivered (transfer : Transfer) (rank peer : Nat) (limit : Duration) : DeliveryFault → Fault
  | .timeout _ => .stall rank peer (some transfer.microbatch) transfer.kind limit
  | fault => .transport rank peer (.payload transfer.kind transfer.microbatch fault)

end Transfer
end PipelineTraining
