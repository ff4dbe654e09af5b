import PipelineTraining.Plan.Verification
import PipelineTraining.Transport.Tag
import PipelineTraining.Validation.Comparison

/-!
One attempt at an iteration, as a rank sees it: the operations still ahead, the
payloads it holds, the passes it has run. An operation whose time has not come
is put off and tried again before the next one.
-/

namespace PipelineTraining

variable {α : Type}

/-- Values under keys, each key at most once. -/
abbrev Shelf (κ : Type) (α : Type) := List (κ × α)

namespace Shelf

variable {κ : Type} [DecidableEq κ]

def has (shelf : Shelf κ α) (key : κ) : Bool :=
  shelf.any fun entry => entry.1 == key

def without (shelf : Shelf κ α) (key : κ) : Shelf κ α :=
  shelf.filter fun entry => entry.1 != key

def put (shelf : Shelf κ α) (key : κ) (value : α) : Shelf κ α :=
  (key, value) :: shelf.without key

def take? (shelf : Shelf κ α) (key : κ) : Option (α × Shelf κ α) :=
  (shelf.lookup key).map fun value => (value, shelf.without key)

end Shelf

structure Slot where
  kind : TransferKind
  stage : Nat
  microbatch : Nat
deriving DecidableEq

structure Attempt (α : Type) where
  epoch : UInt32
  inputs : List (Option α)
  remaining : List Operation
  waiting : List Operation
  inbox : Shelf Slot α
  outbox : Shelf Transfer α
  /-- Passes run, by logical stage and micro-batch, each listed once. -/
  forwarded : List (Nat × Nat)
  backwarded : List (Nat × Nat)
  weighted : Nat
  outputs : List (Nat × α)
  inputGradients : List (Nat × α)
  fingerprint : Option Fingerprint
  validation : Option Outcome
  executed : Nat
  deferred : Nat

namespace Attempt

def start (epoch : UInt32) (inputs : List (Option α)) (operations : List Operation) : Attempt α where
  epoch := epoch
  inputs := inputs
  remaining := operations
  waiting := []
  inbox := []
  outbox := []
  forwarded := []
  backwarded := []
  weighted := 0
  outputs := []
  inputGradients := []
  fingerprint := none
  validation := none
  executed := 0
  deferred := 0

/-- A set as a list: what is in it already is not added again. -/
def insertOnce (pass : Nat × Nat) (passes : List (Nat × Nat)) : List (Nat × Nat) :=
  if passes.contains pass then passes else pass :: passes

def isReady (plan : Plan) (rank : Nat) (limiter : Limiter) (attempt : Attempt α) :
    Operation → Bool
  | .forward stage microbatch =>
      limiter.admits rank &&
        (plan.layout.isFirst stage ||
          attempt.inbox.has ⟨.activation, stage.logical, microbatch⟩)
  | .backward stage microbatch =>
      attempt.forwarded.contains (stage.logical, microbatch) &&
        (plan.layout.isLast stage ||
          attempt.inbox.has ⟨.gradient, stage.logical, microbatch⟩)
  | .backwardWeights stage microbatch =>
      attempt.backwarded.contains (stage.logical, microbatch)
  | .send _ transfer => attempt.outbox.has transfer
  | .receive _ _ => true
  | .optimizerStep =>
      attempt.forwarded.length == plan.passesPerRank &&
        attempt.backwarded.length == plan.passesPerRank &&
        (!plan.split || attempt.weighted == plan.passesPerRank) &&
        limiter.pendingOn rank == 0
  | .validationSync => attempt.fingerprint.isSome

def pickWaiting (ready : Operation → Bool) : List Operation → Option (Operation × List Operation)
  | [] => none
  | operation :: rest =>
      if ready operation then some (operation, rest)
      else (pickWaiting ready rest).map fun found => (found.1, operation :: found.2)

inductive Choice (α : Type) where
  | run (operation : Operation) (attempt : Attempt α)
  | defer (attempt : Attempt α)
  | finish
  | stuck (operations : List Operation)

def choose (ready : Operation → Bool) (attempt : Attempt α) : Choice α :=
  match pickWaiting ready attempt.waiting with
  | some (operation, waiting) => .run operation { attempt with waiting := waiting }
  | none =>
      match attempt.remaining with
      | operation :: remaining =>
          if ready operation then .run operation { attempt with remaining := remaining }
          else
            .defer { attempt with
              remaining := remaining
              waiting := attempt.waiting ++ [operation]
              deferred := attempt.deferred + 1 }
      | [] => if attempt.waiting.isEmpty then .finish else .stuck attempt.waiting

def takeInput (attempt : Attempt α) (microbatch : Nat) : Option α × Attempt α :=
  ((attempt.inputs[microbatch]?).join,
    { attempt with inputs := attempt.inputs.set microbatch none })

def forwardInput (layout : Layout) (rank : Nat) (attempt : Attempt α) (stage : StageId)
    (microbatch : Nat) : Except Fault (Option α × Attempt α) :=
  if layout.isFirst stage then .ok (attempt.takeInput microbatch)
  else
    match attempt.inbox.take? ⟨.activation, stage.logical, microbatch⟩ with
    | some (payload, inbox) => .ok (some payload, { attempt with inbox := inbox })
    | none => .error (.invariant rank (.withoutActivation (.forward stage microbatch)))

/-- The gradient a backward starts from; the last stage starts from its own loss. -/
def backwardInput (layout : Layout) (rank : Nat) (attempt : Attempt α) (stage : StageId)
    (microbatch : Nat) : Except Fault (Option α × Attempt α) :=
  if layout.isLast stage then .ok (none, attempt)
  else
    match attempt.inbox.take? ⟨.gradient, stage.logical, microbatch⟩ with
    | some (payload, inbox) => .ok (some payload, { attempt with inbox := inbox })
    | none => .error (.invariant rank (.withoutGradient (.backward stage microbatch)))

def passOn (layout : Layout) (rank : Nat) (attempt : Attempt α) (stage : StageId)
    (microbatch : Nat) (output : α) : Attempt α :=
  match layout.next stage with
  | none => { attempt with outputs := attempt.outputs ++ [(microbatch, output)] }
  | some next =>
      if layout.rankOf next = rank then
        { attempt with inbox := attempt.inbox.put ⟨.activation, next.logical, microbatch⟩ output }
      else
        { attempt with outbox := attempt.outbox.put (.activation stage next microbatch) output }

def passBack (layout : Layout) (rank : Nat) (attempt : Attempt α) (stage : StageId)
    (microbatch : Nat) (gradient : α) : Attempt α :=
  match layout.prev stage with
  | none => { attempt with inputGradients := attempt.inputGradients ++ [(microbatch, gradient)] }
  | some prev =>
      if layout.rankOf prev = rank then
        { attempt with inbox := attempt.inbox.put ⟨.gradient, prev.logical, microbatch⟩ gradient }
      else
        { attempt with outbox := attempt.outbox.put (.gradient stage prev microbatch) gradient }

/-- A forward is entered and its result handed on; none if the layout cannot say where to. -/
def forwardDone (layout : Layout) (rank : Nat) (attempt : Attempt α) (stage : StageId)
    (microbatch : Nat) (output : α) : Option (Attempt α) :=
  let entered := { attempt with
    forwarded := insertOnce (stage.logical, microbatch) attempt.forwarded }
  if layout.isLast stage || layout.places then
    some (entered.passOn layout rank stage microbatch output)
  else none

def backwardDone (layout : Layout) (rank : Nat) (attempt : Attempt α) (stage : StageId)
    (microbatch : Nat) (gradient : α) : Option (Attempt α) :=
  let entered := { attempt with
    backwarded := insertOnce (stage.logical, microbatch) attempt.backwarded }
  if layout.isFirst stage || layout.places then
    some (entered.passBack layout rank stage microbatch gradient)
  else none

def received (attempt : Attempt α) (transfer : Transfer) (payload : α) : Attempt α :=
  { attempt with
    inbox := attempt.inbox.put ⟨transfer.kind, transfer.target.logical, transfer.microbatch⟩ payload }

end Attempt
end PipelineTraining
