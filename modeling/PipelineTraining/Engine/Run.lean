import PipelineTraining.Engine.Worker

/-!
A run of one iteration, as a machine. It asks its surroundings for one thing at
a time (a pass, a message, the optimizer, a snapshot) and goes on with the
answer; between two questions it only chooses what to do next. A guarded run
snapshots the parameters, validates the update, and on a mismatch restores them
and tries the same iteration once more.
-/

namespace PipelineTraining

variable {α : Type}

inductive Request (α : Type) where
  | forward (stage : StageId) (microbatch : Nat) (input : Option α)
  | backward (stage : StageId) (microbatch : Nat) (gradient : Option α)
  | backwardWeights (stage : StageId) (microbatch : Nat)
  | optimize
  | dropStale (epoch : UInt32)
  | send (peer : Nat) (tag : Tag) (payload : α)
  | receive (peer : Nat) (tag : Tag)
  | dropPublished (epoch : UInt32)
  | publish (peer : Nat) (tag : Tag) (entry : StageFingerprint)
  | collect (peer : Nat) (tag : Tag)
  | gather (epoch : UInt32) (own : StageFingerprint)
  | snapshot
  | restore (handle : Nat)
  | discard

/-- What comes back. Callbacks fail with a text of their own, messages with a cause, and an exchange
other than the mesh with any fault. -/
def Request.Answer : Request α → Type
  | .forward .. => Except String α
  | .backward .. => Except String α
  | .backwardWeights .. => Except String Unit
  | .optimize => Except String Fingerprint
  | .dropStale _ => Unit
  | .send .. => Except DeliveryFault Unit
  | .receive .. => Except DeliveryFault α
  | .dropPublished _ => Unit
  | .publish .. => Except DeliveryFault Unit
  | .collect .. => Except DeliveryFault StageFingerprint
  | .gather .. => Except Fault (List StageFingerprint)
  | .snapshot => Except String Nat
  | .restore _ => Except String Unit
  | .discard => Except String Unit

structure IterationResult (α : Type) where
  rank : Nat
  iteration : Nat
  outputs : List (Nat × α)
  inputGradients : List (Nat × α)
  fingerprint : Option Fingerprint
  validation : Option Outcome
  executed : Nat
  deferred : Nat
  peakPending : Nat

structure StepReport (α : Type) where
  attempts : Nat
  state : StepState
  result : IterationResult α

structure Guard where
  handle : Nat
  cycle : StepCycle
  attempts : Nat

inductive Aftermath where
  | retry (guard : Guard)
  | fail (fault : Fault)

inductive Phase (α : Type) where
  | snapshotting
  | clearing (guard : Option Guard)
  | choosing (guard : Option Guard) (attempt : Attempt α)
  | forwarding (guard : Option Guard) (attempt : Attempt α) (stage : StageId) (microbatch : Nat)
      (input : Option α)
  | backwarding (guard : Option Guard) (attempt : Attempt α) (stage : StageId) (microbatch : Nat)
      (gradient : Option α)
  | weighing (guard : Option Guard) (attempt : Attempt α) (stage : StageId) (microbatch : Nat)
  | sending (guard : Option Guard) (attempt : Attempt α) (peer : Nat) (transfer : Transfer)
      (tag : Tag) (payload : α)
  | receiving (guard : Option Guard) (attempt : Attempt α) (peer : Nat) (transfer : Transfer)
      (tag : Tag)
  | optimizing (guard : Option Guard) (attempt : Attempt α)
  | preparing (guard : Option Guard) (attempt : Attempt α) (gather : Gather)
  | gathering (guard : Option Guard) (attempt : Attempt α) (gather : Gather)
  | consulting (guard : Option Guard) (attempt : Attempt α) (own : StageFingerprint)
  | restoring (handle : Nat) (after : Aftermath)
  | discarding (after : Aftermath)
  | ended (result : Except Fault (StepReport α))

structure Run (α : Type) where
  worker : Worker
  iteration : Nat
  inputs : Option (List α)
  phase : Phase α

inductive Turn (α : Type) where
  | over (result : Except Fault (StepReport α))
  | own (next : Run α)
  | ask (request : Request α) (resume : request.Answer → Run α)

namespace Run

def become (run : Run α) (phase : Phase α) : Run α :=
  { run with phase := phase }

def epoch (run : Run α) (guard : Option Guard) : UInt32 :=
  attemptEpoch run.iteration ((guard.map Guard.attempts).getD 0)

/-- A fault ends an unguarded run; a guarded one goes back to its snapshot first. -/
def fail (run : Run α) (guard : Option Guard) (fault : Fault) : Run α :=
  match guard with
  | none => run.become (.ended (.error fault))
  | some guard => run.become (.restoring guard.handle (.fail fault))

/-- Attempts begin by looking at the inputs: one for every micro-batch, or none at all. -/
def beginAttempt (run : Run α) (guard : Option Guard) : Run α :=
  match run.inputs with
  | none => run.become (.clearing guard)
  | some inputs =>
      if inputs.length = run.worker.plan.microbatches then run.become (.clearing guard)
      else
        run.fail guard
          (.configuration (.inputCount run.worker.plan.microbatches inputs.length))

def attemptInputs (run : Run α) : List (Option α) :=
  match run.inputs with
  | none => List.replicate run.worker.plan.microbatches none
  | some inputs => inputs.map some

def cleared (run : Run α) (guard : Option Guard) : Run α :=
  let attempt := Attempt.start (run.epoch guard) run.attemptInputs run.worker.operations
  { run with
    worker := { run.worker with
      limiter := run.worker.limiter.reset
      recorder := run.worker.recorder.beginIteration run.iteration }
    phase := .choosing (guard.map fun guard => { guard with attempts := guard.attempts + 1 }) attempt }

def result (run : Run α) (attempt : Attempt α) : IterationResult α where
  rank := run.worker.rank
  iteration := run.iteration
  outputs := attempt.outputs
  inputGradients := attempt.inputGradients
  fingerprint := attempt.fingerprint
  validation := attempt.validation
  executed := attempt.executed
  deferred := attempt.deferred
  peakPending := run.worker.limiter.peakOn run.worker.rank

/-- An attempt that failed leaves no backward pending. Its timings are handed over all the same. -/
def abort (run : Run α) (guard : Option Guard) (fault : Fault) : Run α :=
  let worker := { run.worker with limiter := run.worker.limiter.reset }
  ({ run with worker := worker.flushed } : Run α).fail guard fault

/-- A rank that looks for a stage without a place breaks off where it stands: no timings are
handed over and nothing is rolled back. -/
def collapse (run : Run α) : Run α :=
  run.become (.ended (.error .unplaced))

def decide (run : Run α) (guard : Guard) (result : IterationResult α) : Run α :=
  match result.validation with
  | none => run.fail (some guard) (.invariant run.worker.rank .unvalidated)
  | some outcome =>
      let begun :=
        if guard.cycle.state = .applied then guard.cycle.beginValidation else .ok guard.cycle
      match begun with
      | .error fault => run.fail (some guard) fault
      | .ok cycle =>
          match cycle.judge outcome with
          | (cycle, .ok .commit) =>
              run.become (.ended (.ok ⟨guard.attempts, cycle.state, result⟩))
          | (cycle, .ok .rollBackAndRetry) =>
              run.become (.restoring guard.handle (.retry { guard with cycle := cycle }))
          | (cycle, .error fault) => run.fail (some { guard with cycle := cycle }) fault

def finish (run : Run α) (guard : Option Guard) (attempt : Attempt α) : Run α :=
  let run := { run with worker := run.worker.flushed }
  let result := run.result attempt
  match guard with
  | none => run.become (.ended (.ok ⟨1, .committed, result⟩))
  | some guard => run.decide guard result

def completed (run : Run α) (guard : Option Guard) (attempt : Attempt α) (operation : Operation) :
    Run α :=
  { run with
    worker := run.worker.recorded operation
    phase := .choosing guard { attempt with executed := attempt.executed + 1 } }

def startForward (run : Run α) (guard : Option Guard) (attempt : Attempt α) (stage : StageId)
    (microbatch : Nat) : Run α :=
  let worker := run.worker
  match attempt.forwardInput worker.plan.layout worker.rank stage microbatch with
  | .error fault => run.abort guard fault
  | .ok (input, attempt) =>
      match worker.limiter.admit? worker.rank with
      | none =>
          run.abort guard
            (.invariant worker.rank (.overLimit (.forward stage microbatch) worker.limiter.limit))
      | some limiter =>
          { run with
            worker := { worker with limiter := limiter }
            phase := .forwarding guard attempt stage microbatch input }

def startBackward (run : Run α) (guard : Option Guard) (attempt : Attempt α) (stage : StageId)
    (microbatch : Nat) : Run α :=
  match attempt.backwardInput run.worker.plan.layout run.worker.rank stage microbatch with
  | .error fault => run.abort guard fault
  | .ok (gradient, attempt) => run.become (.backwarding guard attempt stage microbatch gradient)

def startSend (run : Run α) (guard : Option Guard) (attempt : Attempt α) (peer : Nat)
    (transfer : Transfer) : Run α :=
  match attempt.outbox.take? transfer with
  | none => run.abort guard (.invariant run.worker.rank (.nothingTo (.send peer transfer)))
  | some (payload, outbox) =>
      match transfer.tag run.worker.plan.microbatches attempt.epoch with
      | .error fault => run.abort guard fault
      | .ok tag =>
          run.become (.sending guard { attempt with outbox := outbox } peer transfer tag payload)

def startReceive (run : Run α) (guard : Option Guard) (attempt : Attempt α) (peer : Nat)
    (transfer : Transfer) : Run α :=
  match transfer.tag run.worker.plan.microbatches attempt.epoch with
  | .error fault => run.abort guard fault
  | .ok tag => run.become (.receiving guard attempt peer transfer tag)

def exchanging (run : Run α) (guard : Option Guard) (attempt : Attempt α)
    (own : StageFingerprint) : Phase α :=
  let seat := run.worker.seat
  if run.worker.validator.channel = some .other then .consulting guard attempt own
  else .preparing guard attempt (.start seat.member seat.members attempt.epoch own)

/-- A validator that is not at work lets the update pass at once. -/
def startSync (run : Run α) (guard : Option Guard) (attempt : Attempt α) : Run α :=
  let worker := run.worker
  match attempt.fingerprint with
  | none => run.abort guard (.invariant worker.rank .syncBeforeOptimizer)
  | some fingerprint =>
      if worker.validator.isEnabled then
        run.become (run.exchanging guard attempt (worker.validator.publish fingerprint))
      else
        run.completed guard { attempt with validation := some .consistent } .validationSync

def take (run : Run α) (guard : Option Guard) (attempt : Attempt α) : Operation → Run α
  | .forward stage microbatch => run.startForward guard attempt stage microbatch
  | .backward stage microbatch => run.startBackward guard attempt stage microbatch
  | .backwardWeights stage microbatch => run.become (.weighing guard attempt stage microbatch)
  | .send peer transfer => run.startSend guard attempt peer transfer
  | .receive peer transfer => run.startReceive guard attempt peer transfer
  | .optimizerStep => run.become (.optimizing guard attempt)
  | .validationSync => run.startSync guard attempt

def choose (run : Run α) (guard : Option Guard) (attempt : Attempt α) : Run α :=
  let worker := run.worker
  match attempt.choose (attempt.isReady worker.plan worker.rank worker.limiter) with
  | .run operation attempt => run.take guard attempt operation
  | .defer attempt => run.become (.choosing guard attempt)
  | .finish => run.finish guard attempt
  | .stuck operations => run.abort guard (.invariant worker.rank (.stuck operations))

def forwarded (run : Run α) (guard : Option Guard) (attempt : Attempt α) (stage : StageId)
    (microbatch : Nat) : Except String α → Run α
  | .error source => run.abort guard (run.worker.passFault .forward stage microbatch source)
  | .ok output =>
      match attempt.forwardDone run.worker.plan.layout run.worker.rank stage microbatch output with
      | none => run.collapse
      | some attempt => run.completed guard attempt (.forward stage microbatch)

def backwarded (run : Run α) (guard : Option Guard) (attempt : Attempt α) (stage : StageId)
    (microbatch : Nat) : Except String α → Run α
  | .error source => run.abort guard (run.worker.passFault .backward stage microbatch source)
  | .ok gradient =>
      let worker := run.worker
      match worker.limiter.complete worker.rank with
      | .error fault => run.abort guard fault
      | .ok limiter =>
          let run := { run with worker := { worker with limiter := limiter } }
          match attempt.backwardDone worker.plan.layout worker.rank stage microbatch gradient with
          | none => run.collapse
          | some attempt => run.completed guard attempt (.backward stage microbatch)

def weighed (run : Run α) (guard : Option Guard) (attempt : Attempt α) (stage : StageId)
    (microbatch : Nat) : Except String Unit → Run α
  | .error source => run.abort guard (run.worker.passFault .backwardWeights stage microbatch source)
  | .ok () =>
      run.completed guard { attempt with weighted := attempt.weighted + 1 }
        (.backwardWeights stage microbatch)

def sent (run : Run α) (guard : Option Guard) (attempt : Attempt α) (peer : Nat)
    (transfer : Transfer) : Except DeliveryFault Unit → Run α
  | .error fault => run.abort guard (transfer.undelivered run.worker.rank peer .zero fault)
  | .ok () => run.completed guard attempt (.send peer transfer)

def received (run : Run α) (guard : Option Guard) (attempt : Attempt α) (peer : Nat)
    (transfer : Transfer) : Except DeliveryFault α → Run α
  | .error fault =>
      run.abort guard (transfer.undelivered run.worker.rank peer run.worker.timeout fault)
  | .ok payload => run.completed guard (attempt.received transfer payload) (.receive peer transfer)

def optimized (run : Run α) (guard : Option Guard) (attempt : Attempt α) :
    Except String Fingerprint → Run α
  | .error source => run.abort guard (run.worker.rankFault source)
  | .ok fingerprint =>
      run.completed guard { attempt with fingerprint := some fingerprint } .optimizerStep

def judged (run : Run α) (guard : Option Guard) (attempt : Attempt α)
    (gathered : List StageFingerprint) : Run α :=
  let outcome := run.worker.validator.judge gathered
  run.completed guard { attempt with validation := some outcome } .validationSync

def consulted (run : Run α) (guard : Option Guard) (attempt : Attempt α) :
    Except Fault (List StageFingerprint) → Run α
  | .error fault => run.abort guard fault
  | .ok gathered => run.judged guard attempt gathered

def published (run : Run α) (guard : Option Guard) (attempt : Attempt α) (gather : Gather)
    (peer : Nat) : Except DeliveryFault Unit → Run α
  | .error fault => run.abort guard (Gather.failure gather.rank peer fault)
  | .ok () => run.become (.gathering guard attempt gather.published)

def collected (run : Run α) (guard : Option Guard) (attempt : Attempt α) (gather : Gather)
    (peer : Nat) : Except DeliveryFault StageFingerprint → Run α
  | .error fault => run.abort guard (Gather.failure gather.rank peer fault)
  | .ok entry => run.become (.gathering guard attempt (gather.collected entry))

def snapshotTaken (run : Run α) : Except String Nat → Run α
  | .error source => run.become (.ended (.error (run.worker.rankFault source)))
  | .ok handle => run.beginAttempt (some ⟨handle, .start run.worker.rank, 0⟩)

/-- A failed roll-back ends the run. Where the step had failed before, its own fault is the one
reported. -/
def rollBackFailed (run : Run α) (after : Aftermath) (source : String) : Run α :=
  match after with
  | .retry _ => run.become (.ended (.error (run.worker.rankFault source)))
  | .fail fault => run.become (.ended (.error fault))

def restored (run : Run α) (after : Aftermath) : Except String Unit → Run α
  | .error source => run.rollBackFailed after source
  | .ok () => run.become (.discarding after)

def discarded (run : Run α) (after : Aftermath) : Except String Unit → Run α
  | .error source => run.rollBackFailed after source
  | .ok () =>
      match after with
      | .fail fault => run.become (.ended (.error fault))
      | .retry guard =>
          match guard.cycle.beginRetry with
          | .error fault => run.become (.ended (.error fault))
          | .ok cycle => run.beginAttempt (some { guard with cycle := cycle })

def turn (run : Run α) : Turn α :=
  match run.phase with
  | .snapshotting => .ask .snapshot run.snapshotTaken
  | .clearing guard => .ask (.dropStale (run.epoch guard)) fun _ => run.cleared guard
  | .choosing guard attempt => .own (run.choose guard attempt)
  | .forwarding guard attempt stage microbatch input =>
      .ask (.forward stage microbatch input) (run.forwarded guard attempt stage microbatch)
  | .backwarding guard attempt stage microbatch gradient =>
      .ask (.backward stage microbatch gradient) (run.backwarded guard attempt stage microbatch)
  | .weighing guard attempt stage microbatch =>
      .ask (.backwardWeights stage microbatch) (run.weighed guard attempt stage microbatch)
  | .sending guard attempt peer transfer tag payload =>
      .ask (.send peer tag payload) (run.sent guard attempt peer transfer)
  | .receiving guard attempt peer transfer tag =>
      .ask (.receive peer tag) (run.received guard attempt peer transfer)
  | .optimizing guard attempt => .ask .optimize (run.optimized guard attempt)
  | .preparing guard attempt gather =>
      .ask (.dropPublished gather.epoch) fun _ => run.become (.gathering guard attempt gather)
  | .gathering guard attempt gather =>
      match gather.move with
      | .finish => .own (run.judged guard attempt gather.result)
      | .publish peer =>
          .ask (.publish peer gather.tag gather.own) (run.published guard attempt gather peer)
      | .collect peer => .ask (.collect peer gather.tag) (run.collected guard attempt gather peer)
  | .consulting guard attempt own =>
      .ask (.gather attempt.epoch own) (run.consulted guard attempt)
  | .restoring handle after => .ask (.restore handle) (run.restored after)
  | .discarding after => .ask .discard (run.discarded after)
  | .ended result => .over result

/-- One iteration, unguarded. The worker's count of iterations goes on at once. -/
def ofIteration (worker : Worker) (inputs : Option (List α)) : Run α :=
  let run : Run α := {
    worker := { worker with iteration := worker.iteration + 1 }
    iteration := worker.iteration
    inputs := inputs
    phase := .clearing none }
  run.beginAttempt none

def ofStep (worker : Worker) (inputs : Option (List α)) : Run α :=
  let run := ofIteration worker inputs
  if worker.validator.isEnabled then run.become .snapshotting else run

/-- More than the turns of a run: two attempts, each with a few turns for every operation and
for every member of the group. -/
def turnBound (run : Run α) : Nat :=
  2 * (6 * run.worker.operations.length + 4 * run.worker.seat.members + 16)

end Run
end PipelineTraining
