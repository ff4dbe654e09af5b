import Mathlib.Data.List.Perm.Basic
import PipelineTraining.Engine.Run
import PipelineTraining.Proofs.Limiter.Counting

/-!
The turns of a run with any answers. In the middle of an attempt a run takes up one
operation at a time; `Tried` lists all that a turn can do there and when it does it.
-/

namespace PipelineTraining

variable {α : Type}

structure Exchange (α : Type) where
  request : Request α
  answer : request.Answer

namespace Exchange

def fails : Exchange α → Bool
  | ⟨.forward .., .error _⟩ => true
  | ⟨.backward .., .error _⟩ => true
  | ⟨.backwardWeights .., .error _⟩ => true
  | ⟨.optimize, .error _⟩ => true
  | ⟨.publish .., .error _⟩ => true
  | ⟨.collect .., .error _⟩ => true
  | ⟨.gather .., .error _⟩ => true
  | _ => false

def reported? : Exchange α → Option Fault
  | ⟨.gather .., .error fault⟩ => some fault
  | _ => none

def strays : Exchange α → Bool
  | ⟨.send .., .error _⟩ => true
  | ⟨.receive .., .error _⟩ => true
  | _ => false

end Exchange

def Fault.isDelivery : Fault → Bool
  | .stall .. => true
  | .transport .. => true
  | _ => false

inductive Stride : Run α → Option (Exchange α) → Run α → Prop
  | own {run next : Run α} (turn : run.turn = .own next) : Stride run none next
  | ask {run : Run α} {request : Request α} {resume : request.Answer → Run α}
      (turn : run.turn = .ask request resume) (answer : request.Answer) :
      Stride run (some ⟨request, answer⟩) (resume answer)

structure Trial (α : Type) where
  guard : Option Guard
  attempt : Attempt α
  hand : Option Operation

def Phase.trial? : Phase α → Option (Trial α)
  | .choosing guard attempt => some ⟨guard, attempt, none⟩
  | .forwarding guard attempt stage microbatch _ =>
      some ⟨guard, attempt, some (.forward stage microbatch)⟩
  | .backwarding guard attempt stage microbatch _ =>
      some ⟨guard, attempt, some (.backward stage microbatch)⟩
  | .weighing guard attempt stage microbatch =>
      some ⟨guard, attempt, some (.backwardWeights stage microbatch)⟩
  | .sending guard attempt peer transfer _ _ => some ⟨guard, attempt, some (.send peer transfer)⟩
  | .receiving guard attempt peer transfer _ => some ⟨guard, attempt, some (.receive peer transfer)⟩
  | .optimizing guard attempt => some ⟨guard, attempt, some .optimizerStep⟩
  | .preparing guard attempt _ => some ⟨guard, attempt, some .validationSync⟩
  | .gathering guard attempt _ => some ⟨guard, attempt, some .validationSync⟩
  | .consulting guard attempt _ => some ⟨guard, attempt, some .validationSync⟩
  | .snapshotting => none
  | .clearing _ => none
  | .restoring .. => none
  | .discarding _ => none
  | .ended _ => none

def Trial.ahead (trial : Trial α) : List Operation :=
  trial.hand.toList ++ (trial.attempt.waiting ++ trial.attempt.remaining)

def Request.IsFor : Request α → Operation → Prop
  | .forward stage microbatch _, operation => operation = .forward stage microbatch
  | .backward stage microbatch _, operation => operation = .backward stage microbatch
  | .backwardWeights stage microbatch, operation => operation = .backwardWeights stage microbatch
  | .send peer _ _, operation => ∃ transfer, operation = .send peer transfer
  | .receive peer _, operation => ∃ transfer, operation = .receive peer transfer
  | .optimize, operation => operation = .optimizerStep
  | .dropPublished _, operation => operation = .validationSync
  | .publish .., operation => operation = .validationSync
  | .collect .., operation => operation = .validationSync
  | .gather .., operation => operation = .validationSync
  | .dropStale _, _ => False
  | .snapshot, _ => False
  | .restore _, _ => False
  | .discard, _ => False

def Trial.Asks (trial : Trial α) (exchange : Option (Exchange α)) : Prop :=
  ∀ made ∈ exchange, ∃ operation, trial.hand = some operation ∧ made.request.IsFor operation

def Phase.Labelled (microbatches : Nat) : Phase α → Prop
  | .sending _ attempt _ transfer tag _ => transfer.tag microbatches attempt.epoch = .ok tag
  | .receiving _ attempt _ transfer tag => transfer.tag microbatches attempt.epoch = .ok tag
  | _ => True

/-- The first of the operations put off whose time has come, or else the next one in time. -/
inductive Picked (ready : Operation → Bool) (attempt : Attempt α) : Operation → Attempt α → Prop
  | waiting {operation : Operation} {rest : List Operation}
      (found : Attempt.pickWaiting ready attempt.waiting = some (operation, rest)) :
      Picked ready attempt operation { attempt with waiting := rest }
  | next {operation : Operation} {rest : List Operation}
      (ahead : attempt.remaining = operation :: rest) (time : ready operation = true) :
      Picked ready attempt operation { attempt with remaining := rest }

inductive Taken (plan : Plan) (rank : Nat) (limiter : Limiter) (attempt : Attempt α) :
    Operation → Limiter → Attempt α → Prop
  | forward {stage : StageId} {microbatch : Nat} {input : Option α} {taken : Attempt α}
      {admitted : Limiter}
      (found : attempt.forwardInput plan.layout rank stage microbatch = .ok (input, taken))
      (admits : limiter.admit? rank = some admitted) :
      Taken plan rank limiter attempt (.forward stage microbatch) admitted taken
  | backward {stage : StageId} {microbatch : Nat} {gradient : Option α} {taken : Attempt α}
      (found : attempt.backwardInput plan.layout rank stage microbatch = .ok (gradient, taken)) :
      Taken plan rank limiter attempt (.backward stage microbatch) limiter taken
  | weights {stage : StageId} {microbatch : Nat} :
      Taken plan rank limiter attempt (.backwardWeights stage microbatch) limiter attempt
  | send {peer : Nat} {transfer : Transfer} {tag : Tag} {payload : α} {outbox : Shelf Transfer α}
      (laid : attempt.outbox.take? transfer = some (payload, outbox))
      (tagged : transfer.tag plan.microbatches attempt.epoch = .ok tag) :
      Taken plan rank limiter attempt (.send peer transfer) limiter
        { attempt with outbox := outbox }
  | receive {peer : Nat} {transfer : Transfer} {tag : Tag}
      (tagged : transfer.tag plan.microbatches attempt.epoch = .ok tag) :
      Taken plan rank limiter attempt (.receive peer transfer) limiter attempt
  | optimizer : Taken plan rank limiter attempt .optimizerStep limiter attempt
  | sync (signed : attempt.fingerprint.isSome = true) :
      Taken plan rank limiter attempt .validationSync limiter attempt

inductive Served (layout : Layout) (rank : Nat) (limiter : Limiter) (attempt : Attempt α) :
    Operation → Option (Exchange α) → Limiter → Attempt α → Prop
  | forward {stage : StageId} {microbatch : Nat} {input : Option α} {value : α} :
      Served layout rank limiter attempt (.forward stage microbatch)
        (some ⟨.forward stage microbatch input, .ok value⟩) limiter
        (({ attempt with
            forwarded := Attempt.insertOnce (stage.logical, microbatch) attempt.forwarded } :
          Attempt α).passOn layout rank stage microbatch value)
  | backward {stage : StageId} {microbatch : Nat} {gradient : Option α} {value : α}
      {completed : Limiter} (completes : limiter.complete rank = .ok completed) :
      Served layout rank limiter attempt (.backward stage microbatch)
        (some ⟨.backward stage microbatch gradient, .ok value⟩) completed
        (({ attempt with
            backwarded := Attempt.insertOnce (stage.logical, microbatch) attempt.backwarded } :
          Attempt α).passBack layout rank stage microbatch value)
  | weights {stage : StageId} {microbatch : Nat} :
      Served layout rank limiter attempt (.backwardWeights stage microbatch)
        (some ⟨.backwardWeights stage microbatch, .ok ()⟩) limiter
        { attempt with weighted := attempt.weighted + 1 }
  | send {peer : Nat} {transfer : Transfer} {tag : Tag} {payload : α} :
      Served layout rank limiter attempt (.send peer transfer)
        (some ⟨.send peer tag payload, .ok ()⟩) limiter attempt
  | receive {peer : Nat} {transfer : Transfer} {tag : Tag} {payload : α} :
      Served layout rank limiter attempt (.receive peer transfer)
        (some ⟨.receive peer tag, .ok payload⟩) limiter (attempt.received transfer payload)
  | optimizer {fingerprint : Fingerprint} :
      Served layout rank limiter attempt .optimizerStep (some ⟨.optimize, .ok fingerprint⟩) limiter
        { attempt with fingerprint := some fingerprint }
  | sync {outcome : Outcome} :
      Served layout rank limiter attempt .validationSync none limiter
        { attempt with validation := some outcome }
  | gather {epoch : UInt32} {own : StageFingerprint} {gathered : List StageFingerprint}
      {outcome : Outcome} :
      Served layout rank limiter attempt .validationSync (some ⟨.gather epoch own, .ok gathered⟩)
        limiter { attempt with validation := some outcome }

namespace Limiter

variable {limiter next : Limiter} {rank : Nat}

structure Alike (limiter next : Limiter) : Prop where
  limit : next.limit = limiter.limit
  ranks : next.pending.length = limiter.pending.length

theorem Alike.refl (limiter : Limiter) : Alike limiter limiter :=
  ⟨rfl, rfl⟩

theorem Alike.trans {last : Limiter} (first : Alike limiter next) (second : Alike next last) :
    Alike limiter last :=
  ⟨second.limit.trans first.limit, second.ranks.trans first.ranks⟩

theorem alike_admit (admits : limiter.admit? rank = some next) : Alike limiter next := by
  obtain ⟨_, _, _, rfl⟩ := admit?_eq_some.mp admits
  exact ⟨rfl, List.length_set⟩

theorem alike_complete (completes : limiter.complete rank = .ok next) : Alike limiter next := by
  obtain ⟨_, _, rfl⟩ := complete_eq_ok.mp completes
  exact ⟨rfl, List.length_set⟩

theorem alike_reset (limiter : Limiter) : Alike limiter limiter.reset :=
  ⟨rfl, List.length_map _⟩

end Limiter

inductive Halted (run : Run α) (trial : Trial α) : Option (Exchange α) → Fault → Prop
  | stuck {fault : Fault} (free : trial.hand = none) (left : trial.attempt.waiting ≠ []) :
      Halted run trial none fault
  | refuse {operation : Operation} {picked : Attempt α} {fault : Fault} (free : trial.hand = none)
      (picks : Picked (trial.attempt.isReady run.worker.plan run.worker.rank run.worker.limiter)
        trial.attempt operation picked)
      (untaken : ∀ limiter taken,
        ¬ Taken run.worker.plan run.worker.rank run.worker.limiter picked operation limiter taken) :
      Halted run trial none fault
  | uncounted {stage : StageId} {microbatch : Nat} {gradient : Option α} {value : α}
      {fault : Fault} (held : trial.hand = some (.backward stage microbatch))
      (missing : run.worker.limiter.complete run.worker.rank = .error fault) :
      Halted run trial (some ⟨.backward stage microbatch gradient, .ok value⟩) fault
  | fail {operation : Operation} {exchange : Exchange α} {fault : Fault}
      (held : trial.hand = some operation) (asked : exchange.request.IsFor operation)
      (failed : exchange.fails = true ∨ exchange.strays = true ∧ fault.isDelivery = true) :
      Halted run trial (some exchange) fault

inductive Tried (run : Run α) (trial : Trial α) : Option (Exchange α) → Run α → Prop
  | finish (free : trial.hand = none) (waited : trial.attempt.waiting = [])
      (through : trial.attempt.remaining = []) :
      Tried run trial none (run.finish trial.guard trial.attempt)
  | defer {operation : Operation} {rest : List Operation} (free : trial.hand = none)
      (next : trial.attempt.remaining = operation :: rest)
      (early : trial.attempt.isReady run.worker.plan run.worker.rank run.worker.limiter operation =
        false) :
      Tried run trial none (run.become (.choosing trial.guard { trial.attempt with
        remaining := rest
        waiting := trial.attempt.waiting ++ [operation]
        deferred := trial.attempt.deferred + 1 }))
  | take {operation : Operation} {picked taken : Attempt α} {limiter : Limiter} {phase : Phase α}
      (free : trial.hand = none)
      (picks : Picked (trial.attempt.isReady run.worker.plan run.worker.rank run.worker.limiter)
        trial.attempt operation picked)
      (takes : Taken run.worker.plan run.worker.rank run.worker.limiter picked operation limiter
        taken)
      (shown : phase.trial? = some ⟨trial.guard, taken, some operation⟩)
      (labelled : phase.Labelled run.worker.plan.microbatches) :
      Tried run trial none
        { run with worker := { run.worker with limiter := limiter }, phase := phase }
  | pass {picked : Attempt α} (free : trial.hand = none)
      (picks : Picked (trial.attempt.isReady run.worker.plan run.worker.rank run.worker.limiter)
        trial.attempt .validationSync picked)
      (silent : run.worker.validator.isEnabled = false) :
      Tried run trial none
        (run.completed trial.guard { picked with validation := some .consistent } .validationSync)
  | wait {exchange : Exchange α} {phase : Phase α} (held : trial.hand = some .validationSync)
      (asked : exchange.request.IsFor .validationSync) (shown : phase.trial? = some trial)
      (labelled : phase.Labelled run.worker.plan.microbatches) :
      Tried run trial (some exchange) (run.become phase)
  | serve {operation : Operation} {exchange : Option (Exchange α)} {served : Attempt α}
      {limiter : Limiter} (held : trial.hand = some operation)
      (serves : Served run.worker.plan.layout run.worker.rank run.worker.limiter trial.attempt
        operation exchange limiter served) :
      Tried run trial exchange
        (Run.completed { run with worker := { run.worker with limiter := limiter } } trial.guard
          served operation)
  | abort {exchange : Option (Exchange α)} {fault : Fault}
      (halted : Halted run trial exchange fault) :
      Tried run trial exchange (run.abort trial.guard fault)
  | collapse {exchange : Option (Exchange α)} {limiter : Limiter}
      (alike : run.worker.limiter.Alike limiter)
      (unplaced : run.worker.plan.layout.places = false) :
      Tried run trial exchange
        (Run.collapse { run with worker := { run.worker with limiter := limiter } })

inductive Interlude (run : Run α) : Phase α → Exchange α → Run α → Prop
  | snapshot (answer : Except String Nat) :
      Interlude run .snapshotting ⟨.snapshot, answer⟩ (run.snapshotTaken answer)
  | clear {guard : Option Guard} :
      Interlude run (.clearing guard) ⟨.dropStale (run.epoch guard), ()⟩ (run.cleared guard)
  | restore {handle : Nat} {after : Aftermath} (answer : Except String Unit) :
      Interlude run (.restoring handle after) ⟨.restore handle, answer⟩ (run.restored after answer)
  | discard {after : Aftermath} (answer : Except String Unit) :
      Interlude run (.discarding after) ⟨.discard, answer⟩ (run.discarded after answer)

theorem Trial.asks_none (trial : Trial α) : trial.Asks none :=
  fun _ made => by cases made

namespace Stride

variable {run next : Run α} {exchange : Option (Exchange α)}

theorem of_own {target : Run α} (stride : Stride run exchange next)
    (turn : run.turn = .own target) : exchange = none ∧ next = target := by
  cases stride with
  | own same =>
      rw [turn] at same
      cases same
      exact ⟨rfl, rfl⟩
  | ask same =>
      rw [turn] at same
      cases same

theorem of_ask {request : Request α} {resume : request.Answer → Run α}
    (stride : Stride run exchange next) (turn : run.turn = .ask request resume) :
    ∃ answer, exchange = some ⟨request, answer⟩ ∧ next = resume answer := by
  cases stride with
  | own same =>
      rw [turn] at same
      cases same
  | ask same answer =>
      rw [turn] at same
      cases same
      exact ⟨answer, rfl, rfl⟩

theorem not_ended {result : Except Fault (StepReport α)} (phase : run.phase = .ended result) :
    ¬ Stride run exchange next := by
  intro stride
  have ended : run.turn = .over result := by simp only [Run.turn, phase]
  cases stride with
  | own turn => rw [ended] at turn; cases turn
  | ask turn => rw [ended] at turn; cases turn

/-- Outside of the attempts every turn asks for something. -/
theorem interlude {phase : Phase α} (stride : Stride run exchange next) (here : run.phase = phase)
    (idle : phase.trial? = none) :
    ∃ made, exchange = some made ∧ Interlude run phase made next := by
  cases phase with
  | snapshotting =>
      obtain ⟨answer, rfl, rfl⟩ := stride.of_ask (by simp only [Run.turn, here]; rfl)
      exact ⟨_, rfl, .snapshot answer⟩
  | clearing guard =>
      obtain ⟨answer, rfl, rfl⟩ := stride.of_ask (by simp only [Run.turn, here]; rfl)
      exact ⟨_, rfl, .clear⟩
  | restoring handle after =>
      obtain ⟨answer, rfl, rfl⟩ := stride.of_ask (by simp only [Run.turn, here]; rfl)
      exact ⟨_, rfl, .restore answer⟩
  | discarding after =>
      obtain ⟨answer, rfl, rfl⟩ := stride.of_ask (by simp only [Run.turn, here]; rfl)
      exact ⟨_, rfl, .discard answer⟩
  | ended result => exact absurd stride (not_ended here)
  | choosing | forwarding | backwarding | weighing | sending | receiving | optimizing | preparing
    | gathering | consulting => cases idle

end Stride

theorem Attempt.pickWaiting_some {ready : Operation → Bool} {operations rest : List Operation}
    {operation : Operation} (found : pickWaiting ready operations = some (operation, rest)) :
    ready operation = true ∧ operations.Perm (operation :: rest) := by
  induction operations generalizing rest with
  | nil => cases found
  | cons head tail ih =>
      unfold pickWaiting at found
      split at found
      · obtain ⟨rfl, rfl⟩ := Prod.mk.inj (Option.some.inj found)
        exact ⟨‹_›, List.Perm.refl _⟩
      · obtain ⟨⟨first, others⟩, later, same⟩ := Option.map_eq_some_iff.mp found
        obtain ⟨rfl, rfl⟩ := Prod.mk.inj same
        obtain ⟨ready, perm⟩ := ih later
        exact ⟨ready, (perm.cons head).trans (List.Perm.swap _ _ _)⟩

namespace Picked

variable {ready : Operation → Bool} {attempt picked : Attempt α} {operation : Operation}

theorem time (picks : Picked ready attempt operation picked) : ready operation = true := by
  cases picks with
  | waiting found => exact (Attempt.pickWaiting_some found).1
  | next _ time => exact time

theorem same (picks : Picked ready attempt operation picked) :
    picked = { attempt with waiting := picked.waiting, remaining := picked.remaining } := by
  cases picks <;> rfl

theorem ahead (picks : Picked ready attempt operation picked) :
    (attempt.waiting ++ attempt.remaining).Perm
      (operation :: (picked.waiting ++ picked.remaining)) := by
  cases picks with
  | waiting found => exact (Attempt.pickWaiting_some found).2.append_right attempt.remaining
  | next ahead _ =>
      rw [ahead]
      exact List.perm_middle

end Picked

namespace Taken

variable {plan : Plan} {rank : Nat} {limiter after : Limiter} {attempt taken : Attempt α}
  {operation : Operation}

/-- Taking an operation up only touches what it reads. -/
theorem same (takes : Taken plan rank limiter attempt operation after taken) :
    taken = { attempt with
      inbox := taken.inbox, outbox := taken.outbox, inputs := taken.inputs } := by
  cases takes with
  | forward found _ =>
      unfold Attempt.forwardInput at found
      split at found
      · obtain ⟨_, rfl⟩ := Prod.mk.inj (Except.ok.inj found)
        rfl
      · split at found
        · obtain ⟨_, rfl⟩ := Prod.mk.inj (Except.ok.inj found)
          rfl
        · cases found
  | backward found =>
      unfold Attempt.backwardInput at found
      split at found
      · obtain ⟨_, rfl⟩ := Prod.mk.inj (Except.ok.inj found)
        rfl
      · split at found
        · obtain ⟨_, rfl⟩ := Prod.mk.inj (Except.ok.inj found)
          rfl
        · cases found
  | weights | send | receive | optimizer | sync => rfl

theorem ahead {ready : Operation → Bool} {trial : Trial α}
    (takes : Taken plan rank limiter attempt operation after taken)
    (picks : Picked ready trial.attempt operation attempt) (free : trial.hand = none) :
    (Trial.ahead ⟨trial.guard, taken, some operation⟩).Perm trial.ahead := by
  rw [Trial.ahead, Trial.ahead, free, takes.same]
  exact picks.ahead.symm

theorem alike (takes : Taken plan rank limiter attempt operation after taken) :
    limiter.Alike after := by
  cases takes with
  | forward _ admits => exact Limiter.alike_admit admits
  | backward | weights | send | receive | optimizer | sync => exact .refl limiter

end Taken

namespace Served

variable {layout : Layout} {rank : Nat} {limiter after : Limiter} {attempt served : Attempt α}
  {operation : Operation} {exchange : Option (Exchange α)}

theorem ahead (serves : Served layout rank limiter attempt operation exchange after served) :
    served.waiting = attempt.waiting ∧ served.remaining = attempt.remaining ∧
      served.epoch = attempt.epoch := by
  cases serves with
  | forward => unfold Attempt.passOn; split <;> (try split) <;> exact ⟨rfl, rfl, rfl⟩
  | backward => unfold Attempt.passBack; split <;> (try split) <;> exact ⟨rfl, rfl, rfl⟩
  | weights | send | receive | optimizer | sync | gather => exact ⟨rfl, rfl, rfl⟩

/-- Only an optimizer step leaves a fingerprint, and only a sync a verdict. -/
theorem marks (serves : Served layout rank limiter attempt operation exchange after served) :
    (operation ≠ .optimizerStep → served.fingerprint = attempt.fingerprint) ∧
      (operation ≠ .validationSync → served.validation = attempt.validation) := by
  cases serves with
  | forward =>
      unfold Attempt.passOn
      split <;> (try split) <;> exact ⟨fun _ => rfl, fun _ => rfl⟩
  | backward =>
      unfold Attempt.passBack
      split <;> (try split) <;> exact ⟨fun _ => rfl, fun _ => rfl⟩
  | weights | send | receive => exact ⟨fun _ => rfl, fun _ => rfl⟩
  | optimizer => exact ⟨fun other => absurd rfl other, fun _ => rfl⟩
  | sync | gather => exact ⟨fun _ => rfl, fun other => absurd rfl other⟩

theorem executed (serves : Served layout rank limiter attempt operation exchange after served) :
    served.executed = attempt.executed := by
  cases serves with
  | forward => unfold Attempt.passOn; split <;> (try split) <;> rfl
  | backward => unfold Attempt.passBack; split <;> (try split) <;> rfl
  | weights | send | receive | optimizer | sync | gather => rfl

theorem asks {trial : Trial α} (held : trial.hand = some operation)
    (serves : Served layout rank limiter attempt operation exchange after served) :
    trial.Asks exchange := by
  intro made same
  refine ⟨operation, held, ?_⟩
  cases serves with
  | sync => cases same
  | send | receive => cases same; exact ⟨_, rfl⟩
  | forward | backward | weights | optimizer | gather => cases same; rfl

theorem alike (serves : Served layout rank limiter attempt operation exchange after served) :
    limiter.Alike after := by
  cases serves with
  | backward completes => exact Limiter.alike_complete completes
  | forward | weights | send | receive | optimizer | sync | gather => exact .refl limiter

end Served

theorem Halted.asks {run : Run α} {trial : Trial α} {exchange : Option (Exchange α)} {fault : Fault}
    (halted : Halted run trial exchange fault) : trial.Asks exchange := by
  cases halted with
  | stuck | refuse => exact trial.asks_none
  | uncounted held =>
      rintro made ⟨⟩
      exact ⟨_, held, rfl⟩
  | fail held asked =>
      rintro made ⟨⟩
      exact ⟨_, held, asked⟩

theorem Transfer.isDelivery_undelivered (transfer : Transfer) (rank peer : Nat) (limit : Duration)
    (fault : DeliveryFault) : (transfer.undelivered rank peer limit fault).isDelivery = true := by
  cases fault <;> rfl

namespace Run

variable {run next : Run α} {exchange : Option (Exchange α)} {trial : Trial α}

theorem trial?_exchanging (run : Run α) (guard : Option Guard) (attempt : Attempt α)
    (own : StageFingerprint) :
    (run.exchanging guard attempt own).trial? = some ⟨guard, attempt, some .validationSync⟩ := by
  unfold exchanging
  dsimp only
  split <;> rfl

theorem labelled_exchanging (run : Run α) (guard : Option Guard) (attempt : Attempt α)
    (own : StageFingerprint) {microbatches : Nat} :
    (run.exchanging guard attempt own).Labelled microbatches := by
  unfold exchanging
  dsimp only
  split <;> trivial

theorem tried_take (guard : Option Guard) (attempt : Attempt α) {operation : Operation}
    {picked : Attempt α}
    (picks : Picked (attempt.isReady run.worker.plan run.worker.rank run.worker.limiter) attempt
      operation picked) :
    Tried run ⟨guard, attempt, none⟩ none (run.take guard picked operation) := by
  -- What a start cannot find or claim is what taking the operation up would need.
  have refused : ∀ fault, (∀ limiter taken,
      ¬ Taken run.worker.plan run.worker.rank run.worker.limiter picked operation limiter taken) →
      Tried run ⟨guard, attempt, none⟩ none (run.abort guard fault) :=
    fun fault untaken => .abort (.refuse rfl picks untaken)
  cases operation with
  | forward stage microbatch =>
      simp only [take, startForward]
      split
      · next fault missing =>
        refine refused fault fun limiter taken takes => ?_
        cases takes with
        | forward found _ => rw [missing] at found; cases found
      · next input taken found =>
        split
        · next full =>
          refine refused _ fun limiter taken takes => ?_
          cases takes with
          | forward _ admits => rw [full] at admits; cases admits
        · next limiter admits => exact .take rfl picks (.forward found admits) rfl trivial
  | backward stage microbatch =>
      simp only [take, startBackward]
      split
      · next fault missing =>
        refine refused fault fun limiter taken takes => ?_
        cases takes with
        | backward found => rw [missing] at found; cases found
      · next gradient taken found => exact .take rfl picks (.backward found) rfl trivial
  | backwardWeights stage microbatch => exact .take rfl picks .weights rfl trivial
  | send peer transfer =>
      simp only [take, startSend]
      split
      · next missing =>
        refine refused _ fun limiter taken takes => ?_
        cases takes with
        | send laid _ => rw [missing] at laid; cases laid
      · next payload outbox laid =>
        split
        · next fault untagged =>
          refine refused fault fun limiter taken takes => ?_
          cases takes with
          | send _ tagged => rw [untagged] at tagged; cases tagged
        · next tag tagged => exact .take rfl picks (.send laid tagged) rfl tagged
  | receive peer transfer =>
      simp only [take, startReceive]
      split
      · next fault untagged =>
        refine refused fault fun limiter taken takes => ?_
        cases takes with
        | receive tagged => rw [untagged] at tagged; cases tagged
      · next tag tagged => exact .take rfl picks (.receive tagged) rfl tagged
  | optimizerStep => exact .take rfl picks .optimizer rfl trivial
  | validationSync =>
      simp only [take, startSync]
      split
      · next unsigned =>
        refine refused _ fun limiter taken takes => ?_
        cases takes with
        | sync signed => rw [unsigned] at signed; cases signed
      · next fingerprint found =>
        have signed : picked.fingerprint.isSome = true := by rw [found]; rfl
        split
        · exact .take rfl picks (.sync signed) (trial?_exchanging ..) (labelled_exchanging ..)
        · exact .pass rfl picks (Bool.eq_false_iff.mpr ‹¬ run.worker.validator.isEnabled = true›)

theorem tried_choose (guard : Option Guard) (attempt : Attempt α) :
    Tried run ⟨guard, attempt, none⟩ none (run.choose guard attempt) := by
  unfold choose Attempt.choose
  cases found : Attempt.pickWaiting
      (attempt.isReady run.worker.plan run.worker.rank run.worker.limiter) attempt.waiting with
  | some picked =>
      simp only [found]
      exact tried_take guard attempt (.waiting found)
  | none =>
      simp only [found]
      cases next : attempt.remaining with
      | cons operation rest =>
          by_cases ready : attempt.isReady run.worker.plan run.worker.rank run.worker.limiter
              operation = true
          · simp only [if_pos ready]
            exact tried_take guard attempt (.next next ready)
          · simp only [if_neg ready]
            exact .defer rfl next (Bool.eq_false_iff.mpr ready)
      | nil =>
          cases waited : attempt.waiting with
          | nil =>
              simp only [List.isEmpty_nil, if_true]
              exact .finish rfl waited next
          | cons operation rest =>
              simp only [List.isEmpty_cons, Bool.false_eq_true, if_false]
              exact .abort (.stuck rfl (by simp [waited]))

theorem tried_forwarded (guard : Option Guard) (attempt : Attempt α) (stage : StageId)
    (microbatch : Nat) {input : Option α} (answer : Except String α) :
    Tried run ⟨guard, attempt, some (.forward stage microbatch)⟩
      (some ⟨.forward stage microbatch input, answer⟩)
      (run.forwarded guard attempt stage microbatch answer) := by
  cases answer with
  | error source => exact .abort (.fail rfl rfl (Or.inl rfl))
  | ok value =>
      simp only [forwarded, Attempt.forwardDone]
      by_cases placed : (run.worker.plan.layout.isLast stage ||
          run.worker.plan.layout.places) = true
      · simp only [if_pos placed]
        exact .serve rfl .forward
      · simp only [if_neg placed]
        exact .collapse (.refl _) (by simp_all)

theorem tried_backwarded (guard : Option Guard) (attempt : Attempt α) (stage : StageId)
    (microbatch : Nat) {gradient : Option α} (answer : Except String α) :
    Tried run ⟨guard, attempt, some (.backward stage microbatch)⟩
      (some ⟨.backward stage microbatch gradient, answer⟩)
      (run.backwarded guard attempt stage microbatch answer) := by
  cases answer with
  | error source => exact .abort (.fail rfl rfl (Or.inl rfl))
  | ok value =>
      simp only [backwarded, Attempt.backwardDone]
      cases counted : run.worker.limiter.complete run.worker.rank with
      | error fault => exact .abort (.uncounted rfl counted)
      | ok limiter =>
          by_cases placed : (run.worker.plan.layout.isFirst stage ||
              run.worker.plan.layout.places) = true
          · simp only [if_pos placed]
            exact .serve rfl (.backward counted)
          · simp only [if_neg placed]
            exact .collapse (Limiter.alike_complete counted) (by simp_all)

-- A call takes several turns, and the sync stays in hand until the last of them.
theorem tried_gathering {guard : Option Guard} {attempt : Attempt α} {gather : Gather}
    (phase : run.phase = .gathering guard attempt gather) (stride : Stride run exchange next) :
    Tried run ⟨guard, attempt, some .validationSync⟩ exchange next := by
  cases move : gather.move with
  | finish =>
      obtain ⟨rfl, rfl⟩ := stride.of_own (by simp only [turn, phase, move]; rfl)
      exact .serve rfl .sync
  | publish peer =>
      obtain ⟨answer, rfl, rfl⟩ := stride.of_ask (by simp only [turn, phase, move]; rfl)
      cases answer with
      | error fault => exact .abort (.fail rfl rfl (Or.inl rfl))
      | ok value => exact .wait rfl rfl rfl trivial
  | collect peer =>
      obtain ⟨answer, rfl, rfl⟩ := stride.of_ask (by simp only [turn, phase, move]; rfl)
      cases answer with
      | error fault => exact .abort (.fail rfl rfl (Or.inl rfl))
      | ok entry => exact .wait rfl rfl rfl trivial

theorem tried (shown : run.phase.trial? = some trial) (stride : Stride run exchange next) :
    Tried run trial exchange next := by
  cases phase : run.phase with
  | choosing guard attempt =>
      rw [phase] at shown
      obtain rfl := Option.some.inj shown
      obtain ⟨rfl, rfl⟩ := stride.of_own (by simp only [turn, phase]; rfl)
      exact tried_choose guard attempt
  | forwarding guard attempt stage microbatch input =>
      rw [phase] at shown
      obtain rfl := Option.some.inj shown
      obtain ⟨answer, rfl, rfl⟩ := stride.of_ask (by simp only [turn, phase]; rfl)
      exact tried_forwarded guard attempt stage microbatch answer
  | backwarding guard attempt stage microbatch gradient =>
      rw [phase] at shown
      obtain rfl := Option.some.inj shown
      obtain ⟨answer, rfl, rfl⟩ := stride.of_ask (by simp only [turn, phase]; rfl)
      exact tried_backwarded guard attempt stage microbatch answer
  | weighing guard attempt stage microbatch =>
      rw [phase] at shown
      obtain rfl := Option.some.inj shown
      obtain ⟨answer, rfl, rfl⟩ := stride.of_ask (by simp only [turn, phase]; rfl)
      cases answer with
      | error source => exact .abort (.fail rfl rfl (Or.inl rfl))
      | ok value => exact .serve rfl .weights
  | sending guard attempt peer transfer tag payload =>
      rw [phase] at shown
      obtain rfl := Option.some.inj shown
      obtain ⟨answer, rfl, rfl⟩ := stride.of_ask (by simp only [turn, phase]; rfl)
      cases answer with
      | error fault =>
          have moved := transfer.isDelivery_undelivered run.worker.rank peer .zero fault
          exact .abort (.fail rfl ⟨transfer, rfl⟩ (Or.inr ⟨rfl, moved⟩))
      | ok value => exact .serve rfl .send
  | receiving guard attempt peer transfer tag =>
      rw [phase] at shown
      obtain rfl := Option.some.inj shown
      obtain ⟨answer, rfl, rfl⟩ := stride.of_ask (by simp only [turn, phase]; rfl)
      cases answer with
      | error fault =>
          have moved :=
            transfer.isDelivery_undelivered run.worker.rank peer run.worker.timeout fault
          exact .abort (.fail rfl ⟨transfer, rfl⟩ (Or.inr ⟨rfl, moved⟩))
      | ok payload => exact .serve rfl .receive
  | optimizing guard attempt =>
      rw [phase] at shown
      obtain rfl := Option.some.inj shown
      obtain ⟨answer, rfl, rfl⟩ := stride.of_ask (by simp only [turn, phase]; rfl)
      cases answer with
      | error source => exact .abort (.fail rfl rfl (Or.inl rfl))
      | ok fingerprint => exact .serve rfl .optimizer
  | preparing guard attempt gather =>
      rw [phase] at shown
      obtain rfl := Option.some.inj shown
      obtain ⟨_, rfl, rfl⟩ := stride.of_ask (by simp only [turn, phase]; rfl)
      exact .wait rfl rfl rfl trivial
  | gathering guard attempt gather =>
      rw [phase] at shown
      obtain rfl := Option.some.inj shown
      exact tried_gathering phase stride
  | consulting guard attempt own =>
      rw [phase] at shown
      obtain rfl := Option.some.inj shown
      obtain ⟨answer, rfl, rfl⟩ := stride.of_ask (by simp only [turn, phase]; rfl)
      cases answer with
      | error fault => exact .abort (.fail rfl rfl (Or.inl rfl))
      | ok gathered => exact .serve rfl .gather
  | snapshotting | clearing | restoring | discarding | ended =>
      rw [phase] at shown
      cases shown

end Run
end PipelineTraining
