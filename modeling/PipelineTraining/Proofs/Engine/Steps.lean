import PipelineTraining.Proofs.Engine.AttemptProgress

/-!
What each operation does to an attempt that stands in front of it.
-/

namespace PipelineTraining

variable {α : Type} {task : Task α} {seen later : List (Sighting α)}
  {behind after : List Operation} {operation : Operation} {limiter limiter' : Limiter}
  {attempt attempt' : Attempt α}

namespace Attempt

variable {layout : Layout} {rank microbatch : Nat} {stage : StageId} {value : α}

theorem passOn_eq (attempt : Attempt α) : attempt.passOn layout rank stage microbatch value =
    { attempt with
      inbox := attempt.inbox.putAt (Way.forward.fills? layout rank stage microbatch) value
      outbox := attempt.outbox.putAt (Way.forward.exports? layout rank stage microbatch) value
      outputs := attempt.outputs ++
        (Way.forward.leaves? layout stage microbatch).toList.map (·, value) } := by
  have ahead : Way.forward.target layout stage = layout.next stage := rfl
  cases found : layout.next stage with
  | none => simp [passOn, Way.fills?, Way.exports?, Way.leaves?, ahead, found, Shelf.putAt]
  | some target =>
      by_cases here : layout.rankOf target = rank <;>
        simp [passOn, Way.fills?, Way.exports?, Way.leaves?, ahead, found, here, Shelf.putAt,
          Way.transfer, Way.kind, Transfer.activation]

theorem passBack_eq (attempt : Attempt α) : attempt.passBack layout rank stage microbatch value =
    { attempt with
      inbox := attempt.inbox.putAt (Way.backward.fills? layout rank stage microbatch) value
      outbox := attempt.outbox.putAt (Way.backward.exports? layout rank stage microbatch) value
      inputGradients := attempt.inputGradients ++
        (Way.backward.leaves? layout stage microbatch).toList.map (·, value) } := by
  have ahead : Way.backward.target layout stage = layout.prev stage := rfl
  cases found : layout.prev stage with
  | none => simp [passBack, Way.fills?, Way.exports?, Way.leaves?, ahead, found, Shelf.putAt]
  | some target =>
      by_cases here : layout.rankOf target = rank <;>
        simp [passBack, Way.fills?, Way.exports?, Way.leaves?, ahead, found, here, Shelf.putAt,
          Way.transfer, Way.kind, Transfer.gradient]

end Attempt

theorem Yielded.pass {way : Way} {stage : StageId} {microbatch : Nat} {value : α}
    (known : task.plan.layout.IsStage stage)
    (returned : Returned task.plan.layout seen task.iteration way stage microbatch value)
    (other : Way) : Yielded task seen other [way.pass stage microbatch]
      (((way.pass stage microbatch).leaves? task.plan.layout other).toList.map (·, value)) := by
  constructor
  · cases found : (way.pass stage microbatch).leaves? task.plan.layout other <;>
      simp [found]
  · intro produced result member
    obtain ⟨left, listed, same⟩ := List.mem_map.mp member
    obtain ⟨rfl, rfl⟩ := Prod.mk.inj same
    have leaves := Option.mem_toList.mp listed
    obtain ⟨rfl, ends, rfl⟩ := Operation.leaves?_pass leaves
    exact ⟨stage, known, ends, returned⟩

theorem Way.fills?_meant {way : Way} {stage : StageId} {microbatch : Nat} {value : α} {slot : Slot}
    (known : task.plan.layout.IsStage stage)
    (returned : Returned task.plan.layout seen task.iteration way stage microbatch value)
    (filled : way.fills? task.plan.layout task.rank stage microbatch = some slot) :
    Meant task.plan.layout seen task.iteration slot value := by
  obtain ⟨target, found, here⟩ := Option.bind_eq_some_iff.mp filled
  split at here
  · obtain rfl := Option.some.inj here
    exact ⟨way, stage, target, rfl, rfl, way.isStage_target known found,
      way.source_of_target known found, returned⟩
  · cases here

theorem Way.exports?_meant {way : Way} {stage : StageId} {microbatch : Nat} {value : α}
    {transfer : Transfer} (known : task.plan.layout.IsStage stage)
    (returned : Returned task.plan.layout seen task.iteration way stage microbatch value)
    (exported : way.exports? task.plan.layout task.rank stage microbatch = some transfer) :
    Meant task.plan.layout seen task.iteration transfer.entry value := by
  obtain ⟨target, found, away⟩ := Option.bind_eq_some_iff.mp exported
  split at away
  · cases away
  · obtain rfl := Option.some.inj away
    exact ⟨way, stage, target, rfl, rfl, way.isStage_target known found,
      way.source_of_target known found, returned⟩

theorem weightKey?_pass (way : Way) (stage : StageId) (microbatch : Nat) :
    (way.pass stage microbatch).weightKey? = none := by
  cases way <;> rfl

theorem Moved.pass {way : Way} {stage : StageId} {microbatch : Nat} {value : α}
    (known : task.plan.layout.IsStage stage)
    (returned : Returned task.plan.layout seen task.iteration way stage microbatch value)
    (remaining : attempt'.remaining = attempt.remaining.tail)
    (waiting : attempt'.waiting = attempt.waiting) (epoch : attempt'.epoch = attempt.epoch)
    (inbox : attempt'.inbox =
      (attempt.inbox.withoutAt (way.drains? task.plan.layout stage microbatch)).putAt
        (way.fills? task.plan.layout task.rank stage microbatch) value)
    (outbox : attempt'.outbox = attempt.outbox.putAt
      (way.exports? task.plan.layout task.rank stage microbatch) value)
    (forwarded : attempt'.forwarded =
      (Way.forward.key? (way.pass stage microbatch)).toList ++ attempt.forwarded)
    (backwarded : attempt'.backwarded =
      (Way.backward.key? (way.pass stage microbatch)).toList ++ attempt.backwarded)
    (weighted : attempt'.weighted = attempt.weighted) (limit : limiter'.limit = limiter.limit)
    (pending : ∀ count, limiter.pending[task.rank]? = some count →
      ∃ count', limiter'.pending[task.rank]? = some count' ∧
        count' + (Way.backward.key? (way.pass stage microbatch)).toList.length =
          count + (Way.forward.key? (way.pass stage microbatch)).toList.length)
    (fingerprint : attempt'.fingerprint = attempt.fingerprint)
    (inputs : ∀ other, (∀ first, task.plan.layout.prev first = none →
        way.pass stage microbatch ≠ .forward first other) →
      (attempt'.inputs[other]?).join = (attempt.inputs[other]?).join)
    (outputs : attempt'.outputs = attempt.outputs ++
      ((way.pass stage microbatch).leaves? task.plan.layout .forward).toList.map (·, value))
    (inputGradients : attempt'.inputGradients = attempt.inputGradients ++
      ((way.pass stage microbatch).leaves? task.plan.layout .backward).toList.map (·, value))
    (executed : attempt'.executed = attempt.executed + 1) :
    Moved task seen (way.pass stage microbatch) limiter attempt limiter' attempt' := by
  constructor
  · exact remaining
  · exact waiting
  · exact epoch
  · intro slot untaken present
    rw [Operation.drains?_pass] at untaken
    rw [inbox]
    exact Shelf.has_putAt_of_has value (Shelf.has_withoutAt untaken present)
  · intro slot filled
    rw [Operation.fills?_pass] at filled
    rw [inbox]
    exact Shelf.has_putAt_self _ value filled
  · intro slot stored member
    rw [inbox] at member
    rcases Shelf.mem_putAt member with old | ⟨filled, rfl⟩
    · exact Or.inl (Shelf.mem_of_mem_withoutAt old)
    · exact Or.inr (Way.fills?_meant known returned filled)
  · intro transfer _ present
    rw [outbox]
    exact Shelf.has_putAt_of_has value present
  · intro transfer exported
    rw [Operation.exports?_pass] at exported
    rw [outbox]
    exact Shelf.has_putAt_self _ value exported
  · intro transfer stored member
    rw [outbox] at member
    rcases Shelf.mem_putAt member with old | ⟨exported, rfl⟩
    · exact Or.inl old
    · exact Or.inr (Way.exports?_meant known returned exported)
  · exact forwarded
  · exact backwarded
  · rw [weighted, weightKey?_pass]
    rfl
  · exact limit
  · exact pending
  · intro present
    rw [fingerprint]
    exact present.resolve_left (by cases way <;> simp [Way.pass])
  · exact inputs
  · exact ⟨_, outputs, Yielded.pass known returned .forward⟩
  · exact ⟨_, inputGradients, Yielded.pass known returned .backward⟩
  · exact executed

theorem Operation.unpassed {layout : Layout} {rank : Nat}
    (other : ∀ (way : Way) stage microbatch, operation ≠ way.pass stage microbatch) :
    (∀ way : Way, way.key? operation = none) ∧ operation.exports? layout rank = none ∧
      ∀ way, operation.leaves? layout way = none := by
  cases operation with
  | forward stage microbatch => exact absurd rfl (other .forward stage microbatch)
  | backward stage microbatch => exact absurd rfl (other .backward stage microbatch)
  | backwardWeights | send | receive | optimizerStep | validationSync =>
      refine ⟨?_, rfl, ?_⟩
      · intro way
        cases way <;> rfl
      · intro way
        cases way <;> rfl

/-- An operation that is no forward and no backward moves payloads, counts a weight pass or leaves
a fingerprint or a verdict. -/
theorem Moved.plain {inbox : Shelf Slot α} {outbox : Shelf Transfer α} {weighted : Nat}
    {fingerprint : Option Fingerprint} {validation : Option Outcome}
    (other : ∀ (way : Way) stage microbatch, operation ≠ way.pass stage microbatch)
    (inboxKept : ∀ slot, attempt.inbox.has slot = true → inbox.has slot = true)
    (inboxAdded : ∀ slot, operation.fills? task.plan.layout task.rank = some slot →
      inbox.has slot = true)
    (inboxMeant : ∀ slot value, (slot, value) ∈ inbox →
      (slot, value) ∈ attempt.inbox ∨ Meant task.plan.layout seen task.iteration slot value)
    (outboxKept : ∀ transfer, operation.ships? ≠ some transfer →
      attempt.outbox.has transfer = true → outbox.has transfer = true)
    (outboxLess : ∀ entry ∈ outbox, entry ∈ attempt.outbox)
    (counted : weighted = attempt.weighted + operation.weightKey?.toList.length)
    (signed : operation = .optimizerStep ∨ attempt.fingerprint.isSome = true →
      fingerprint.isSome = true) :
    Moved task seen operation limiter attempt limiter
      { attempt with
        remaining := attempt.remaining.tail
        inbox := inbox
        outbox := outbox
        weighted := weighted
        fingerprint := fingerprint
        validation := validation
        executed := attempt.executed + 1 } := by
  obtain ⟨unkeyed, unexported, unyielding⟩ : (∀ way : Way, way.key? operation = none) ∧
      operation.exports? task.plan.layout task.rank = none ∧
      ∀ way, operation.leaves? task.plan.layout way = none := Operation.unpassed other
  have empty : ∀ way, Yielded task seen way [operation] [] := fun way =>
    ⟨by simp [unyielding], fun _ _ member => by cases member⟩
  constructor
  · rfl
  · rfl
  · rfl
  · exact fun slot _ present => inboxKept slot present
  · exact inboxAdded
  · exact inboxMeant
  · exact outboxKept
  · intro transfer exported
    rw [unexported] at exported
    cases exported
  · exact fun transfer value member => Or.inl (outboxLess _ member)
  · rw [unkeyed]
    rfl
  · rw [unkeyed]
    rfl
  · exact counted
  · rfl
  · intro count found
    exact ⟨count, found, by rw [unkeyed, unkeyed]⟩
  · exact signed
  · exact fun _ _ => rfl
  · exact ⟨[], (List.append_nil _).symm, empty _⟩
  · exact ⟨[], (List.append_nil _).symm, empty _⟩
  · rfl

end PipelineTraining
