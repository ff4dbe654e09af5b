import PipelineTraining.Proofs.Engine.HeldValues

/-!
An attempt behind some of its operations. It holds what they put and nothing has
taken, has entered their passes, and keeps what they returned; one operation more
moves it on. As every operation finds what it needs before it, none is put off.
-/

namespace PipelineTraining

variable {α : Type}

structure Task (α : Type) where
  plan : Plan
  rank : Nat
  script : List Operation
  iteration : Nat
  retry : Nat
  inputs : Option (List α)

structure Yielded (task : Task α) (seen : List (Sighting α)) (way : Way)
    (behind : List Operation) (products : List (Nat × α)) : Prop where
  listed : products.map Prod.fst = behind.filterMap (Operation.leaves? task.plan.layout way)
  returned : ∀ microbatch value, (microbatch, value) ∈ products →
    ∃ stage, task.plan.layout.IsStage stage ∧ way.target task.plan.layout stage = none ∧
      Returned task.plan.layout seen task.iteration way stage microbatch value

structure Standing (task : Task α) (seen : List (Sighting α)) (behind after : List Operation)
    (limiter : Limiter) (attempt : Attempt α) : Prop where
  script : task.script = behind ++ after
  remaining : attempt.remaining = after
  waiting : attempt.waiting = []
  epoch : attempt.epoch = attemptEpoch task.iteration task.retry
  inbox : Stocked (Operation.fills? task.plan.layout task.rank)
    (Operation.drains? task.plan.layout) behind attempt.inbox
  inboxMeant : ∀ slot value, (slot, value) ∈ attempt.inbox →
    Meant task.plan.layout seen task.iteration slot value
  outbox : Stocked (Operation.exports? task.plan.layout task.rank) Operation.ships? behind
    attempt.outbox
  outboxMeant : ∀ transfer value, (transfer, value) ∈ attempt.outbox →
    Meant task.plan.layout seen task.iteration transfer.entry value
  forwarded : attempt.forwarded = (behind.filterMap Way.forward.key?).reverse
  backwarded : attempt.backwarded = (behind.filterMap Way.backward.key?).reverse
  weighted : attempt.weighted = (behind.filterMap Operation.weightKey?).length
  limit : limiter.limit = task.plan.memoryLimit
  pending : ∃ count, limiter.pending[task.rank]? = some count ∧
    count + (behind.filterMap Way.backward.key?).length =
      (behind.filterMap Way.forward.key?).length
  fingerprint : .optimizerStep ∈ behind → attempt.fingerprint.isSome = true
  inputs : ∀ microbatch,
    (∀ stage, task.plan.layout.prev stage = none → .forward stage microbatch ∉ behind) →
    (attempt.inputs[microbatch]?).join = given task.inputs microbatch
  outputs : Yielded task seen .forward behind attempt.outputs
  inputGradients : Yielded task seen .backward behind attempt.inputGradients
  executed : attempt.executed = behind.length

structure Moved (task : Task α) (seen : List (Sighting α)) (operation : Operation)
    (limiter : Limiter) (attempt : Attempt α) (limiter' : Limiter) (attempt' : Attempt α) :
    Prop where
  remaining : attempt'.remaining = attempt.remaining.tail
  waiting : attempt'.waiting = attempt.waiting
  epoch : attempt'.epoch = attempt.epoch
  inboxKept : ∀ slot, operation.drains? task.plan.layout ≠ some slot →
    attempt.inbox.has slot = true → attempt'.inbox.has slot = true
  inboxAdded : ∀ slot, operation.fills? task.plan.layout task.rank = some slot →
    attempt'.inbox.has slot = true
  inboxMeant : ∀ slot value, (slot, value) ∈ attempt'.inbox →
    (slot, value) ∈ attempt.inbox ∨ Meant task.plan.layout seen task.iteration slot value
  outboxKept : ∀ transfer, operation.ships? ≠ some transfer →
    attempt.outbox.has transfer = true → attempt'.outbox.has transfer = true
  outboxAdded : ∀ transfer, operation.exports? task.plan.layout task.rank = some transfer →
    attempt'.outbox.has transfer = true
  outboxMeant : ∀ transfer value, (transfer, value) ∈ attempt'.outbox →
    (transfer, value) ∈ attempt.outbox ∨
      Meant task.plan.layout seen task.iteration transfer.entry value
  forwarded : attempt'.forwarded = (Way.forward.key? operation).toList ++ attempt.forwarded
  backwarded : attempt'.backwarded = (Way.backward.key? operation).toList ++ attempt.backwarded
  weighted : attempt'.weighted = attempt.weighted + operation.weightKey?.toList.length
  limit : limiter'.limit = limiter.limit
  pending : ∀ count, limiter.pending[task.rank]? = some count →
    ∃ count', limiter'.pending[task.rank]? = some count' ∧
      count' + (Way.backward.key? operation).toList.length =
        count + (Way.forward.key? operation).toList.length
  fingerprint : operation = .optimizerStep ∨ attempt.fingerprint.isSome = true →
    attempt'.fingerprint.isSome = true
  inputs : ∀ microbatch,
    (∀ stage, task.plan.layout.prev stage = none → operation ≠ .forward stage microbatch) →
    (attempt'.inputs[microbatch]?).join = (attempt.inputs[microbatch]?).join
  outputs : ∃ more, attempt'.outputs = attempt.outputs ++ more ∧
    Yielded task seen .forward [operation] more
  inputGradients : ∃ more, attempt'.inputGradients = attempt.inputGradients ++ more ∧
    Yielded task seen .backward [operation] more
  executed : attempt'.executed = attempt.executed + 1

variable {task : Task α} {seen later : List (Sighting α)} {behind after : List Operation}
  {operation : Operation} {limiter limiter' : Limiter} {attempt attempt' : Attempt α}

theorem Yielded.mono {way : Way} {products : List (Nat × α)} (more : seen ⊆ later)
    (yielded : Yielded task seen way behind products) :
    Yielded task later way behind products := by
  refine ⟨yielded.listed, fun microbatch value member => ?_⟩
  obtain ⟨stage, known, ends, returned⟩ := yielded.returned microbatch value member
  exact ⟨stage, known, ends, returned.mono more⟩

theorem Yielded.append {way : Way} {more : List Operation} {products others : List (Nat × α)}
    (yielded : Yielded task seen way behind products)
    (yieldedMore : Yielded task seen way more others) :
    Yielded task seen way (behind ++ more) (products ++ others) := by
  constructor
  · rw [List.map_append, List.filterMap_append, yielded.listed, yieldedMore.listed]
  · intro microbatch value member
    rcases List.mem_append.mp member with old | new
    · exact yielded.returned microbatch value old
    · exact yieldedMore.returned microbatch value new

theorem Standing.mono (more : seen ⊆ later)
    (standing : Standing task seen behind after limiter attempt) :
    Standing task later behind after limiter attempt :=
  { standing with
    inboxMeant := fun slot value member => (standing.inboxMeant slot value member).mono more
    outboxMeant := fun transfer value member =>
      (standing.outboxMeant transfer value member).mono more
    outputs := standing.outputs.mono more
    inputGradients := standing.inputGradients.mono more }

theorem Standing.snoc (more : seen ⊆ later)
    (standing : Standing task seen behind (operation :: after) limiter attempt)
    (moved : Moved task later operation limiter attempt limiter' attempt') :
    Standing task later (behind ++ [operation]) after limiter' attempt' := by
  have before := standing.mono more
  constructor
  · rw [before.script, List.append_assoc, List.singleton_append]
  · rw [moved.remaining, before.remaining, List.tail_cons]
  · rw [moved.waiting, before.waiting]
  · rw [moved.epoch, before.epoch]
  · exact before.inbox.snoc moved.inboxKept moved.inboxAdded
  · intro slot value member
    rcases moved.inboxMeant slot value member with old | meant
    · exact before.inboxMeant slot value old
    · exact meant
  · exact before.outbox.snoc moved.outboxKept moved.outboxAdded
  · intro transfer value member
    rcases moved.outboxMeant transfer value member with old | meant
    · exact before.outboxMeant transfer value old
    · exact meant
  · rw [moved.forwarded, before.forwarded, reverse_filterMap_snoc]
  · rw [moved.backwarded, before.backwarded, reverse_filterMap_snoc]
  · rw [moved.weighted, before.weighted, length_filterMap_snoc]
  · rw [moved.limit, before.limit]
  · obtain ⟨count, found, balance⟩ := before.pending
    obtain ⟨count', found', change⟩ := moved.pending count found
    refine ⟨count', found', ?_⟩
    rw [length_filterMap_snoc, length_filterMap_snoc]
    omega
  · intro member
    rcases List.mem_append.mp member with old | now
    · exact moved.fingerprint (Or.inr (before.fingerprint old))
    · exact moved.fingerprint (Or.inl (List.mem_singleton.mp now).symm)
  · intro microbatch untaken
    rw [moved.inputs microbatch fun stage first same => untaken stage first (by simp [same])]
    exact before.inputs microbatch fun stage first member =>
      untaken stage first (List.mem_append_left _ member)
  · obtain ⟨new, same, yielded⟩ := moved.outputs
    rw [same]
    exact before.outputs.append yielded
  · obtain ⟨new, same, yielded⟩ := moved.inputGradients
    rw [same]
    exact before.inputGradients.append yielded
  · rw [moved.executed, before.executed, List.length_append, List.length_singleton]

theorem Standing.start (script : List Operation) {inputs : List (Option α)}
    (same : task.script = script) (limit : limiter.limit = task.plan.memoryLimit)
    (drained : limiter.pending[task.rank]? = some 0)
    (handed : ∀ microbatch, (inputs[microbatch]?).join = given task.inputs microbatch) :
    Standing task seen [] script limiter
      (.start (attemptEpoch task.iteration task.retry) inputs script) := by
  constructor
  · exact same
  · rfl
  · rfl
  · rfl
  · exact Stocked.empty _ _
  · intro slot value member
    cases member
  · exact Stocked.empty _ _
  · intro transfer value member
    cases member
  · rfl
  · rfl
  · rfl
  · exact limit
  · exact ⟨0, drained, rfl⟩
  · intro member
    cases member
  · exact fun microbatch _ => handed microbatch
  · exact ⟨rfl, fun _ _ member => by cases member⟩
  · exact ⟨rfl, fun _ _ member => by cases member⟩
  · rfl

end PipelineTraining
