import PipelineTraining.Proofs.Engine.HeldValues
import PipelineTraining.Proofs.Engine.Trial
import PipelineTraining.Proofs.Plan.Handover

/-!
Choosing and starting, on any plan. An operation whose time has come finds what it needs:
only the tag of its message can still be refused. Where none can be chosen, the time of
none of those put off has come.
-/

namespace PipelineTraining

variable {α : Type} {operations rest : List Operation} {operation : Operation}
  {attempt picked : Attempt α}

namespace Attempt

variable {ready : Operation → Bool}

theorem pickWaiting_eq_none :
    pickWaiting ready operations = none ↔ ∀ operation ∈ operations, ready operation = false := by
  induction operations with
  | nil => simp [pickWaiting]
  | cons head tail ih =>
      unfold pickWaiting
      cases time : ready head <;> simp [time, ih]

theorem pickWaiting_sublist (found : pickWaiting ready operations = some (operation, rest)) :
    rest.Sublist operations := by
  induction operations generalizing rest with
  | nil => cases found
  | cons head tail ih =>
      unfold pickWaiting at found
      split at found
      · obtain ⟨rfl, rfl⟩ := Prod.mk.inj (Option.some.inj found)
        exact List.sublist_cons_self _ _
      · obtain ⟨⟨first, others⟩, later, same⟩ := Option.map_eq_some_iff.mp found
        obtain ⟨rfl, rfl⟩ := Prod.mk.inj same
        exact (ih later).cons_cons head

inductive Chosen (ready : Operation → Bool) (attempt : Attempt α) : Choice α → Prop
  | run {operation : Operation} {picked : Attempt α}
      (picks : Picked ready attempt operation picked) :
      Chosen ready attempt (.run operation picked)
  | defer {operation : Operation} {rest : List Operation}
      (next : attempt.remaining = operation :: rest) (early : ready operation = false) :
      Chosen ready attempt (.defer { attempt with
        remaining := rest
        waiting := attempt.waiting ++ [operation]
        deferred := attempt.deferred + 1 })
  | finish (waited : attempt.waiting = []) (through : attempt.remaining = []) :
      Chosen ready attempt .finish
  | stuck (left : attempt.waiting ≠ []) (through : attempt.remaining = [])
      (late : ∀ operation ∈ attempt.waiting, ready operation = false) :
      Chosen ready attempt (.stuck attempt.waiting)

theorem chosen (ready : Operation → Bool) (attempt : Attempt α) :
    Chosen ready attempt (attempt.choose ready) := by
  unfold choose
  cases found : pickWaiting ready attempt.waiting with
  | some picked => exact .run (.waiting found)
  | none =>
      cases next : attempt.remaining with
      | cons operation rest =>
          dsimp only
          split
          · exact .run (.next next ‹_›)
          · exact .defer next (Bool.eq_false_iff.mpr ‹_›)
      | nil =>
          dsimp only
          split
          · exact .finish (List.isEmpty_iff.mp ‹_›) next
          · next left =>
            exact .stuck (fun waited => left (List.isEmpty_iff.mpr waited)) next
              (pickWaiting_eq_none.mp found)

end Attempt

theorem Picked.sublist {ready : Operation → Bool} (picks : Picked ready attempt operation picked) :
    picked.waiting.Sublist attempt.waiting ∧ picked.remaining.Sublist attempt.remaining := by
  cases picks with
  | waiting found => exact ⟨Attempt.pickWaiting_sublist found, .refl _⟩
  | next ahead _ => exact ⟨.refl _, ahead ▸ List.sublist_cons_self _ _⟩

theorem Picked.ready {plan : Plan} {rank : Nat} {limiter : Limiter}
    (picks : Picked (attempt.isReady plan rank limiter) attempt operation picked) :
    picked.isReady plan rank limiter operation = true := by
  have time := picks.time
  rw [picks.same]
  cases operation <;> exact time

inductive Started (run : Run α) (guard : Option Guard) (attempt : Attempt α)
    (operation : Operation) : Run α → Prop
  | take {taken : Attempt α} {limiter : Limiter} {phase : Phase α}
      (takes : Taken run.worker.plan run.worker.rank run.worker.limiter attempt operation limiter
        taken)
      (shown : phase.trial? = some ⟨guard, taken, some operation⟩) :
      Started run guard attempt operation
        { run with worker := { run.worker with limiter := limiter }, phase := phase }
  | pass (syncs : operation = .validationSync) (signed : attempt.fingerprint.isSome = true) :
      Started run guard attempt operation
        (run.completed guard { attempt with validation := some .consistent } .validationSync)
  | refuse {transfer : Transfer} {fault : Fault} (moves : operation.payload? = some transfer)
      (refused : transfer.tag run.worker.plan.microbatches attempt.epoch = .error fault) :
      Started run guard attempt operation (run.abort guard fault)

namespace Run

variable {run : Run α} {guard : Option Guard}

theorem started_forward {stage : StageId} {microbatch : Nat}
    (time : attempt.isReady run.worker.plan run.worker.rank run.worker.limiter
      (.forward stage microbatch) = true) :
    Started run guard attempt (.forward stage microbatch)
      (run.startForward guard attempt stage microbatch) := by
  obtain ⟨admitted, fed⟩ := Bool.and_eq_true_iff.mp time
  obtain ⟨limiter, admits⟩ : ∃ limiter,
      run.worker.limiter.admit? run.worker.rank = some limiter :=
    ⟨_, if_pos admitted⟩
  obtain ⟨input, taken, found⟩ : ∃ input taken, attempt.forwardInput run.worker.plan.layout
      run.worker.rank stage microbatch = .ok (input, taken) := by
    unfold Attempt.forwardInput
    split
    · exact ⟨_, _, rfl⟩
    · next other =>
      have present := (Bool.or_eq_true_iff.mp fed).resolve_left other
      obtain ⟨payload, laid, _⟩ := Shelf.take?_of_has present
      exact ⟨_, _, by rw [laid]⟩
  simp only [startForward, found, admits]
  exact .take (.forward found admits) rfl

theorem started_backward {stage : StageId} {microbatch : Nat}
    (time : attempt.isReady run.worker.plan run.worker.rank run.worker.limiter
      (.backward stage microbatch) = true) :
    Started run guard attempt (.backward stage microbatch)
      (run.startBackward guard attempt stage microbatch) := by
  obtain ⟨_, fed⟩ := Bool.and_eq_true_iff.mp time
  obtain ⟨gradient, taken, found⟩ : ∃ gradient taken, attempt.backwardInput
      run.worker.plan.layout run.worker.rank stage microbatch = .ok (gradient, taken) := by
    unfold Attempt.backwardInput
    split
    · exact ⟨_, _, rfl⟩
    · next other =>
      have present := (Bool.or_eq_true_iff.mp fed).resolve_left other
      obtain ⟨payload, laid, _⟩ := Shelf.take?_of_has present
      exact ⟨_, _, by rw [laid]⟩
  simp only [startBackward, found]
  exact .take (.backward found) rfl

/-- An operation whose time has come is started, unless its message cannot be tagged. -/
theorem started (operation : Operation) (time : attempt.isReady run.worker.plan run.worker.rank
      run.worker.limiter operation = true) :
    Started run guard attempt operation (run.take guard attempt operation) := by
  cases operation with
  | forward stage microbatch => exact started_forward time
  | backward stage microbatch => exact started_backward time
  | backwardWeights stage microbatch => exact .take .weights rfl
  | send peer transfer =>
      obtain ⟨payload, laid, _⟩ := Shelf.take?_of_has time
      simp only [take, startSend, laid]
      split
      · next fault refused => exact .refuse rfl refused
      · next tag tagged => exact .take (.send laid tagged) rfl
  | receive peer transfer =>
      simp only [take, startReceive]
      split
      · next fault refused => exact .refuse rfl refused
      · next tag tagged => exact .take (.receive tagged) rfl
  | optimizerStep => exact .take .optimizer rfl
  | validationSync =>
      simp only [take, startSync]
      split
      · next unsigned =>
        rw [Attempt.isReady, unsigned] at time
        cases time
      · split
        · exact .take (.sync time) (trial?_exchanging ..)
        · exact .pass rfl time

end Run
end PipelineTraining
