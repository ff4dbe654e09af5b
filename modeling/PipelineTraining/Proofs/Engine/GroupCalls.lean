import PipelineTraining.Proofs.Engine.Conduct
import PipelineTraining.Proofs.Validation.Gathering

/-!
The call of the group that a run is in. It is made at the sync, on the mesh or by asking
whatever else connects the group, and it stays with the attempt that it was made for.
-/

namespace PipelineTraining

variable {α : Type} {run next : Run α} {exchange : Option (Exchange α)}

namespace Phase

def call : Phase α → Gather.Call
  | .preparing _ _ gather => .opened gather.epoch gather.own
  | .gathering _ _ gather => .going gather
  | _ => .idle

/-- A call that may have just begun is made from the seat of the worker, for the attempt that it is
in and with what its validator publishes. Only a group without a mesh is asked at once. -/
def Opens (worker : Worker) : Phase α → Prop
  | .preparing _ attempt gather => ∃ fingerprint, gather = .start worker.seat.member
      worker.seat.members attempt.epoch (worker.validator.publish fingerprint)
  | .gathering .. => False
  | .consulting .. => worker.validator.channel = some .other
  | _ => True

/-- A call stays with the attempt that it is made for. -/
def Convened (worker : Worker) : Phase α → Prop
  | .gathering _ attempt gather => gather.epoch = attempt.epoch
  | phase => phase.Opens worker

variable {phase : Phase α} {worker : Worker}

theorem Opens.of_idle (idle : phase.trial? = none) : phase.Opens worker := by
  cases phase <;> trivial

theorem Opens.convened (opens : phase.Opens worker) : phase.Convened worker := by
  cases phase <;> trivial

theorem Convened.of_idle (idle : phase.trial? = none) : phase.Convened worker :=
  (Opens.of_idle idle).convened

theorem Convened.kin (kin : Kin run next) (convened : phase.Convened run.worker) :
    phase.Convened next.worker := by
  unfold Convened Opens at convened ⊢
  rw [kin.seat, kin.validator]
  exact convened

end Phase

namespace Run

theorem opens_abort (run : Run α) (guard : Option Guard) (fault : Fault) {worker : Worker} :
    (run.abort guard fault).phase.Opens worker :=
  .of_idle (resting_abort run guard fault).idle

theorem opens_exchanging (run : Run α) (guard : Option Guard) (attempt : Attempt α)
    (fingerprint : Fingerprint) :
    (run.exchanging guard attempt (run.worker.validator.publish fingerprint)).Opens run.worker := by
  unfold exchanging
  dsimp only
  split
  · next foreign => exact foreign
  · exact ⟨fingerprint, rfl⟩

theorem opens_take (run : Run α) (guard : Option Guard) (attempt : Attempt α)
    (operation : Operation) : (run.take guard attempt operation).phase.Opens run.worker := by
  cases operation with
  | forward stage microbatch =>
      simp only [take, startForward]
      split
      · exact opens_abort run guard _
      · split
        · exact opens_abort run guard _
        · trivial
  | backward stage microbatch =>
      simp only [take, startBackward]
      split
      · exact opens_abort run guard _
      · trivial
  | send peer transfer =>
      simp only [take, startSend]
      split
      · exact opens_abort run guard _
      · split
        · exact opens_abort run guard _
        · trivial
  | receive peer transfer =>
      simp only [take, startReceive]
      split
      · exact opens_abort run guard _
      · trivial
  | validationSync =>
      simp only [take, startSync]
      split
      · exact opens_abort run guard _
      · next fingerprint _ =>
        split
        · exact opens_exchanging run guard attempt fingerprint
        · trivial
  | backwardWeights | optimizerStep => trivial

theorem opens_choose (run : Run α) (guard : Option Guard) (attempt : Attempt α) :
    (run.choose guard attempt).phase.Opens run.worker := by
  simp only [choose]
  split
  · exact opens_take run guard _ _
  · trivial
  · exact .of_idle (trial?_finish run guard attempt)
  · exact opens_abort run guard _

end Run

theorem Stride.convened (stride : Stride run exchange next)
    (convened : run.phase.Convened run.worker) : next.phase.Convened next.worker := by
  refine Phase.Convened.kin stride.kin ?_
  cases here : run.phase with
  | choosing guard attempt =>
      obtain ⟨-, rfl⟩ := stride.of_own (by simp only [Run.turn, here]; rfl)
      exact (run.opens_choose guard attempt).convened
  | preparing guard attempt gather =>
      obtain ⟨answer, _, rfl⟩ := stride.of_ask (by simp only [Run.turn, here]; rfl)
      rw [here] at convened
      obtain ⟨fingerprint, rfl⟩ := convened
      exact rfl
  | gathering guard attempt gather =>
      rw [here] at convened
      cases move : gather.move with
      | finish =>
          obtain ⟨-, rfl⟩ := stride.of_own (by simp only [Run.turn, here, move]; rfl)
          trivial
      | publish peer =>
          obtain ⟨answer, _, rfl⟩ := stride.of_ask (by simp only [Run.turn, here, move]; rfl)
          cases answer with
          | error fault => exact (run.opens_abort guard _).convened
          | ok => exact convened
      | collect peer =>
          obtain ⟨answer, _, rfl⟩ := stride.of_ask (by simp only [Run.turn, here, move]; rfl)
          cases answer with
          | error fault => exact (run.opens_abort guard _).convened
          | ok entry => exact gather.epoch_enterOwn.trans convened
  | consulting guard attempt own =>
      obtain ⟨answer, _, rfl⟩ := stride.of_ask (by simp only [Run.turn, here]; rfl)
      cases answer with
      | error fault => exact (run.opens_abort guard _).convened
      | ok => trivial
  | forwarding | backwarding | weighing | sending | receiving | optimizing =>
      -- Any other operation is over after its turn.
      cases Run.tried (by rw [here]; rfl) stride with
      | serve => trivial
      | abort => exact (run.opens_abort _ _).convened
      | collapse => trivial
      | wait held => cases held
      | finish free | defer free | take free | pass free => cases free
  | snapshotting | clearing | restoring | discarding | ended =>
      rcases stride.idle (by rw [here]; rfl) with resting | ⟨guard, _, rfl, _⟩
      · exact .of_idle resting.idle
      · trivial

end PipelineTraining
