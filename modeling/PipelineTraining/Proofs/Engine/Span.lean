import PipelineTraining.Proofs.Engine.Conduct
import PipelineTraining.Proofs.Validation.Gathering

/-!
How long an attempt can take. Operations come to their ends after a few turns each, the
sync after a few for every member of the group, and none is put off twice. So every turn
brings an attempt nearer to its own end, whatever the turn is answered.
-/

namespace PipelineTraining

variable {α : Type}

def Operation.span (members : Nat) : Operation → Nat
  | .validationSync => 2 * members + 3
  | _ => 2

/-- The turns of the operations to come. Those not put off yet may take one more for that. -/
def Attempt.span (members : Nat) (attempt : Attempt α) : Nat :=
  (attempt.waiting.map (Operation.span members)).sum +
    (attempt.remaining.map (Operation.span members)).sum + attempt.remaining.length

namespace Run

def turnsInHand (run : Run α) : Nat :=
  match run.phase with
  | .preparing _ _ gather => gather.unsent.length + gather.missing.length + 2
  | .gathering _ _ gather => gather.unsent.length + gather.missing.length + 1
  | _ => run.inHand?.toList.length

def turnsAhead (run : Run α) : Nat :=
  run.phase.trial?.elim 0 fun trial =>
    trial.attempt.span run.worker.seat.members + run.turnsInHand + 1

theorem turnsInHand_pos {run : Run α} {operation : Operation}
    (held : run.inHand? = some operation) : 0 < run.turnsInHand := by
  unfold turnsInHand
  split
  · exact Nat.succ_pos _
  · exact Nat.succ_pos _
  · rw [held]
    exact Nat.one_pos

end Run

namespace Run

def Fresh (members : Nat) (run : Run α) : Prop :=
  ∀ operation, run.inHand? = some operation → run.turnsInHand < operation.span members

theorem fresh_of_idle {members : Nat} {run : Run α} (idle : run.phase.trial? = none) :
    run.Fresh members := by
  intro operation held
  rw [inHand?, idle] at held
  cases held

theorem fresh_abort {members : Nat} (run : Run α) (guard : Option Guard) (fault : Fault) :
    (run.abort guard fault).Fresh members :=
  fresh_of_idle (resting_abort run guard fault).idle

theorem fresh_of_one {members : Nat} {run : Run α} (turns : run.turnsInHand = 1) :
    run.Fresh members := by
  intro operation held
  rw [turns]
  cases operation <;> simp [Operation.span]

theorem fresh_exchanging (run : Run α) (guard : Option Guard) (attempt : Attempt α)
    (own : StageFingerprint) :
    (run.become (run.exchanging guard attempt own)).Fresh run.worker.seat.members := by
  unfold exchanging
  dsimp only
  split
  · exact fresh_of_one rfl
  · rintro operation held
    obtain rfl := Option.some.inj held
    have peers := List.length_filter_le
      (fun peer => peer != run.worker.seat.member) (List.range run.worker.seat.members)
    rw [List.length_range] at peers
    simp only [become, turnsInHand, Gather.start, List.length_range, Operation.span]
    omega

theorem fresh_take (run : Run α) (guard : Option Guard) (attempt : Attempt α)
    (operation : Operation) :
    (run.take guard attempt operation).Fresh run.worker.seat.members := by
  cases operation with
  | forward stage microbatch =>
      simp only [take, startForward]
      split
      · exact fresh_abort run guard _
      · split
        · exact fresh_abort run guard _
        · exact fresh_of_one rfl
  | backward stage microbatch =>
      simp only [take, startBackward]
      split
      · exact fresh_abort run guard _
      · exact fresh_of_one rfl
  | backwardWeights stage microbatch => exact fresh_of_one rfl
  | send peer transfer =>
      simp only [take, startSend]
      split
      · exact fresh_abort run guard _
      · split
        · exact fresh_abort run guard _
        · exact fresh_of_one rfl
  | receive peer transfer =>
      simp only [take, startReceive]
      split
      · exact fresh_abort run guard _
      · exact fresh_of_one rfl
  | optimizerStep => exact fresh_of_one rfl
  | validationSync =>
      simp only [take, startSync]
      split
      · exact fresh_abort run guard _
      · split
        · exact fresh_exchanging run guard attempt _
        · rintro other ⟨⟩

theorem fresh_choose (run : Run α) (guard : Option Guard) (attempt : Attempt α) :
    (run.choose guard attempt).Fresh run.worker.seat.members := by
  simp only [choose]
  split
  · exact fresh_take run guard _ _
  · rintro operation ⟨⟩
  · exact fresh_of_idle (trial?_finish run guard attempt)
  · exact fresh_abort run guard _

end Run

theorem Picked.span {ready : Operation → Bool} {attempt picked : Attempt α} {operation : Operation}
    (picks : Picked ready attempt operation picked) (members : Nat) :
    picked.span members + operation.span members ≤ attempt.span members := by
  cases picks with
  | waiting found =>
      have sums := ((Attempt.pickWaiting_some found).2.map (Operation.span members)).sum_nat
      simp only [List.map_cons, List.sum_cons] at sums
      simp only [Attempt.span, sums]
      omega
  | next ahead _ =>
      simp only [Attempt.span, ahead, List.map_cons, List.sum_cons, List.length_cons]
      omega

theorem Taken.span {plan : Plan} {rank : Nat} {limiter after : Limiter}
    {attempt taken : Attempt α} {operation : Operation}
    (takes : Taken plan rank limiter attempt operation after taken) (members : Nat) :
    taken.span members = attempt.span members :=
  (congrArg (Attempt.span members) takes.same).trans rfl

theorem Served.span {layout : Layout} {rank : Nat} {limiter after : Limiter}
    {attempt served : Attempt α} {operation : Operation} {exchange : Option (Exchange α)}
    (serves : Served layout rank limiter attempt operation exchange after served) (members : Nat) :
    served.span members = attempt.span members := by
  obtain ⟨waiting, remaining, _⟩ := serves.ahead
  rw [Attempt.span, Attempt.span, waiting, remaining]

theorem Tried.guard {run next : Run α} {trial onward : Trial α} {exchange : Option (Exchange α)}
    (tried : Tried run trial exchange next) (known : next.phase.trial? = some onward) :
    onward.guard = trial.guard := by
  cases tried with
  | finish =>
      rw [Run.trial?_finish] at known
      cases known
  | take _ _ _ held _ =>
      obtain rfl := Option.some.inj (held.symm.trans known)
      rfl
  | wait _ _ same _ =>
      obtain rfl := Option.some.inj (same.symm.trans known)
      rfl
  | defer | pass | serve =>
      obtain rfl := Option.some.inj known
      rfl
  | abort =>
      rw [(Run.resting_abort ..).idle] at known
      cases known
  | collapse => cases known

namespace Stride

variable {run next : Run α} {trial onward : Trial α} {exchange : Option (Exchange α)}

/-- No turn leads from one attempt right into another one. -/
theorem underway_of_on (stride : Stride run exchange next) (shown : run.phase.trial? = some trial)
    (known : next.phase.trial? = some onward) : next.underway? = run.underway? := by
  have guard := (Run.tried shown stride).guard known
  rw [Run.underway?, Run.underway?, shown, known, Option.map_some, Option.map_some, Trial.retry,
    Trial.retry, guard, stride.kin.iteration]

theorem waits {made : Exchange α} (stride : Stride run (some made) next)
    (shown : run.phase.trial? = some trial) (held : trial.hand = some .validationSync)
    (known : next.phase.trial? = some trial) : next.turnsInHand < run.turnsInHand := by
  have failed : ∀ guard fault, next ≠ run.abort guard fault := by
    rintro guard fault rfl
    rw [(Run.resting_abort ..).idle] at known
    cases known
  cases here : run.phase with
  | preparing guard attempt gather =>
      obtain ⟨answer, _, rfl⟩ := stride.of_ask (by simp only [Run.turn, here]; rfl)
      simp only [Run.turnsInHand, here, Run.become]
      exact Nat.lt_succ_self _
  | gathering guard attempt gather =>
      cases move : gather.move with
      | finish =>
          obtain ⟨asked, _⟩ := stride.of_own (by simp only [Run.turn, here, move]; rfl)
          cases asked
      | publish peer =>
          obtain ⟨answer, _, rfl⟩ := stride.of_ask (by simp only [Run.turn, here, move]; rfl)
          cases answer with
          | error fault => exact absurd rfl (failed guard _)
          | ok =>
              have fewer := Gather.length_published move
              have same : gather.published.missing = gather.missing := rfl
              simp only [Run.turnsInHand, here, Run.published, Run.become, same]
              omega
      | collect peer =>
          obtain ⟨answer, _, rfl⟩ := stride.of_ask (by simp only [Run.turn, here, move]; rfl)
          cases answer with
          | error fault => exact absurd rfl (failed guard _)
          | ok entry =>
              obtain ⟨same, fewer⟩ := Gather.length_collected move entry
              simp only [Run.turnsInHand, here, Run.collected, Run.become, same]
              omega
  | consulting guard attempt own =>
      obtain ⟨answer, _, rfl⟩ := stride.of_ask (by simp only [Run.turn, here]; rfl)
      cases answer with
      | error fault => exact absurd rfl (failed guard _)
      | ok gathered =>
          obtain rfl := Option.some.inj known
          cases held
  | choosing | forwarding | backwarding | weighing | sending | receiving | optimizing =>
      rw [here] at shown
      obtain rfl := Option.some.inj shown
      cases held
  | snapshotting | clearing | restoring | discarding | ended =>
      rw [here] at shown
      cases shown

/-- Every turn brings an attempt nearer to its end. -/
theorem nearer (stride : Stride run exchange next) (shown : run.phase.trial? = some trial)
    (known : next.phase.trial? = some onward) : next.turnsAhead < run.turnsAhead := by
  have seat := stride.kin.seat
  have tried := Run.tried shown stride
  simp only [Run.turnsAhead, shown, known, Option.elim_some, seat]
  generalize members : run.worker.seat.members = group
  cases tried with
  | finish =>
      rw [Run.trial?_finish] at known
      cases known
  | @defer operation rest free ahead _ =>
      obtain rfl := Option.some.inj known
      have bare : (run.become (.choosing trial.guard { trial.attempt with
          remaining := rest
          waiting := trial.attempt.waiting ++ [operation]
          deferred := trial.attempt.deferred + 1 })).turnsInHand = 0 := rfl
      -- Putting an operation off takes the one turn that it had for that.
      simp only [bare, Attempt.span, ahead, List.map_append, List.map_cons, List.map_nil,
        List.sum_append, List.sum_cons, List.sum_nil, List.length_cons]
      omega
  | take free picks takes held _ =>
      obtain rfl := Option.some.inj (held.symm.trans known)
      have spent := picks.span group
      have same := takes.span group
      have phase := Run.trial?_of_free shown free
      obtain ⟨_, chosen⟩ := stride.of_own (by simp only [Run.turn, phase]; rfl)
      have fresh := run.fresh_choose trial.guard trial.attempt
      rw [← chosen, members] at fresh
      have short := fresh _ (by rw [Run.inHand?, held]; rfl)
      -- Its span was kept for the turns that it now has in hand, and for this one.
      dsimp only at short ⊢
      omega
  | @pass picked free picks _ =>
      obtain rfl := Option.some.inj known
      have spent := picks.span group
      have bare : picked.span group < trial.attempt.span group := by
        simp only [Operation.span] at spent
        omega
      exact Nat.succ_lt_succ (Nat.lt_of_lt_of_le bare (Nat.le_add_right _ _))
  | wait held _ same _ =>
      obtain rfl := Option.some.inj (same.symm.trans known)
      have fewer := stride.waits shown held same
      exact Nat.succ_lt_succ (Nat.add_lt_add_left fewer _)
  | serve held serves =>
      obtain rfl := Option.some.inj known
      have same := serves.span group
      have busy := Run.turnsInHand_pos (by rw [Run.inHand?, shown]; exact held)
      refine Nat.succ_lt_succ (Nat.lt_of_le_of_lt (Nat.le_of_eq same) ?_)
      exact Nat.lt_add_of_pos_right busy
  | abort =>
      rw [(Run.resting_abort ..).idle] at known
      cases known
  | collapse => cases known

end Stride

theorem Run.turnsAhead_pos {run : Run α} {attempt : Nat × Nat}
    (underway : run.underway? = some attempt) : 0 < run.turnsAhead := by
  obtain ⟨trial, shown, _⟩ := Option.map_eq_some_iff.mp underway
  rw [turnsAhead, shown]
  exact Nat.succ_pos _

theorem Operation.sum_span (members : Nat) (operations : List Operation) :
    (operations.map (span members)).sum =
      2 * operations.length + (2 * members + 1) * operations.count .validationSync := by
  induction operations with
  | nil => rfl
  | cons operation rest ih =>
      rw [List.map_cons, List.sum_cons, ih, List.length_cons]
      by_cases sync : operation = .validationSync
      · subst sync
        rw [List.count_cons_self, span, Nat.mul_succ (2 * members + 1)]
        omega
      · have short : operation.span members = 2 := by
          cases operation <;> first | rfl | exact absurd rfl sync
        rw [List.count_cons_of_ne sync, short]
        omega

namespace Run

def attemptBound (run : Run α) : Nat :=
  3 * run.worker.operations.length + 2 * run.worker.seat.members + 2

theorem attemptBound_le (run : Run α) : run.attemptBound ≤ run.turnBound := by
  unfold attemptBound turnBound
  omega

theorem turnsAhead_cleared_eq (run : Run α) (guard : Option Guard) :
    (run.cleared guard).turnsAhead =
      (run.worker.operations.map (Operation.span run.worker.seat.members)).sum +
        run.worker.operations.length + 1 := by
  simp [turnsAhead, cleared, Phase.trial?, turnsInHand, inHand?, Attempt.span, Attempt.start]

theorem turnsAhead_cleared (run : Run α) (guard : Option Guard)
    (once : run.worker.operations.count .validationSync ≤ 1) :
    (run.cleared guard).turnsAhead ≤ run.attemptBound := by
  have sums := Operation.sum_span run.worker.seat.members run.worker.operations
  have syncs := Nat.mul_le_mul_left (2 * run.worker.seat.members + 1) once
  rw [turnsAhead_cleared_eq, sums, attemptBound]
  omega

end Run

theorem Run.turnsAhead_of_idle {run : Run α} (idle : run.phase.trial? = none) :
    run.turnsAhead = 0 := by
  rw [turnsAhead, idle, Option.elim_none]

def Phase.rest : Phase α → Nat
  | .snapshotting => 1
  | .clearing _ => 0
  | .restoring .. => 2
  | .discarding _ => 1
  | .ended _ => 0
  | _ => 3

/-- The turns that a run has before it, in its attempts and between them. -/
def Run.budget (run : Run α) : Nat :=
  (2 - run.phase.begun) * (run.attemptBound + 4) + run.turnsAhead + run.phase.rest

theorem Phase.rest_of_trial {phase : Phase α} {trial : Trial α}
    (shown : phase.trial? = some trial) : phase.rest = 3 := by
  cases phase with
  | snapshotting | clearing | restoring | discarding | ended => cases shown
  | _ => rfl

theorem Phase.rest_of_idle {phase : Phase α} (idle : phase.trial? = none) : phase.rest ≤ 2 := by
  cases phase with
  | snapshotting | clearing | restoring | discarding | ended => simp [rest]
  | _ => cases idle

theorem Orderly.attempts_le {guard : Option Guard} (orderly : Orderly (.clearing guard : Phase α)) :
    (guard.map Guard.attempts).getD 0 ≤ 1 := by
  cases orderly with
  | clearing round =>
      cases guard with
      | none => exact Nat.zero_le 1
      | some held => exact (round held rfl).le_one
  | trying shown => cases shown

namespace Stride

variable {run next : Run α} {exchange : Option (Exchange α)}

theorem attemptBound (stride : Stride run exchange next) :
    next.attemptBound = run.attemptBound := by
  rw [Run.attemptBound, Run.attemptBound, stride.kin.operations, stride.kin.seat]

/-- Every turn is one less. -/
theorem budget_lt (stride : Stride run exchange next) (orderly : Orderly run.phase)
    (suited : Suited run.worker.plan run.inputs)
    (once : run.worker.operations.count .validationSync ≤ 1) : next.budget < run.budget := by
  have begun := stride.begun_le orderly
  have shares := Nat.mul_le_mul_right (run.attemptBound + 4) (Nat.sub_le_sub_left begun 2)
  unfold Run.budget
  rw [stride.attemptBound]
  cases shown : run.phase.trial? with
  | some trial =>
      rw [Phase.rest_of_trial shown]
      cases known : next.phase.trial? with
      | some onward =>
          have nearer := stride.nearer shown known
          rw [Phase.rest_of_trial known]
          omega
      | none =>
          have rest := Phase.rest_of_idle known
          have nothing := Run.turnsAhead_of_idle known
          omega
  | none =>
      have nothing := Run.turnsAhead_of_idle shown
      obtain ⟨made, rfl, interlude⟩ := stride.interlude rfl shown
      -- Between attempts every turn either comes nearer to the next one or gives it up.
      have onward : next.phase.trial? = none → next.phase.rest < run.phase.rest →
          (2 - next.phase.begun) * (run.attemptBound + 4) + next.turnsAhead + next.phase.rest <
            (2 - run.phase.begun) * (run.attemptBound + 4) + run.turnsAhead + run.phase.rest := by
        intro idle less
        have still := Run.turnsAhead_of_idle idle
        omega
      generalize run.phase = phase at orderly onward interlude ⊢
      cases interlude with
      | snapshot answer =>
          cases answer with
          | error source => exact onward rfl Nat.one_pos
          | ok handle =>
              rw [Run.snapshotTaken_of_suited suited] at onward ⊢
              exact onward rfl Nat.one_pos
      | @clear guard =>
          have ahead := run.turnsAhead_cleared guard once
          have few := orderly.attempts_le
          have next : (run.cleared guard).phase.begun = (guard.map Guard.attempts).getD 0 + 1 := by
            cases guard <;> simp [Run.cleared, Phase.begun, Phase.trial?, Trial.retry]
          have rest : (run.cleared guard).phase.rest = 3 := rfl
          have share : (2 - (guard.map Guard.attempts).getD 0) * (run.attemptBound + 4) =
              (2 - ((guard.map Guard.attempts).getD 0 + 1)) * (run.attemptBound + 4) +
                (run.attemptBound + 4) := by
            rw [← Nat.succ_mul]
            congr 1
            omega
          have here : (Phase.clearing guard : Phase α).begun =
              (guard.map Guard.attempts).getD 0 := rfl
          rw [next, rest, here, share]
          omega
      | @restore _ after answer =>
          cases answer with
          | error source => cases after <;> exact onward rfl Nat.two_pos
          | ok => cases after <;> exact onward rfl (Nat.lt_succ_self 1)
      | @discard after answer =>
          cases answer with
          | error source => cases after <;> exact onward rfl Nat.one_pos
          | ok =>
              cases after with
              | fail fault => exact onward rfl Nat.one_pos
              | retry guard =>
                  obtain ⟨_, rank, cycle⟩ := orderly.discarded guard rfl
                  rw [Run.discarded_of_rolledBack suited cycle] at onward ⊢
                  exact onward rfl Nat.one_pos

end Stride

end PipelineTraining
