import PipelineTraining.Proofs.Engine.Trial

/-!
The attempts of a run. An unguarded run makes one; a guarded one makes a second after
a roll-back and no third.
-/

namespace PipelineTraining

variable {α : Type}

def Trial.retry (trial : Trial α) : Nat :=
  (trial.guard.map Guard.attempts).getD 1 - 1

def Run.underway? (run : Run α) : Option (Nat × Nat) :=
  run.phase.trial?.map fun trial => (run.iteration, trial.retry)

/-- How many attempts a run has begun, or both if it will begin no more. -/
def Phase.begun : Phase α → Nat
  | .snapshotting => 0
  | .clearing guard => (guard.map Guard.attempts).getD 0
  | .restoring _ (.retry guard) => guard.attempts
  | .discarding (.retry guard) => guard.attempts
  | phase => phase.trial?.elim 2 fun trial => trial.retry + 1

inductive Round : StepCycle → Nat → Prop
  | first (rank : Nat) : Round (.start rank) 0
  | second (rank : Nat) : Round ⟨rank, .retrying, 1⟩ 1

theorem Round.le_one {cycle : StepCycle} {times : Nat} (round : Round cycle times) : times ≤ 1 := by
  cases round <;> decide

/-- A step is only tried again after its first attempt. -/
def Aftermath.Orderly (after : Aftermath) : Prop :=
  ∀ guard, after = .retry guard → guard.attempts = 1 ∧ ∃ rank, guard.cycle = ⟨rank, .rolledBack, 0⟩

inductive Orderly : Phase α → Prop
  | snapshotting : Orderly .snapshotting
  | clearing {guard : Option Guard}
      (round : ∀ held, guard = some held → Round held.cycle held.attempts) :
      Orderly (.clearing guard)
  | trying {phase : Phase α} {trial : Trial α} (shown : phase.trial? = some trial)
      (round : ∀ held, trial.guard = some held →
        ∃ times, Round held.cycle times ∧ held.attempts = times + 1) : Orderly phase
  | restoring {handle : Nat} {after : Aftermath} (orderly : after.Orderly) :
      Orderly (.restoring handle after)
  | discarding {after : Aftermath} (orderly : after.Orderly) : Orderly (.discarding after)
  | ended {result : Except Fault (StepReport α)} : Orderly (.ended result)

namespace Orderly

variable {phase : Phase α} {trial : Trial α} {guard : Guard}

theorem round (orderly : Orderly phase) (shown : phase.trial? = some trial)
    (guarded : trial.guard = some guard) :
    ∃ times, Round guard.cycle times ∧ guard.attempts = times + 1 := by
  cases orderly with
  | trying known round =>
      obtain rfl := Option.some.inj (known.symm.trans shown)
      exact round guard guarded
  | snapshotting | clearing | restoring | discarding | ended => cases shown

theorem restored {handle : Nat} {after : Aftermath}
    (orderly : Orderly (.restoring handle after : Phase α)) : after.Orderly := by
  cases orderly with
  | trying shown => cases shown
  | restoring orderly => exact orderly

theorem discarded {after : Aftermath} (orderly : Orderly (.discarding after : Phase α)) :
    after.Orderly := by
  cases orderly with
  | trying shown => cases shown
  | discarding orderly => exact orderly

theorem retry_le (orderly : Orderly phase) (shown : phase.trial? = some trial) :
    trial.retry ≤ 1 := by
  unfold Trial.retry
  cases guarded : trial.guard with
  | none => exact Nat.zero_le 1
  | some guard =>
      obtain ⟨times, round, counted⟩ := orderly.round shown guarded
      have few := round.le_one
      simp only [Option.map_some, Option.getD_some]
      omega

end Orderly

theorem Aftermath.orderly_fail (fault : Fault) : (Aftermath.fail fault).Orderly :=
  fun _ same => by cases same

namespace Run

variable {run next : Run α} {guard : Option Guard} {trial : Trial α}
  {exchange : Option (Exchange α)}

theorem orderly_fail (run : Run α) (guard : Option Guard) (fault : Fault) :
    Orderly (run.fail guard fault).phase := by
  cases guard with
  | none => exact .ended
  | some guard => exact .restoring (Aftermath.orderly_fail fault)

theorem orderly_beginAttempt (run : Run α)
    (round : ∀ held, guard = some held → Round held.cycle held.attempts) :
    Orderly (run.beginAttempt guard).phase := by
  unfold beginAttempt
  split
  · exact .clearing round
  · split
    · exact .clearing round
    · exact orderly_fail run guard _

theorem orderly_decide {guard : Guard} {times : Nat} (round : Round guard.cycle times)
    (counted : guard.attempts = times + 1) (result : IterationResult α) :
    Orderly (run.decide guard result).phase := by
  obtain ⟨handle, cycle, attempts⟩ := guard
  cases judged : result.validation with
  | none =>
      simp only [decide, judged]
      exact orderly_fail run _ _
  | some outcome =>
      cases round with
      | first rank =>
          cases outcome with
          | consistent =>
              simp only [decide, judged]
              exact .ended
          | mismatch own other =>
              -- Only here is a step tried again, behind its first attempt.
              simp only [decide, judged]
              refine .restoring fun guard same => ?_
              obtain rfl := Aftermath.retry.inj same
              exact ⟨counted, rank, rfl⟩
      | second rank =>
          cases outcome with
          | consistent =>
              simp only [decide, judged]
              exact .ended
          | mismatch own other =>
              simp only [decide, judged]
              exact orderly_fail run _ _

theorem orderly_tried (round : ∀ held, trial.guard = some held →
      ∃ times, Round held.cycle times ∧ held.attempts = times + 1)
    (tried : Tried run trial exchange next) : Orderly next.phase := by
  cases tried with
  | finish =>
      cases guarded : trial.guard with
      | none => exact .ended
      | some guard =>
          obtain ⟨times, round, counted⟩ := round guard guarded
          exact orderly_decide round counted _
  | defer | pass | serve => exact .trying rfl round
  | take _ _ _ shown _ => exact .trying shown round
  | wait _ _ shown _ => exact .trying shown round
  | abort => exact orderly_fail _ _ _
  | collapse => exact .ended

theorem orderly_rollBackFailed (run : Run α) (after : Aftermath) (source : String) :
    Orderly (run.rollBackFailed after source).phase := by
  cases after <;> exact .ended

theorem orderly_discarded (run : Run α) {after : Aftermath} (orderly : after.Orderly)
    (answer : Except String Unit) : Orderly (run.discarded after answer).phase := by
  cases answer with
  | error source => exact orderly_rollBackFailed run after source
  | ok =>
      cases after with
      | fail fault => exact .ended
      | retry guard =>
          obtain ⟨counted, rank, cycle⟩ := orderly guard rfl
          obtain ⟨handle, _, attempts⟩ := guard
          subst cycle counted
          refine orderly_beginAttempt run fun held same => ?_
          obtain rfl := Option.some.inj same
          exact .second rank

end Run

theorem Orderly.stride {run next : Run α} {exchange : Option (Exchange α)}
    (orderly : Orderly run.phase) (stride : Stride run exchange next) : Orderly next.phase := by
  generalize phase : run.phase = current at orderly
  cases orderly with
  | snapshotting =>
      obtain ⟨_, rfl, ⟨answer⟩⟩ := stride.interlude phase rfl
      cases answer with
      | error source => exact .ended
      | ok handle =>
          refine Run.orderly_beginAttempt run fun held same => ?_
          obtain rfl := Option.some.inj same
          exact .first _
  | clearing round =>
      obtain ⟨_, rfl, ⟨⟩⟩ := stride.interlude phase rfl
      refine .trying rfl fun held same => ?_
      obtain ⟨old, rfl, rfl⟩ := Option.map_eq_some_iff.mp same
      exact ⟨old.attempts, round old rfl, rfl⟩
  | trying shown round => exact Run.orderly_tried round (Run.tried (phase ▸ shown) stride)
  | restoring orderly =>
      obtain ⟨_, rfl, interlude⟩ := stride.interlude phase rfl
      cases interlude with
      | restore answer =>
          cases answer with
          | error source => exact Run.orderly_rollBackFailed run _ source
          | ok => exact .discarding orderly
  | discarding orderly =>
      obtain ⟨_, rfl, interlude⟩ := stride.interlude phase rfl
      cases interlude with
      | discard answer => exact Run.orderly_discarded run orderly answer
  | ended => exact absurd stride (Stride.not_ended phase)

theorem Phase.begun_of_trial {phase : Phase α} {trial : Trial α}
    (shown : phase.trial? = some trial) : phase.begun = trial.retry + 1 := by
  cases phase with
  | snapshotting | clearing | restoring | discarding | ended => cases shown
  | _ =>
      obtain rfl := Option.some.inj shown
      rfl

namespace Run

variable {run next : Run α} {trial : Trial α} {exchange : Option (Exchange α)}

theorem begun_fail (run : Run α) (guard : Option Guard) (fault : Fault) :
    (run.fail guard fault).phase.begun = 2 := by
  cases guard <;> rfl

theorem le_begun_beginAttempt (run : Run α) (guard : Guard) (few : guard.attempts ≤ 2) :
    guard.attempts ≤ (run.beginAttempt (some guard)).phase.begun := by
  unfold beginAttempt
  split
  · exact Nat.le_refl _
  · split
    · exact Nat.le_refl _
    · rwa [begun_fail]

theorem le_begun_decide (run : Run α) {guard : Guard} (few : guard.attempts ≤ 2)
    (result : IterationResult α) : guard.attempts ≤ (run.decide guard result).phase.begun := by
  unfold decide
  split
  · rwa [begun_fail]
  · dsimp only
    split
    · rwa [begun_fail]
    · split
      · exact few
      · exact Nat.le_refl _
      · rwa [begun_fail]

theorem le_begun_tried (orderly : Orderly run.phase) (shown : run.phase.trial? = some trial)
    (tried : Tried run trial exchange next) : trial.retry + 1 ≤ next.phase.begun := by
  -- A run that gives up counts as having begun both attempts, and no attempt is beyond those.
  have few : trial.retry + 1 ≤ 2 := Nat.succ_le_succ (orderly.retry_le shown)
  cases tried with
  | finish =>
      cases guarded : trial.guard with
      | none => exact few
      | some guard =>
          obtain ⟨times, round, counted⟩ := orderly.round shown guarded
          have retry : trial.retry + 1 = guard.attempts := by
            simp only [Trial.retry, guarded, Option.map_some, Option.getD_some]
            omega
          rw [retry] at few ⊢
          exact le_begun_decide _ few _
  | defer | pass | serve => exact Nat.le_refl _
  | take _ _ _ known => exact Nat.le_of_eq (Phase.begun_of_trial known).symm
  | wait _ _ known => exact Nat.le_of_eq (Phase.begun_of_trial known).symm
  | abort =>
      rw [abort, begun_fail]
      exact few
  | collapse => exact few

end Run

/-- A run never takes back that it has begun an attempt. -/
theorem Stride.begun_le {run next : Run α} {exchange : Option (Exchange α)}
    (orderly : Orderly run.phase) (stride : Stride run exchange next) :
    run.phase.begun ≤ next.phase.begun := by
  cases shown : run.phase.trial? with
  | some trial =>
      rw [Phase.begun_of_trial shown]
      exact Run.le_begun_tried orderly shown (Run.tried shown stride)
  | none =>
      obtain ⟨made, rfl, interlude⟩ := stride.interlude rfl shown
      generalize run.phase = phase at orderly interlude
      cases interlude with
      | snapshot => exact Nat.zero_le _
      | @clear guard => cases guard <;> simp [Run.cleared, Phase.begun, Phase.trial?, Trial.retry]
      | @restore handle after answer =>
          cases after with
          | fail fault => cases answer <;> exact Nat.le_refl 2
          | retry guard =>
              have once := (orderly.restored guard rfl).1
              have few : guard.attempts ≤ 2 := by omega
              cases answer with
              | error source => exact few
              | ok => exact Nat.le_refl guard.attempts
      | @discard after answer =>
          cases after with
          | fail fault => cases answer <;> exact Nat.le_refl 2
          | retry guard =>
              have once := (orderly.discarded guard rfl).1
              have few : guard.attempts ≤ 2 := by omega
              cases answer with
              | error source => exact few
              | ok =>
                  simp only [Run.discarded]
                  split
                  · exact few
                  · next cycle _ =>
                    exact Run.le_begun_beginAttempt run { guard with cycle := cycle } few

end PipelineTraining
