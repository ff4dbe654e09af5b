import PipelineTraining.Proofs.Engine.Dialogue
import PipelineTraining.Proofs.Engine.Rounds

/-!
A guarded run and the parameters of its rank. The optimizer and the roll-backs change
them; `Stage` lists where a guarded run can be and what it has made of them there, and
no turn leads out of it.
-/

namespace PipelineTraining

variable {α π : Type}

structure Parameters (π : Type) where
  current : π
  saved : Nat → Option π

namespace Parameters

/-- What an exchange does to the parameters. `change` stands for what the optimizer makes of them,
and for what a restore that fails leaves. -/
def step (change : π → π) (parameters : Parameters π) (exchange : Exchange α) : Parameters π :=
  match exchange.request, exchange.answer with
  | .optimize, _ => { parameters with current := change parameters.current }
  | .snapshot, .ok handle =>
      { parameters with
        saved := fun other =>
          if other = handle then some parameters.current else parameters.saved other }
  | .restore handle, .ok () =>
      { parameters with current := (parameters.saved handle).getD parameters.current }
  | .restore _, .error _ => { parameters with current := change parameters.current }
  | _, _ => parameters

/-- The parameters after a dialogue, with a change of its own at every place. -/
def after (change : Nat → π → π) (parameters : Parameters π) (log : List (Exchange α)) :
    Parameters π :=
  log.zipIdx.foldl (fun parameters entry => parameters.step (change entry.2) entry.1) parameters

theorem after_snoc (change : Nat → π → π) (parameters : Parameters π) (log : List (Exchange α))
    (exchange : Exchange α) : parameters.after change (log ++ [exchange]) =
      (parameters.after change log).step (change log.length) exchange := by
  simp [after, List.zipIdx_append, List.foldl_append]

end Parameters

namespace Exchange

def restores (exchange : Exchange α) : Bool :=
  match exchange.request with
  | .restore _ => true
  | _ => false

def discards (exchange : Exchange α) : Bool :=
  match exchange.request with
  | .discard => true
  | _ => false

end Exchange

namespace Request

variable {request : Request α} {operation : Operation}

theorem IsFor.plain (fits : request.IsFor operation) :
    request ≠ .snapshot ∧ (∀ handle, request ≠ .restore handle) ∧ request ≠ .discard ∧
      (request = .optimize → operation = .optimizerStep) := by
  cases request with
  | dropStale | snapshot | restore | discard => cases fits
  | optimize => exact ⟨by simp, by simp, by simp, fun _ => fits⟩
  | forward | backward | backwardWeights | send | receive | dropPublished | publish | collect
    | gather =>
      exact ⟨by simp, by simp, by simp, fun same => by cases same⟩

end Request

namespace Parameters

variable {change : π → π} {parameters : Parameters π} {exchange : Exchange α}

theorem step_saved (other : exchange.request ≠ .snapshot) :
    (parameters.step change exchange).saved = parameters.saved := by
  obtain ⟨request, answer⟩ := exchange
  cases request with
  | snapshot => exact absurd rfl other
  | restore handle => cases answer <;> rfl
  | forward | backward | backwardWeights | optimize | dropStale | send | receive | dropPublished
    | publish | collect | gather | discard => rfl

theorem step_current (unlike : exchange.request ≠ .optimize)
    (other : ∀ handle, exchange.request ≠ .restore handle) :
    (parameters.step change exchange).current = parameters.current := by
  obtain ⟨request, answer⟩ := exchange
  cases request with
  | optimize => exact absurd rfl unlike
  | restore handle => exact absurd rfl (other handle)
  | snapshot => cases answer <;> rfl
  | forward | backward | backwardWeights | dropStale | send | receive | dropPublished | publish
    | collect | gather | discard => rfl

end Parameters

structure Rolled (log : List (Exchange α)) (times : Nat) : Prop where
  restores : log.countP Exchange.restores = times
  discards : log.countP Exchange.discards = times

section
variable (change : Nat → π → π) (parameters : Parameters π) (log : List (Exchange α))

/-- The snapshot was the first exchange and no other was taken; its handle still stands for the
parameters as they were. -/
structure Held (handle : Nat) : Prop where
  opened : ∃ rest, log = ⟨.snapshot, .ok handle⟩ :: rest ∧
    ∀ later ∈ rest, later.request ≠ .snapshot
  saved : (parameters.after change log).saved handle = some parameters.current

def Intact : Prop :=
  (parameters.after change log).current = parameters.current

/-- An attempt with its optimizer step ahead of it or behind it. -/
inductive Marked (trial : Trial α) : Prop
  | ahead (unsigned : trial.attempt.fingerprint = none) (unjudged : trial.attempt.validation = none)
      (unsynced : trial.hand ≠ some .validationSync) (intact : Intact change parameters log)
      (once : trial.ahead.count .optimizerStep ≤ 1)
  | behind {place : Nat} {fingerprint : Fingerprint}
      (applied : log[place]? = some ⟨.optimize, .ok fingerprint⟩)
      (changed : (parameters.after change log).current = change place parameters.current)
      (none : trial.ahead.count .optimizerStep = 0)

/-- Where a guarded run is, and what its dialogue has made of the parameters. -/
inductive Stage : Phase α → Prop
  | fresh (silent : log = []) : Stage .snapshotting
  | refused {source : String} {fault : Fault} (only : log = [⟨.snapshot, .error source⟩]) :
      Stage (.ended (.error fault))
  | clearing {guard : Guard} (held : Held change parameters log guard.handle)
      (rolled : Rolled log guard.attempts) (intact : Intact change parameters log) :
      Stage (.clearing (some guard))
  | trying {phase : Phase α} {trial : Trial α} {guard : Guard} {times : Nat}
      (shown : phase.trial? = some trial) (guarded : trial.guard = some guard)
      (held : Held change parameters log guard.handle) (counted : guard.attempts = times + 1)
      (rolled : Rolled log times) (marked : Marked change parameters log trial) : Stage phase
  | retrying {guard : Guard} (held : Held change parameters log guard.handle)
      (rolled : Rolled log 0) : Stage (.restoring guard.handle (.retry guard))
  | failing {handle : Nat} {fault : Fault} (held : Held change parameters log handle) :
      Stage (.restoring handle (.fail fault))
  | restored {guard : Guard} (held : Held change parameters log guard.handle)
      (restores : log.countP Exchange.restores = 1) (discards : log.countP Exchange.discards = 0)
      (intact : Intact change parameters log)
      (last : ∃ before, log = before ++ [⟨.restore guard.handle, .ok ()⟩]) :
      Stage (.discarding (.retry guard))
  | dropping {handle : Nat} {fault : Fault} (held : Held change parameters log handle)
      (intact : Intact change parameters log)
      (last : ∃ before, log = before ++ [⟨.restore handle, .ok ()⟩]) :
      Stage (.discarding (.fail fault))
  | stranded {handle : Nat} {source : String} {fault : Fault}
      (held : Held change parameters log handle)
      (failed : ⟨.restore handle, .error source⟩ ∈ log) : Stage (.ended (.error fault))
  | failed {handle : Nat} {fault : Fault} (held : Held change parameters log handle)
      (intact : Intact change parameters log)
      (last : ∃ before answer, log = before ++ [⟨.restore handle, .ok ()⟩, ⟨.discard, answer⟩]) :
      Stage (.ended (.error fault))
  | committed {report : StepReport α} {handle times place : Nat} {fingerprint : Fingerprint}
      (held : Held change parameters log handle) (times_le : times ≤ 1)
      (counted : report.attempts = times + 1) (rolled : Rolled log times)
      (consistent : report.result.validation = some .consistent)
      (applied : log[place]? = some ⟨.optimize, .ok fingerprint⟩)
      (changed : (parameters.after change log).current = change place parameters.current) :
      Stage (.ended (.ok report))

end

variable {change : Nat → π → π} {parameters : Parameters π} {log : List (Exchange α)}
  {exchange : Exchange α} {run next : Run α} {guard : Guard} {handle times : Nat}

theorem Held.snoc (held : Held change parameters log handle)
    (other : exchange.request ≠ .snapshot) :
    Held change parameters (log ++ [exchange]) handle := by
  obtain ⟨rest, rfl, later⟩ := held.opened
  constructor
  · refine ⟨rest ++ [exchange], rfl, fun made member => ?_⟩
    rcases List.mem_append.mp member with old | new
    · exact later made old
    · rw [List.mem_singleton.mp new]
      exact other
  · rw [Parameters.after_snoc, Parameters.step_saved other]
    exact held.saved

/-- A restore brings the snapshot back. -/
theorem Held.intact (held : Held change parameters log handle) :
    Intact change parameters (log ++ [⟨.restore handle, .ok ()⟩]) := by
  rw [Intact, Parameters.after_snoc]
  simp only [Parameters.step, held.saved, Option.getD_some]

theorem Intact.snoc (intact : Intact change parameters log) (unlike : exchange.request ≠ .optimize)
    (other : ∀ handle, exchange.request ≠ .restore handle) :
    Intact change parameters (log ++ [exchange]) := by
  rw [Intact, Parameters.after_snoc, Parameters.step_current unlike other]
  exact intact

theorem Rolled.snoc (rolled : Rolled log times) (restores : exchange.restores = false)
    (discards : exchange.discards = false) : Rolled (log ++ [exchange]) times := by
  constructor
  · simp [restores, rolled.restores]
  · simp [discards, rolled.discards]

section asked

variable {asking : Option (Exchange α)} {trial : Trial α}

theorem Held.asked (held : Held change parameters log handle) (asked : trial.Asks asking) :
    Held change parameters (log ++ asking.toList) handle := by
  cases asking with
  | none => simpa using held
  | some exchange =>
      obtain ⟨_, _, fits⟩ := asked exchange rfl
      exact held.snoc fits.plain.1

theorem Rolled.asked (rolled : Rolled log times) (asked : trial.Asks asking) :
    Rolled (log ++ asking.toList) times := by
  cases asking with
  | none => simpa using rolled
  | some exchange =>
      obtain ⟨_, _, fits⟩ := asked exchange rfl
      obtain ⟨_, unrestored, undiscarded, _⟩ := fits.plain
      obtain ⟨request, answer⟩ := exchange
      refine rolled.snoc ?_ ?_
      · cases request <;> first | rfl | exact absurd rfl (unrestored _)
      · cases request <;> first | rfl | exact absurd rfl undiscarded

theorem after_asked (asked : trial.Asks asking) (other : trial.hand ≠ some .optimizerStep) :
    (parameters.after change (log ++ asking.toList)).current =
      (parameters.after change log).current := by
  cases asking with
  | none => simp
  | some exchange =>
      obtain ⟨operation, held, fits⟩ := asked exchange rfl
      obtain ⟨_, unrestored, _, optimizes⟩ := fits.plain
      rw [Option.toList_some, Parameters.after_snoc]
      exact Parameters.step_current
        (fun same => other (held.trans (congrArg some (optimizes same)))) unrestored

theorem Marked.kept {next : Trial α} (marked : Marked change parameters log trial)
    (asked : trial.Asks asking) (other : trial.hand ≠ some .optimizerStep)
    (fingerprint : next.attempt.fingerprint = trial.attempt.fingerprint)
    (validation : trial.attempt.fingerprint = none → trial.hand ≠ some .validationSync →
      next.attempt.validation = trial.attempt.validation)
    (unsynced : trial.attempt.fingerprint = none → trial.hand ≠ some .validationSync →
      next.hand ≠ some .validationSync)
    (fewer : next.ahead.count .optimizerStep ≤ trial.ahead.count .optimizerStep) :
    Marked change parameters (log ++ asking.toList) next := by
  have same : (parameters.after change (log ++ asking.toList)).current =
      (parameters.after change log).current := after_asked asked other
  cases marked with
  | ahead unsigned unjudged unsyncedBefore intact once =>
      exact .ahead (fingerprint.trans unsigned)
        ((validation unsigned unsyncedBefore).trans unjudged)
        (unsynced unsigned unsyncedBefore) (same.trans intact) (Nat.le_trans fewer once)
  | behind applied changed none =>
      have kept : (log ++ asking.toList)[_]? = _ :=
        (List.getElem?_append_left (List.getElem?_eq_some_iff.mp applied).1).trans applied
      exact .behind kept (same.trans changed) (by omega)

theorem Marked.served {layout : Layout} {rank : Nat} {operation : Operation}
    {limiter after : Limiter} {attempt : Attempt α} {executed : Nat}
    (marked : Marked change parameters log trial) (handed : trial.hand = some operation)
    (served : Served layout rank limiter trial.attempt operation asking after attempt) :
    Marked change parameters (log ++ asking.toList)
      ⟨trial.guard, { attempt with executed := executed }, none⟩ := by
  obtain ⟨waiting, remaining, _⟩ := served.ahead
  have fewer : trial.ahead = operation :: (Trial.ahead ⟨trial.guard, attempt, none⟩) := by
    simp [Trial.ahead, handed, waiting, remaining]
  have counts := congrArg (List.count Operation.optimizerStep) fewer
  -- Only the optimizer step moves the mark. It was the one step ahead, so none is left behind it.
  by_cases optimizes : operation = .optimizerStep
  · subst optimizes
    rw [List.count_cons_self] at counts
    cases marked with
    | ahead _ _ _ intact once =>
        have none : (Trial.ahead ⟨trial.guard, attempt, none⟩).count .optimizerStep = 0 := by omega
        cases served with
        | @optimizer fingerprint =>
            have changed : (parameters.after change
                (log ++ [⟨.optimize, .ok fingerprint⟩])).current =
                  change log.length parameters.current := by
              rw [Parameters.after_snoc]
              exact congrArg (change log.length) intact
            exact .behind List.getElem?_concat_length changed none
    | behind _ _ none =>
        rw [none] at counts
        cases counts
  · rw [List.count_cons_of_ne optimizes] at counts
    have other : trial.hand ≠ some .optimizerStep := by
      rw [handed]
      exact fun same => optimizes (Option.some.inj same)
    refine marked.kept (served.asks handed) other (served.marks.1 optimizes) (fun _ unsynced => ?_)
      (by simp) (Nat.le_of_eq counts.symm)
    exact served.marks.2 fun same => unsynced (handed.trans (congrArg some same))

end asked

namespace Picked

variable {attempt picked : Attempt α} {operation : Operation} {plan : Plan} {rank : Nat}
  {limiter : Limiter}

theorem fingerprint {ready : Operation → Bool} (picks : Picked ready attempt operation picked) :
    picked.fingerprint = attempt.fingerprint := by
  rw [picks.same]

theorem validation {ready : Operation → Bool} (picks : Picked ready attempt operation picked) :
    picked.validation = attempt.validation := by
  rw [picks.same]

/-- A sync is not taken up before the optimizer has left its fingerprint. -/
theorem unsynced (picks : Picked (attempt.isReady plan rank limiter) attempt operation picked)
    (unsigned : attempt.fingerprint = none) : operation ≠ .validationSync := by
  rintro rfl
  have ready := picks.time
  simp [Attempt.isReady, unsigned] at ready

end Picked

namespace Run

theorem stage_fail (held : Held change parameters log guard.handle) (fault : Fault) :
    Stage change parameters log (run.fail (some guard) fault).phase :=
  .failing held

theorem stage_beginAttempt (held : Held change parameters log guard.handle)
    (rolled : Rolled log guard.attempts) (intact : Intact change parameters log) :
    Stage change parameters log (run.beginAttempt (some guard)).phase := by
  unfold beginAttempt
  split
  · exact .clearing held rolled intact
  · split
    · exact .clearing held rolled intact
    · exact stage_fail held _

theorem stage_decide {result : IterationResult α} {trial : Trial α}
    (held : Held change parameters log guard.handle) (round : Round guard.cycle times)
    (counted : guard.attempts = times + 1) (rolled : Rolled log times)
    (marked : Marked change parameters log trial)
    (validation : result.validation = trial.attempt.validation) :
    Stage change parameters log (run.decide guard result).phase := by
  obtain ⟨handle, cycle, attempts⟩ := guard
  cases judged : result.validation with
  | none =>
      simp only [decide, judged]
      exact stage_fail held _
  | some outcome =>
      cases marked with
      | ahead _ unjudged =>
          -- There is no verdict before the optimizer step.
          rw [← validation, judged] at unjudged
          cases unjudged
      | behind applied changed _ =>
          cases round with
          | first rank =>
              cases outcome with
              | consistent =>
                  simp only [decide, judged]
                  exact .committed held (Nat.zero_le _) counted rolled judged applied changed
              | mismatch own other =>
                  let rolledBack : Guard := ⟨handle, ⟨rank, .rolledBack, 0⟩, attempts⟩
                  have back : Held change parameters log rolledBack.handle := held
                  simp only [decide, judged]
                  exact .retrying back rolled
          | second rank =>
              cases outcome with
              | consistent =>
                  simp only [decide, judged]
                  exact .committed held (Nat.le_refl _) counted rolled judged applied changed
              | mismatch own other =>
                  simp only [decide, judged]
                  exact stage_fail held _

variable {asking : Option (Exchange α)} {trial : Trial α}

theorem stage_tried (placed : run.worker.plan.layout.places = true)
    (guarded : trial.guard = some guard) (held : Held change parameters log guard.handle)
    (round : Round guard.cycle times) (counted : guard.attempts = times + 1)
    (rolled : Rolled log times) (marked : Marked change parameters log trial)
    (tried : Tried run trial asking next) :
    Stage change parameters (log ++ asking.toList) next.phase := by
  cases tried with
  | finish free waited through =>
      rw [Option.toList_none, List.append_nil, guarded]
      exact stage_decide held round counted rolled marked rfl
  | @defer operation rest free ahead =>
      refine .trying rfl guarded (held.asked trial.asks_none) counted
        (rolled.asked trial.asks_none)
        (marked.kept trial.asks_none (by simp [free]) rfl (fun _ _ => rfl) (by simp) ?_)
      simp [Trial.ahead, free, ahead]
  | @take operation picked taken _ _ free picks takes shown _ =>
      refine .trying shown guarded (held.asked trial.asks_none) counted
        (rolled.asked trial.asks_none)
        (marked.kept trial.asks_none (by simp [free])
          ((congrArg Attempt.fingerprint takes.same).trans picks.fingerprint)
          (fun _ _ => (congrArg Attempt.validation takes.same).trans picks.validation)
          (fun unsigned _ same => picks.unsynced unsigned (Option.some.inj same)) ?_)
      exact Nat.le_of_eq (List.Perm.count_eq (takes.ahead picks free) _)
  | @pass picked free picks silent =>
      have fewer := List.Perm.count_eq picks.ahead Operation.optimizerStep
      refine .trying rfl guarded (held.asked trial.asks_none) counted
        (rolled.asked trial.asks_none)
        (marked.kept trial.asks_none (by simp [free]) picks.fingerprint
          (fun unsigned _ => absurd rfl (picks.unsynced unsigned)) (by simp) ?_)
      simp [Trial.ahead, free] at fewer ⊢
      omega
  | @wait exchange phase handed asked shown _ =>
      have asks : trial.Asks (some exchange) := by
        rintro made ⟨⟩
        exact ⟨_, handed, asked⟩
      exact .trying shown guarded (held.asked asks) counted (rolled.asked asks)
        (marked.kept asks (by simp [handed]) rfl (fun _ _ => rfl)
          (fun _ unsynced => unsynced) (Nat.le_refl _))
  | @serve operation exchange attempt limiter handed served =>
      have asks := served.asks handed
      refine .trying rfl guarded (held.asked asks) counted (rolled.asked asks) ?_
      exact marked.served handed served
  | abort halted =>
      have still := held.asked halted.asks
      rw [guarded]
      exact .failing still
  | collapse _ unplaced =>
      rw [placed] at unplaced
      cases unplaced

end Run

variable {asking : Option (Exchange α)}

/-- Whatever a turn of a guarded run does and is answered, the run stays in one of the stages. -/
theorem Stage.stride (placed : run.worker.plan.layout.places = true)
    (once : run.worker.operations.count .optimizerStep ≤ 1) (orderly : Orderly run.phase)
    (stage : Stage change parameters log run.phase) (stride : Stride run asking next) :
    Stage change parameters (log ++ asking.toList) next.phase := by
  generalize phase : run.phase = current at stage orderly
  cases stage with
  | fresh silent =>
      subst silent
      obtain ⟨_, rfl, ⟨answer⟩⟩ := stride.interlude phase rfl
      cases answer with
      | error source => exact .refused rfl
      | ok handle =>
          have held : Held change parameters [(⟨.snapshot, .ok handle⟩ : Exchange α)] handle :=
            ⟨⟨[], rfl, fun _ member => by cases member⟩, if_pos rfl⟩
          exact Run.stage_beginAttempt held ⟨rfl, rfl⟩ rfl
  | clearing held rolled intact =>
      obtain ⟨_, rfl, ⟨⟩⟩ := stride.interlude phase rfl
      refine .trying rfl rfl (held.snoc (by simp)) rfl (rolled.snoc rfl rfl) ?_
      refine .ahead rfl rfl (by simp) (intact.snoc (by simp) (by simp)) ?_
      simpa [Trial.ahead, Attempt.start] using once
  | @trying _ trial guard times shown guarded held counted rolled marked =>
      -- The phase and the stage both count the attempts, and agree.
      obtain ⟨attempts, round, made⟩ := orderly.round shown guarded
      obtain rfl : attempts = times := by omega
      have tried := Run.tried (phase ▸ shown) stride
      exact Run.stage_tried placed guarded held round counted rolled marked tried
  | @retrying guard held rolled =>
      obtain ⟨_, rfl, interlude⟩ := stride.interlude phase rfl
      cases interlude with
      | restore answer =>
          cases answer with
          | error source =>
              exact .stranded (held.snoc (by simp)) (List.mem_append_right _ List.mem_cons_self)
          | ok =>
              refine .restored (held.snoc (by simp)) ?_ ?_ held.intact ⟨log, rfl⟩
              · simp [Exchange.restores, rolled.restores]
              · simp [Exchange.discards, rolled.discards]
  | failing held =>
      obtain ⟨_, rfl, interlude⟩ := stride.interlude phase rfl
      cases interlude with
      | restore answer =>
          cases answer with
          | error source =>
              exact .stranded (held.snoc (by simp)) (List.mem_append_right _ List.mem_cons_self)
          | ok => exact .dropping (held.snoc (by simp)) held.intact ⟨log, rfl⟩
  | @restored guard held restores discards intact last =>
      obtain ⟨before, rfl⟩ := last
      obtain ⟨_, rfl, interlude⟩ := stride.interlude phase rfl
      cases interlude with
      | discard answer =>
          cases answer with
          | error source =>
              exact .failed (held.snoc (by simp)) (intact.snoc (by simp) (by simp))
                ⟨before, .error source, by simp⟩
          | ok =>
              obtain ⟨counted, rank, cycle⟩ := orderly.discarded guard rfl
              obtain ⟨handle, _, _⟩ := guard
              subst cycle counted
              refine Run.stage_beginAttempt (held.snoc (by simp)) ⟨?_, ?_⟩
                (intact.snoc (by simp) (by simp))
              · rw [List.countP_append, restores]
                rfl
              · rw [List.countP_append, discards]
                rfl
  | dropping held intact last =>
      obtain ⟨before, rfl⟩ := last
      obtain ⟨_, rfl, interlude⟩ := stride.interlude phase rfl
      cases interlude with
      | discard answer =>
          cases answer with
          | error source =>
              exact .failed (held.snoc (by simp)) (intact.snoc (by simp) (by simp))
                ⟨before, .error source, by simp⟩
          | ok =>
              exact .failed (held.snoc (by simp)) (intact.snoc (by simp) (by simp))
                ⟨before, .ok (), by simp⟩
  | refused | stranded | failed | committed => exact absurd stride (Stride.not_ended phase)

end PipelineTraining
