import PipelineTraining.Proofs.Engine.GroupCalls
import PipelineTraining.Proofs.Engine.Safekeeping
import PipelineTraining.Proofs.Engine.Span

/-!
A guarded run that is answered well. Every attempt goes through the whole script and ends on
the verdict of the group, so the run commits, tries once more or reports a divergence.
-/

namespace PipelineTraining

variable {α : Type}

def Exchange.succeeds (exchange : Exchange α) : Bool :=
  !exchange.fails && !exchange.strays && !exchange.loses

namespace Phase

def tries : Phase α → Nat
  | .ended (.ok report) => report.attempts
  | phase => phase.begun

def verdicts : Phase α → List Bool
  | .ended (.ok report) => List.replicate (report.attempts - 1) false ++ [true]
  | phase => phase.trial?.elim (List.replicate phase.begun false) fun trial =>
      List.replicate trial.retry false ++
        (trial.attempt.validation.map Outcome.isConsistent).toList

variable {phase : Phase α} {trial : Trial α}

theorem tries_of_trial (shown : phase.trial? = some trial) : phase.tries = trial.retry + 1 := by
  rw [← begun_of_trial shown]
  unfold tries
  split
  · cases shown
  · rfl

theorem verdicts_of_trial (shown : phase.trial? = some trial) :
    phase.verdicts = List.replicate trial.retry false ++
      (trial.attempt.validation.map Outcome.isConsistent).toList := by
  unfold verdicts
  split
  · cases shown
  · rw [shown]
    rfl

end Phase

namespace Run

def done (run : Run α) (attempt : Nat) : List Operation :=
  if run.phase.tries ≤ attempt then []
  else if run.phase.tries = attempt + 1 then
    run.phase.trial?.elim run.worker.operations fun trial =>
      run.worker.operations.take trial.attempt.executed
  else run.worker.operations

variable {run next : Run α} {trial onward : Trial α} {attempt : Nat}

theorem done_ahead (ahead : run.phase.tries ≤ attempt) : run.done attempt = [] :=
  if_pos ahead

theorem done_before (past : attempt + 1 < run.phase.tries) :
    run.done attempt = run.worker.operations := by
  unfold done
  rw [if_neg (by omega), if_neg (by omega)]

theorem done_current (shown : run.phase.trial? = some trial) :
    run.done trial.retry = run.worker.operations.take trial.attempt.executed := by
  have tries := Phase.tries_of_trial shown
  unfold done
  rw [if_neg (by omega), if_pos tries, shown]
  rfl

theorem done_over (idle : run.phase.trial? = none) (past : attempt < run.phase.tries) :
    run.done attempt = run.worker.operations := by
  unfold done
  rw [if_neg (by omega), idle, Option.elim_none, ite_self]

theorem done_begins (run : Run α) (attempt : Nat) : run.done attempt <+: run.worker.operations := by
  unfold done
  split
  · exact List.nil_prefix
  · split
    · cases run.phase.trial? with
      | none => exact List.prefix_rfl
      | some trial => exact List.take_prefix _ _
    · exact List.prefix_rfl

theorem done_congr (idle : run.phase.trial? = none) (idleToo : next.phase.trial? = none)
    (tries : next.phase.tries = run.phase.tries)
    (operations : next.worker.operations = run.worker.operations) (attempt : Nat) :
    next.done attempt = run.done attempt := by
  unfold done
  rw [idle, idleToo, tries, operations]

theorem done_counted (shown : run.phase.trial? = some trial)
    (known : next.phase.trial? = some onward) (guarded : onward.guard = trial.guard)
    (executed : onward.attempt.executed = trial.attempt.executed)
    (operations : next.worker.operations = run.worker.operations) (attempt : Nat) :
    next.done attempt = run.done attempt := by
  have retry : onward.retry = trial.retry := by rw [Trial.retry, Trial.retry, guarded]
  unfold done
  rw [Phase.tries_of_trial shown, Phase.tries_of_trial known, shown, known, retry, operations,
    Option.elim_some, Option.elim_some, executed]

end Run

inductive Decided (guard : Guard) (times : Nat) (result : IterationResult α) :
    Bool → Phase α → Prop
  | commit {state : StepState} :
      Decided guard times result true (.ended (.ok ⟨guard.attempts, state, result⟩))
  | again {cycle : StepCycle} (first : times = 0) :
      Decided guard times result false
        (.restoring guard.handle (.retry { guard with cycle := cycle }))
  | diverge {own other : Fingerprint} (second : times = 1) :
      Decided guard times result false
        (.restoring guard.handle (.fail (.divergence own other 1)))

theorem Run.decided {guard : Guard} {times : Nat} {result : IterationResult α} {outcome : Outcome}
    (run : Run α) (round : Round guard.cycle times) (judged : result.validation = some outcome) :
    Decided guard times result outcome.isConsistent (run.decide guard result).phase := by
  obtain ⟨handle, cycle, attempts⟩ := guard
  cases round with
  | first rank =>
      cases outcome with
      | consistent =>
          simp only [decide, judged]
          exact .commit
      | mismatch own other =>
          simp only [decide, judged]
          exact .again rfl
  | second rank =>
      cases outcome with
      | consistent =>
          simp only [decide, judged]
          exact .commit
      | mismatch own other =>
          simp only [decide, judged]
          exact .diverge rfl

namespace Decided

variable {guard : Guard} {times : Nat} {result : IterationResult α} {verdict : Bool}
  {phase : Phase α}

theorem idle (decided : Decided guard times result verdict phase) : phase.trial? = none := by
  cases decided <;> rfl

theorem failure {run : Run α} {fault : Fault}
    (decided : Decided guard times result verdict run.phase) (failed : run.failure? = some fault) :
    ∃ own other, fault = .divergence own other 1 := by
  unfold Run.failure? at failed
  generalize run.phase = phase at decided failed
  cases decided with
  | commit | again => cases failed
  | diverge => exact ⟨_, _, (Option.some.inj failed).symm⟩

theorem tries (decided : Decided guard times result verdict phase)
    (counted : guard.attempts = times + 1) : phase.tries = times + 1 := by
  cases decided with
  | commit => exact counted
  | again => exact counted
  | diverge second => rw [second]; rfl

theorem verdicts (decided : Decided guard times result verdict phase)
    (counted : guard.attempts = times + 1) :
    phase.verdicts = List.replicate times false ++ [verdict] := by
  cases decided with
  | commit => simp [Phase.verdicts, counted]
  | again first =>
      subst first
      simp [Phase.verdicts, Phase.trial?, Phase.begun, counted]
  | diverge second =>
      subst second
      rfl

end Decided

inductive Pursued (run : Run α) (trial : Trial α) : Option (Exchange α) → Run α → Prop
  | on {exchange : Option (Exchange α)} {next : Run α} {onward : Trial α}
      (held : ∀ operation ∈ trial.hand, operation = .validationSync)
      (bare : ∀ made ∈ exchange, made.request.IsFor .validationSync)
      (shown : next.phase.trial? = some onward) (guarded : onward.guard = trial.guard)
      (executed : onward.attempt.executed = trial.attempt.executed)
      (validation : onward.attempt.validation = trial.attempt.validation)
      (ahead : onward.ahead.Perm trial.ahead) : Pursued run trial exchange next
  | serve {operation : Operation} {exchange : Option (Exchange α)} {next : Run α}
      {served : Attempt α} {limiter : Limiter} {executed : Nat}
      (held : trial.hand = some operation)
      (serves : Served run.worker.plan.layout run.worker.rank run.worker.limiter trial.attempt
        operation exchange limiter served)
      (counted : executed = trial.attempt.executed + 1)
      (phase : next.phase = .choosing trial.guard { served with executed := executed }) :
      Pursued run trial exchange next
  | finish {next : Run α} {guard : Guard} {times : Nat} {outcome : Outcome}
      (guarded : trial.guard = some guard) (counted : guard.attempts = times + 1)
      (whole : run.worker.operations.take trial.attempt.executed = run.worker.operations)
      (judged : trial.attempt.validation = some outcome)
      (decided : Decided guard times (run.result trial.attempt) outcome.isConsistent next.phase) :
      Pursued run trial none next

/-- A guarded run of a rank of a group with a mesh that has been answered well so far. -/
structure Vetted (plan : Plan) (rank : Nat) (script : List Operation) (run : Run α) : Prop where
  conduct : ∃ part, Conduct plan rank script part run
  enabled : run.worker.validator.isEnabled = true
  meshed : run.worker.validator.channel = some .mesh
  guarded : ∀ trial, run.phase.trial? = some trial → trial.guard.isSome = true
  cleared : ∀ guard, run.phase = .clearing guard → guard.isSome = true
  /-- The sync is ahead of an attempt until the attempt has its verdict. -/
  due : ∀ trial, run.phase.trial? = some trial →
    trial.ahead.count .validationSync + trial.attempt.validation.toList.length = 1
  diverged : ∀ fault, run.failure? = some fault → ∃ own other, fault = .divergence own other 1
  convened : run.phase.Convened run.worker

variable {run next : Run α} {trial : Trial α} {exchange : Option (Exchange α)} {plan : Plan}
  {rank : Nat} {script : List Operation} {part : List (Exchange α)}

theorem Picked.executed {ready : Operation → Bool} {attempt picked : Attempt α}
    {operation : Operation} (picks : Picked ready attempt operation picked) :
    picked.executed = attempt.executed := by
  rw [picks.same]

theorem Steady.parts {task : Task α} {limiter : Limiter} (steady : Steady task limiter trial) :
    ∃ behind after, task.script = behind ++ (trial.hand.toList ++ after) ∧
      trial.attempt.executed = behind.length ∧
      (trial.hand = none → trial.attempt.remaining = after) := by
  cases steady with
  | free standing => exact ⟨_, _, standing.script, standing.executed, fun _ => standing.remaining⟩
  | busy standing takes =>
      exact ⟨_, _, standing.script, (congrArg Attempt.executed takes.same).trans standing.executed,
        fun free => by cases free⟩

theorem Served.due {layout : Layout} {limiter after : Limiter} {operation : Operation}
    {served : Attempt α} (held : trial.hand = some operation)
    (serves : Served layout rank limiter trial.attempt operation exchange after served)
    (due : trial.ahead.count .validationSync + trial.attempt.validation.toList.length = 1) :
    (served.waiting ++ served.remaining).count .validationSync +
      served.validation.toList.length = 1 := by
  obtain ⟨waiting, remaining, _⟩ := serves.ahead
  rw [Trial.ahead, held, Option.toList_some, List.singleton_append, ← waiting, ← remaining] at due
  by_cases sync : operation = .validationSync
  · -- The sync was the one ahead, and brings the verdict.
    subst sync
    rw [List.count_cons_self] at due
    have others : (served.waiting ++ served.remaining).count .validationSync = 0 := by omega
    rw [others]
    cases serves with
    | sync | gather => rfl
  · rw [List.count_cons_of_ne sync, ← serves.marks.2 sync] at due
    exact due

namespace Vetted

/-- An attempt that comes to its end has its verdict: with nothing ahead the sync is behind. -/
theorem finished (vetted : Vetted plan rank script run) (shown : run.phase.trial? = some trial)
    (free : trial.hand = none) (waited : trial.attempt.waiting = [])
    (through : trial.attempt.remaining = []) :
    Pursued run trial none (run.finish trial.guard trial.attempt) := by
  obtain ⟨part, conduct⟩ := vetted.conduct
  obtain ⟨guard, guarded⟩ := Option.isSome_iff_exists.mp (vetted.guarded trial shown)
  obtain ⟨times, round, counted⟩ := conduct.orderly.round shown guarded
  obtain ⟨behind, after, split, executed, remaining⟩ :=
    (conduct.underway trial shown).steady.parts
  rw [free, Option.toList_none, List.nil_append, ← remaining free, through,
    List.append_nil] at split
  have whole : run.worker.operations.take trial.attempt.executed = run.worker.operations := by
    rw [conduct.fitted.scripted, executed]
    exact (congrArg (List.take _) split).trans (List.take_length.trans split.symm)
  have due := vetted.due trial shown
  rw [Trial.ahead, free, waited, through] at due
  cases judged : trial.attempt.validation with
  | none => simp [judged] at due
  | some outcome =>
      have decided : Decided guard times (run.result trial.attempt) outcome.isConsistent
          (run.finish (some guard) trial.attempt).phase :=
        Run.decided { run with worker := run.worker.flushed } round judged
      rw [guarded]
      exact .finish guarded counted whole judged decided

section
variable (playable : Playable plan rank script) (sound : plan.layout.Sound)
  (tagged : plan.layout.Tagged plan.microbatches)

include playable sound tagged

/-- An attempt that is answered well never breaks off. -/
theorem pursued (vetted : Vetted plan rank script run)
    (fine : ∀ made ∈ exchange, made.succeeds = true) (shown : run.phase.trial? = some trial)
    (stride : Stride run exchange next) : Pursued run trial exchange next := by
  obtain ⟨part, conduct⟩ := vetted.conduct
  have fitted := conduct.fitted
  have steady := (conduct.underway trial shown).steady
  have unheld (free : trial.hand = none) :
      ∀ operation ∈ trial.hand, operation = .validationSync := by
    intro operation held
    rw [free] at held
    cases held
  have unmade : ∀ made ∈ (none : Option (Exchange α)), made.request.IsFor .validationSync := by
    intro made known
    cases known
  cases Run.tried shown stride with
  | finish free waited through => exact vetted.finished shown free waited through
  | @defer operation rest free ahead _ =>
      refine .on (unheld free) unmade rfl rfl rfl rfl ?_
      simp [Trial.ahead, free, ahead]
  | take free picks takes known _ =>
      refine .on (unheld free) unmade known rfl ?_ ?_ (takes.ahead picks free)
      · exact (congrArg Attempt.executed takes.same).trans picks.executed
      · exact (congrArg Attempt.validation takes.same).trans picks.validation
  | pass _ _ silent =>
      rw [vetted.enabled] at silent
      cases silent
  | wait held asked known _ =>
      refine .on ?_ ?_ known rfl rfl rfl (List.Perm.refl _)
      · rw [held]
        rintro operation ⟨⟩
        rfl
      · rintro made ⟨⟩
        exact asked
  | serve held serves => exact .serve held serves (congrArg (· + 1) serves.executed) rfl
  | abort halted =>
      obtain ⟨made, rfl, failed⟩ := steady.halted playable tagged fitted halted
      have good := fine made rfl
      rcases failed with failed | ⟨strays, _⟩ <;> simp_all [Exchange.succeeds]
  | collapse _ unplaced =>
      rw [fitted.planned, Layout.places_of_sound sound] at unplaced
      cases unplaced

theorem conducted (vetted : Vetted plan rank script run) (stride : Stride run exchange next) :
    ∃ later, Conduct plan rank script later next := by
  obtain ⟨part, conduct⟩ := vetted.conduct
  by_cases same : run.underway? = next.underway?
  · exact ⟨_, conduct.stride playable sound tagged stride (fun _ => rfl)
      fun idle begun => by rw [← same, idle] at begun; cases begun⟩
  · exact ⟨[], conduct.stride playable sound tagged stride (fun other => absurd other same)
      fun _ _ => rfl⟩

-- Outside of the attempts there is little to keep.
theorem resting (vetted : Vetted plan rank script run) (stride : Stride run exchange next)
    (idle : next.phase.trial? = none)
    (cleared : ∀ guard, next.phase = .clearing guard → guard.isSome = true)
    (diverged : ∀ fault, next.failure? = some fault →
      ∃ own other, fault = .divergence own other 1) : Vetted plan rank script next where
  conduct := vetted.conducted playable sound tagged stride
  enabled := by rw [stride.kin.validator]; exact vetted.enabled
  meshed := by rw [stride.kin.validator]; exact vetted.meshed
  guarded := fun trial shown => by rw [idle] at shown; cases shown
  cleared := cleared
  due := fun trial shown => by rw [idle] at shown; cases shown
  diverged := diverged
  convened := .of_idle idle

theorem clearing {guard : Guard} (vetted : Vetted plan rank script run)
    (stride : Stride run exchange next) (same : next = run.become (.clearing (some guard))) :
    Vetted plan rank script next := by
  subst same
  exact vetted.resting playable sound tagged stride rfl (fun _ here => by cases here; rfl)
    fun _ failed => by cases failed

theorem trying {onward : Trial α} (vetted : Vetted plan rank script run)
    (stride : Stride run exchange next) (known : next.phase.trial? = some onward)
    (guarded : onward.guard.isSome = true)
    (due : onward.ahead.count .validationSync + onward.attempt.validation.toList.length = 1) :
    Vetted plan rank script next where
  conduct := vetted.conducted playable sound tagged stride
  enabled := by rw [stride.kin.validator]; exact vetted.enabled
  meshed := by rw [stride.kin.validator]; exact vetted.meshed
  guarded := fun trial shown => by
    obtain rfl := Option.some.inj (known.symm.trans shown)
    exact guarded
  cleared := fun guard here => by rw [here] at known; cases known
  due := fun trial shown => by
    obtain rfl := Option.some.inj (known.symm.trans shown)
    exact due
  diverged := fun fault failed => by rw [Run.failure?_of_trial known] at failed; cases failed
  convened := stride.convened vetted.convened

theorem stride_of_trial (vetted : Vetted plan rank script run)
    (fine : ∀ made ∈ exchange, made.succeeds = true) (shown : run.phase.trial? = some trial)
    (stride : Stride run exchange next) : Vetted plan rank script next := by
  have guarded := vetted.guarded trial shown
  have due := vetted.due trial shown
  cases vetted.pursued playable sound tagged fine shown stride with
  | on _ _ known same _ validation ahead =>
      refine vetted.trying playable sound tagged stride known (same ▸ guarded) ?_
      rw [ahead.count_eq, validation]
      exact due
  | serve held serves _ phase =>
      have one := serves.due held due
      exact vetted.trying playable sound tagged stride (congrArg Phase.trial? phase) guarded one
  | @finish _ _ _ outcome _ _ _ _ decided =>
      refine vetted.resting playable sound tagged stride decided.idle (fun guard here => ?_)
        fun fault => decided.failure
      generalize outcome.isConsistent = verdict at decided
      rw [here] at decided
      cases decided

theorem stride_of_idle (once : script.count .validationSync = 1)
    (vetted : Vetted plan rank script run) (fine : ∀ made ∈ exchange, made.succeeds = true)
    (idle : run.phase.trial? = none)
    (stride : Stride run exchange next) : Vetted plan rank script next := by
  obtain ⟨part, conduct⟩ := vetted.conduct
  have suited : Suited run.worker.plan run.inputs := conduct.fitted.planned.symm ▸ conduct.suited
  obtain ⟨made, rfl, interlude⟩ := stride.interlude rfl idle
  have good := fine made rfl
  have resting := vetted.resting playable sound tagged stride
  have orderly := conduct.orderly
  have cleared := vetted.cleared
  have diverged := vetted.diverged
  unfold Run.failure? at diverged
  generalize run.phase = phase at orderly cleared diverged interlude
  cases interlude with
  | snapshot answer =>
      cases answer with
      | error source => cases good
      | ok handle =>
          exact vetted.clearing playable sound tagged stride
            (Run.snapshotTaken_of_suited suited handle)
  | @clear guard =>
      obtain ⟨held, rfl⟩ := Option.isSome_iff_exists.mp (cleared guard rfl)
      refine vetted.trying playable sound tagged stride rfl rfl ?_
      simpa [Trial.ahead, Attempt.start, conduct.fitted.scripted] using once
  | @restore _ after answer =>
      cases answer with
      | error source => cases good
      | ok => cases after <;> exact resting rfl (fun _ here => by cases here) diverged
  | @discard after answer =>
      cases answer with
      | error source => cases good
      | ok =>
          cases after with
          | fail fault => exact resting rfl (fun _ here => by cases here) diverged
          | retry guard =>
              obtain ⟨_, rank, cycle⟩ := orderly.discarded guard rfl
              exact vetted.clearing playable sound tagged stride
                (Run.discarded_of_rolledBack suited cycle)

theorem stride (once : script.count .validationSync = 1)
    (vetted : Vetted plan rank script run) (fine : ∀ made ∈ exchange, made.succeeds = true)
    (stride : Stride run exchange next) : Vetted plan rank script next := by
  cases shown : run.phase.trial? with
  | some trial => exact vetted.stride_of_trial playable sound tagged fine shown stride
  | none => exact vetted.stride_of_idle playable sound tagged once fine shown stride

end

end Vetted

end PipelineTraining
