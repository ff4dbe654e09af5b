import PipelineTraining.Proofs.Engine.Verdicts
import PipelineTraining.Proofs.Validation.Gathering

/-!
What every turn of a guarded run adds to what the run has done in its attempts and to what
it has heard from the group, and what it does on the two meshes meanwhile.
-/

namespace PipelineTraining

variable {α β : Type}

inductive Errand (β : Type) where
  | drop (epoch : UInt32)
  | send (peer : Nat) (tag : Tag) (payload : β) (answer : Except DeliveryFault Unit)
  | receive (peer : Nat) (tag : Tag) (answer : Except DeliveryFault β)

namespace Exchange

def carried? : Exchange α → Option (Errand α)
  | ⟨.dropStale epoch, _⟩ => some (.drop epoch)
  | ⟨.send peer tag payload, answer⟩ => some (.send peer tag payload answer)
  | ⟨.receive peer tag, answer⟩ => some (.receive peer tag answer)
  | _ => none

def posted? : Exchange α → Option (Errand StageFingerprint)
  | ⟨.dropPublished epoch, _⟩ => some (.drop epoch)
  | ⟨.publish peer tag entry, answer⟩ => some (.send peer tag entry answer)
  | ⟨.collect peer tag, answer⟩ => some (.receive peer tag answer)
  | _ => none

def opens : Exchange α → Bool
  | ⟨.dropStale _, _⟩ => true
  | _ => false

theorem opens_of_apart {made : Exchange α} (apart : made.carried? = none) : made.opens = false := by
  obtain ⟨request, answer⟩ := made
  cases request with
  | dropStale => cases apart
  | _ => rfl

end Exchange

variable {run next : Run α} {trial : Trial α} {exchange : Option (Exchange α)} {plan : Plan}
  {rank : Nat} {script : List Operation}

/-- A turn that executes an operation in an attempt, and nothing else. -/
def Run.Adds (run next : Run α) (attempt : Nat) (operation : Operation) : Prop :=
  ∀ other, next.done other = run.done other ++ if other = attempt then [operation] else []

inductive Worked (run : Run α) : Option (Errand α) → Run α → Prop
  | rest {next : Run α} (same : ∀ attempt, next.done attempt = run.done attempt) :
      Worked run none next
  /-- An attempt begins. All attempts before it are over. -/
  | opened {next : Run α} {attempt : Nat} (few : attempt ≤ 1)
      (through : ∀ earlier < attempt, run.done earlier = run.worker.operations)
      (same : ∀ attempt, next.done attempt = run.done attempt) :
      Worked run (some (.drop (attemptEpoch run.iteration attempt))) next
  | passed {next : Run α} {attempt : Nat} {operation : Operation} (few : attempt ≤ 1)
      (plain : operation.isTransfer = false) (adds : run.Adds next attempt operation) :
      Worked run none next
  | sent {next : Run α} {attempt peer : Nat} {transfer : Transfer} {tag : Tag} {payload : α}
      (few : attempt ≤ 1) (tagged : transfer.tag run.worker.plan.microbatches
        (attemptEpoch run.iteration attempt) = .ok tag)
      (adds : run.Adds next attempt (.send peer transfer)) :
      Worked run (some (.send peer tag payload (.ok ()))) next
  | received {next : Run α} {attempt peer : Nat} {transfer : Transfer} {tag : Tag} {payload : α}
      (few : attempt ≤ 1) (tagged : transfer.tag run.worker.plan.microbatches
        (attemptEpoch run.iteration attempt) = .ok tag)
      (adds : run.Adds next attempt (.receive peer transfer)) :
      Worked run (some (.receive peer tag (.ok payload))) next

inductive Called (run : Run α) : Option (Errand StageFingerprint) → Run α → Prop
  | apart {next : Run α} (idle : run.phase.call = .idle) (still : next.phase.call = .idle)
      (same : next.phase.verdicts = run.phase.verdicts) : Called run none next
  | began {next : Run α} {fingerprint : Fingerprint} (idle : run.phase.call = .idle)
      (few : run.phase.verdicts.length ≤ 1)
      (opened : next.phase.call = .opened
        (attemptEpoch run.iteration run.phase.verdicts.length)
        (run.worker.validator.publish fingerprint))
      (same : next.phase.verdicts = run.phase.verdicts) : Called run none next
  | dropped {next : Run α} {epoch : UInt32} {own : StageFingerprint}
      (opened : run.phase.call = .opened epoch own)
      (going : next.phase.call =
        .going (.start run.worker.seat.member run.worker.seat.members epoch own))
      (same : next.phase.verdicts = run.phase.verdicts) : Called run (some (.drop epoch)) next
  | published {next : Run α} {gather : Gather} {peer : Nat}
      (going : run.phase.call = .going gather) (asks : gather.move = .publish peer)
      (onward : next.phase.call = .going gather.published)
      (same : next.phase.verdicts = run.phase.verdicts) :
      Called run (some (.send peer gather.tag gather.own (.ok ()))) next
  | collected {next : Run α} {gather : Gather} {peer : Nat} {entry : StageFingerprint}
      (going : run.phase.call = .going gather) (asks : gather.move = .collect peer)
      (onward : next.phase.call = .going (gather.collected entry))
      (same : next.phase.verdicts = run.phase.verdicts) :
      Called run (some (.receive peer gather.tag (.ok entry))) next
  | returned {next : Run α} {gather : Gather} (going : run.phase.call = .going gather)
      (asks : gather.move = .finish) (idle : next.phase.call = .idle)
      (heard : next.phase.verdicts = run.phase.verdicts ++
        [(run.worker.validator.judge gather.result).isConsistent]) : Called run none next

/-- What an operation asks for a sync leaves the mesh of payloads alone. -/
theorem Request.IsFor.carried {request : Request α} {answer : request.Answer}
    (fits : request.IsFor .validationSync) : Exchange.carried? ⟨request, answer⟩ = none := by
  cases request with
  | send | receive =>
      obtain ⟨_, same⟩ := fits
      cases same
  | dropStale => cases fits
  | _ => rfl

namespace Trial

theorem retry_congr {onward : Trial α} (guarded : onward.guard = trial.guard) :
    onward.retry = trial.retry := by
  rw [retry, retry, guarded]

end Trial

namespace Run

theorem done_cleared {guard : Guard} (phase : run.phase = .clearing (some guard)) :
    (∀ earlier < guard.attempts, run.done earlier = run.worker.operations) ∧
      ∀ attempt, (run.cleared (some guard)).done attempt = run.done attempt := by
  have tries : run.phase.tries = guard.attempts := by rw [phase]; rfl
  have idle : run.phase.trial? = none := by rw [phase]; rfl
  have through : ∀ earlier < guard.attempts, run.done earlier = run.worker.operations :=
    fun earlier less => done_over idle (tries ▸ less)
  refine ⟨through, fun attempt => ?_⟩
  have begun : (run.cleared (some guard)).phase.tries = guard.attempts + 1 := rfl
  rcases Nat.lt_trichotomy attempt guard.attempts with before | rfl | after
  · rw [through attempt before, done_before (begun ▸ Nat.succ_lt_succ before)]
    rfl
  · rw [done_ahead (Nat.le_of_eq tries)]
    have shown : (run.cleared (some guard)).phase.trial? =
        some ⟨some { guard with attempts := guard.attempts + 1 },
          .start (run.epoch (some guard)) run.attemptInputs run.worker.operations, none⟩ := rfl
    exact (done_current shown).trans List.take_zero
  · rw [done_ahead (tries.trans_le (Nat.le_of_lt after)), done_ahead (begun.trans_le after)]

theorem adds_of_counted {onward : Trial α} {operation : Operation} {behind after : List Operation}
    (shown : run.phase.trial? = some trial) (known : next.phase.trial? = some onward)
    (guarded : onward.guard = trial.guard)
    (operations : next.worker.operations = run.worker.operations)
    (split : run.worker.operations = behind ++ operation :: after)
    (executed : trial.attempt.executed = behind.length)
    (counted : onward.attempt.executed = trial.attempt.executed + 1) :
    run.Adds next trial.retry operation := by
  intro other
  have retry := Trial.retry_congr guarded
  by_cases here : other = trial.retry
  · subst here
    rw [if_pos rfl, done_current shown, ← retry, done_current known, operations, counted, executed,
      split, List.take_left, ← List.singleton_append, ← List.append_assoc, List.take_left']
    rw [List.length_append, List.length_singleton]
  · have apart : ¬ trial.retry + 1 = other + 1 := by omega
    rw [if_neg here, List.append_nil]
    unfold done
    rw [Phase.tries_of_trial shown, Phase.tries_of_trial known, retry, operations, if_neg apart,
      if_neg apart]

/-- An attempt that is over has executed its whole script. -/
theorem done_finished (shown : run.phase.trial? = some trial) (idle : next.phase.trial? = none)
    (tries : next.phase.tries = run.phase.tries)
    (operations : next.worker.operations = run.worker.operations)
    (whole : run.worker.operations.take trial.attempt.executed = run.worker.operations)
    (attempt : Nat) : next.done attempt = run.done attempt := by
  unfold done
  rw [shown, idle, tries, operations, Option.elim_some, Option.elim_none, whole]

end Run

theorem Run.call_of_publish {peer : Nat} {tag : Tag} {entry : StageFingerprint}
    {resume : (Request.publish (α := α) peer tag entry).Answer → Run α}
    (turn : run.turn = .ask (.publish peer tag entry) resume) :
    ∃ gather, run.phase.call = .going gather ∧ gather.move = .publish peer := by
  cases phase : run.phase with
  | gathering guard attempt gather =>
      cases move : gather.move <;> simp only [Run.turn, phase, move] at turn <;> cases turn
      exact ⟨gather, rfl, move⟩
  | _ =>
      simp only [Run.turn, phase] at turn
      cases turn

theorem Run.call_of_collect {peer : Nat} {tag : Tag}
    {resume : (Request.collect (α := α) peer tag).Answer → Run α}
    (turn : run.turn = .ask (.collect peer tag) resume) :
    ∃ gather, run.phase.call = .going gather ∧ gather.move = .collect peer ∧ tag = gather.tag := by
  cases phase : run.phase with
  | gathering guard attempt gather =>
      cases move : gather.move <;> simp only [Run.turn, phase, move] at turn <;> cases turn
      exact ⟨gather, rfl, move, rfl⟩
  | _ =>
      simp only [Run.turn, phase] at turn
      cases turn

theorem Phase.call_of_idle {phase : Phase α} (idle : phase.trial? = none) :
    phase.call = .idle := by
  cases phase <;> first | rfl | cases idle

namespace Pursued

theorem tries (pursued : Pursued run trial exchange next) (shown : run.phase.trial? = some trial) :
    next.phase.tries = run.phase.tries := by
  have tries := Phase.tries_of_trial shown
  cases pursued with
  | on _ _ known guarded => rw [Phase.tries_of_trial known, tries, Trial.retry_congr guarded]
  | serve _ _ _ phase => rw [phase, tries]; rfl
  | finish guarded counted _ _ decided =>
      rw [decided.tries counted, tries, Trial.retry, guarded, Option.map_some, Option.getD_some]
      omega

/-- A run hears a verdict at its sync and nowhere else. -/
theorem verdicts (pursued : Pursued run trial exchange next)
    (shown : run.phase.trial? = some trial)
    (unsynced : trial.hand = some .validationSync →
      (exchange.bind Exchange.posted?).isSome = true) :
    next.phase.verdicts = run.phase.verdicts := by
  have verdicts := Phase.verdicts_of_trial shown
  cases pursued with
  | on _ _ known guarded _ validation =>
      rw [Phase.verdicts_of_trial known, verdicts, Trial.retry_congr guarded, validation]
  | @serve operation _ _ served _ executed held serves _ phase =>
      have unsynced : operation ≠ .validationSync := by
        rintro rfl
        cases serves with
        | sync | gather => cases unsynced held
      rw [phase, verdicts, ← serves.marks.2 unsynced]
      rfl
  | @finish _ guard times _ guarded counted _ judged decided =>
      have retry : trial.retry = times := by
        rw [Trial.retry, guarded, Option.map_some, Option.getD_some, counted, Nat.add_sub_cancel]
      rw [decided.verdicts counted, verdicts, judged, retry]
      rfl

end Pursued

theorem Orderly.cleared {phase : Phase α} {guard : Guard} (orderly : Orderly phase)
    (here : phase = .clearing (some guard)) : Round guard.cycle guard.attempts := by
  subst here
  cases orderly with
  | clearing round => exact round guard rfl
  | trying shown => cases shown

theorem Labelling.tagged {operation : Operation} {transfer : Transfer} {tag : Tag}
    (labelling : Labelling plan script run operation transfer tag)
    (planned : run.worker.plan = plan) (shown : run.phase.trial? = some trial) :
    trial.hand = some operation ∧ transfer.tag run.worker.plan.microbatches
      (attemptEpoch run.iteration trial.retry) = .ok tag := by
  obtain ⟨hand, _, retry, _, underway, tagged⟩ := labelling
  rw [Run.inHand?, shown] at hand
  rw [Run.underway?, shown] at underway
  obtain ⟨-, rfl⟩ := Prod.mk.inj (Option.some.inj underway)
  rw [planned]
  exact ⟨hand, tagged⟩

namespace Vetted

/-- With the sync still in hand there is no verdict on the attempt yet. -/
theorem unjudged (vetted : Vetted plan rank script run) (shown : run.phase.trial? = some trial)
    (held : trial.hand = some .validationSync) : trial.attempt.validation = none := by
  have due := vetted.due trial shown
  cases judged : trial.attempt.validation with
  | none => rfl
  | some outcome => simp [Trial.ahead, held, judged] at due

/-- Between attempts a run neither executes nor hears anything. It only begins the next one. -/
theorem between (vetted : Vetted plan rank script run)
    (fine : ∀ made ∈ exchange, made.succeeds = true) (idle : run.phase.trial? = none)
    (stride : Stride run exchange next) :
    next.phase.verdicts = run.phase.verdicts ∧ exchange.bind Exchange.posted? = none ∧
      ((next.phase.trial? = none ∧ next.phase.tries = run.phase.tries ∧
          exchange.bind Exchange.carried? = none) ∨
        ∃ guard, run.phase = .clearing (some guard) ∧ next = run.cleared (some guard) ∧
          exchange = some ⟨.dropStale (run.epoch (some guard)), ()⟩) := by
  obtain ⟨part, conduct⟩ := vetted.conduct
  have suited : Suited run.worker.plan run.inputs := conduct.fitted.planned.symm ▸ conduct.suited
  obtain ⟨made, rfl, interlude⟩ := stride.interlude rfl idle
  have good := fine made rfl
  have orderly := conduct.orderly
  have cleared := vetted.cleared
  generalize run.phase = phase at orderly cleared interlude
  cases interlude with
  | snapshot answer =>
      cases answer with
      | error source => cases good
      | ok handle =>
          rw [Run.snapshotTaken_of_suited suited]
          exact ⟨rfl, rfl, Or.inl ⟨rfl, rfl, rfl⟩⟩
  | @clear guard =>
      obtain ⟨held, rfl⟩ := Option.isSome_iff_exists.mp (cleared guard rfl)
      refine ⟨?_, rfl, Or.inr ⟨held, rfl, rfl, rfl⟩⟩
      simp [Phase.verdicts, Run.cleared, Phase.trial?, Phase.begun, Trial.retry, Attempt.start]
  | @restore _ after answer =>
      cases answer with
      | error source => cases good
      | ok => cases after <;> exact ⟨rfl, rfl, Or.inl ⟨rfl, rfl, rfl⟩⟩
  | @discard after answer =>
      cases answer with
      | error source => cases good
      | ok =>
          cases after with
          | fail fault => exact ⟨rfl, rfl, Or.inl ⟨rfl, rfl, rfl⟩⟩
          | retry guard =>
              obtain ⟨_, rank, cycle⟩ := orderly.discarded guard rfl
              rw [Run.discarded_of_rolledBack suited cycle]
              exact ⟨rfl, rfl, Or.inl ⟨rfl, rfl, rfl⟩⟩

theorem asking {epoch : UInt32} (vetted : Vetted plan rank script run)
    (calling : ∃ own, run.phase.call = .opened epoch own ∨
      ∃ gather, run.phase.call = .going gather ∧ gather.epoch = epoch) :
    ∃ trial, run.phase.trial? = some trial ∧ trial.hand = some .validationSync ∧
      trial.attempt.validation = none ∧ epoch = attemptEpoch run.iteration trial.retry := by
  obtain ⟨part, conduct⟩ := vetted.conduct
  have convened := vetted.convened
  obtain ⟨guard, attempt, shown, same⟩ : ∃ guard attempt,
      run.phase.trial? = some ⟨guard, attempt, some .validationSync⟩ ∧ epoch = attempt.epoch := by
    obtain ⟨own, opened | ⟨gather, going, rfl⟩⟩ := calling
    · cases phase : run.phase <;> rw [phase] at opened convened <;> cases opened
      obtain ⟨fingerprint, rfl⟩ := convened
      exact ⟨_, _, rfl, rfl⟩
    · cases phase : run.phase <;> rw [phase] at going convened <;> cases going
      exact ⟨_, _, rfl, convened⟩
  exact ⟨_, shown, rfl, vetted.unjudged shown rfl,
    same.trans (conduct.underway _ shown).steady.epoch⟩

theorem calling {epoch : UInt32} (vetted : Vetted plan rank script run)
    (calling : ∃ own, run.phase.call = .opened epoch own ∨
      ∃ gather, run.phase.call = .going gather ∧ gather.epoch = epoch) :
    epoch = attemptEpoch run.iteration run.phase.verdicts.length ∧
      run.phase.verdicts.length ≤ 1 := by
  obtain ⟨part, conduct⟩ := vetted.conduct
  obtain ⟨trial, shown, -, unjudged, same⟩ := vetted.asking calling
  have heard : run.phase.verdicts.length = trial.retry := by
    simp [Phase.verdicts_of_trial shown, unjudged]
  rw [heard]
  exact ⟨same, conduct.orderly.retry_le shown⟩

/-- What a run has in hand comes right after what it has done in its attempt. -/
theorem front {operation : Operation} (vetted : Vetted plan rank script run)
    (shown : run.phase.trial? = some trial) (held : trial.hand = some operation) :
    trial.retry ≤ 1 ∧ ∃ after, script = run.done trial.retry ++ operation :: after := by
  obtain ⟨part, conduct⟩ := vetted.conduct
  obtain ⟨behind, after, split, executed, -⟩ := (conduct.underway trial shown).steady.parts
  refine ⟨conduct.orderly.retry_le shown, after, ?_⟩
  have split : script = behind ++ (trial.hand.toList ++ after) := split
  rw [held, Option.toList_some, List.singleton_append] at split
  rw [Run.done_current shown, conduct.fitted.scripted, executed]
  conv_rhs => rw [split, List.take_left]
  exact split

theorem called_choosing {guard : Option Guard} {attempt : Attempt α}
    (vetted : Vetted plan rank script run) (onward : Vetted plan rank script next)
    (phase : run.phase = .choosing guard attempt) (stride : Stride run exchange next)
    (heard : next.phase.verdicts = run.phase.verdicts) :
    Called run (exchange.bind Exchange.posted?) next := by
  obtain ⟨rfl, chosen⟩ := stride.of_own (by simp only [Run.turn, phase]; rfl)
  have opens := run.opens_choose guard attempt
  rw [← chosen] at opens
  have idle : run.phase.call = .idle := by rw [phase]; rfl
  cases here : next.phase with
  | preparing guard attempt gather =>
      rw [here] at opens
      obtain ⟨fingerprint, rfl⟩ := opens
      have opened : next.phase.call =
          .opened attempt.epoch (run.worker.validator.publish fingerprint) := by
        rw [here]
        rfl
      obtain ⟨epoch, few⟩ := onward.calling ⟨_, Or.inl opened⟩
      rw [epoch, stride.kin.iteration, heard] at opened
      exact .began idle (heard ▸ few) opened heard
  | gathering => rw [here] at opens; cases opens
  | consulting =>
      rw [here] at opens
      cases opens.symm.trans vetted.meshed
  | _ => exact .apart idle (by rw [here]; rfl) heard

theorem called_gathering {guard : Option Guard} {attempt : Attempt α} {gather : Gather}
    (vetted : Vetted plan rank script run) (fine : ∀ made ∈ exchange, made.succeeds = true)
    (phase : run.phase = .gathering guard attempt gather) (stride : Stride run exchange next)
    (heard : (exchange.bind Exchange.posted?).isSome = true →
      next.phase.verdicts = run.phase.verdicts) :
    Called run (exchange.bind Exchange.posted?) next := by
  have going : run.phase.call = .going gather := by rw [phase]; rfl
  cases move : gather.move with
  | finish =>
      obtain ⟨rfl, rfl⟩ := stride.of_own (by simp only [Run.turn, phase, move]; rfl)
      refine .returned going move rfl ?_
      have unjudged : attempt.validation = none := vetted.unjudged (by rw [phase]; rfl) rfl
      rw [phase, Phase.verdicts_of_trial rfl, Phase.verdicts_of_trial rfl, unjudged]
      simp [Trial.retry]
  | publish peer =>
      obtain ⟨answer, rfl, rfl⟩ := stride.of_ask (by simp only [Run.turn, phase, move]; rfl)
      cases answer with
      | error fault => cases fine _ rfl
      | ok => exact .published going move rfl (heard rfl)
  | collect peer =>
      obtain ⟨answer, rfl, rfl⟩ := stride.of_ask (by simp only [Run.turn, phase, move]; rfl)
      cases answer with
      | error fault => cases fine _ rfl
      | ok entry => exact .collected going move rfl (heard rfl)

section
variable (playable : Playable plan rank script) (sound : plan.layout.Sound)
  (tagged : plan.layout.Tagged plan.microbatches)

include playable sound tagged

theorem worked (vetted : Vetted plan rank script run)
    (fine : ∀ made ∈ exchange, made.succeeds = true) (stride : Stride run exchange next) :
    Worked run (exchange.bind Exchange.carried?) next := by
  obtain ⟨part, conduct⟩ := vetted.conduct
  have operations := stride.kin.operations
  cases shown : run.phase.trial? with
  | none =>
      obtain ⟨-, -, resting | ⟨guard, phase, rfl, rfl⟩⟩ := vetted.between fine shown stride
      · obtain ⟨idle, tries, apart⟩ := resting
        rw [apart]
        exact .rest fun attempt => Run.done_congr shown idle tries operations attempt
      · obtain ⟨through, same⟩ := Run.done_cleared phase
        exact .opened (conduct.orderly.cleared phase).le_one through same
  | some trial =>
      have few := conduct.orderly.retry_le shown
      have steady := (conduct.underway trial shown).steady
      have pursued := vetted.pursued playable sound tagged fine shown stride
      have tries := pursued.tries shown
      cases pursued with
      | on _ bare known guarded executed =>
          have apart : exchange.bind Exchange.carried? = none := by
            cases exchange with
            | none => rfl
            | some made => exact (bare made rfl).carried
          rw [apart]
          exact .rest fun attempt => Run.done_counted shown known guarded executed operations attempt
      | @serve operation _ _ served _ executed held serves counted phase =>
          obtain ⟨behind, after, split, executed, _⟩ := steady.parts
          rw [held, Option.toList_some, List.singleton_append] at split
          have split : run.worker.operations = behind ++ operation :: after :=
            conduct.fitted.scripted.trans split
          have adds : run.Adds next trial.retry operation :=
            Run.adds_of_counted shown (congrArg Phase.trial? phase) rfl operations split executed
              counted
          cases serves with
          | forward | backward | weights | optimizer | sync | gather =>
              exact .passed few rfl adds
          | @send peer transfer =>
              obtain ⟨another, labelling⟩ := conduct.sends stride
              obtain ⟨here, labelled⟩ := labelling.tagged conduct.fitted.planned shown
              cases held.symm.trans here
              exact .sent few labelled adds
          | @receive peer transfer =>
              obtain ⟨another, labelling⟩ := conduct.receives stride
              obtain ⟨here, labelled⟩ := labelling.tagged conduct.fitted.planned shown
              cases held.symm.trans here
              exact .received few labelled adds
      | finish guarded counted whole judged decided =>
          exact .rest (Run.done_finished shown decided.idle tries operations whole)

/-- Every attempt that a run makes is opened once. -/
theorem counted (vetted : Vetted plan rank script run)
    (fine : ∀ made ∈ exchange, made.succeeds = true) (stride : Stride run exchange next) :
    next.phase.tries = run.phase.tries + exchange.toList.countP Exchange.opens := by
  have apart : exchange.bind Exchange.carried? = none →
      exchange.toList.countP Exchange.opens = 0 := by
    cases exchange with
    | none => exact fun _ => rfl
    | some made =>
        intro apart
        rw [Option.toList_some, List.countP_singleton, Exchange.opens_of_apart apart]
        rfl
  cases shown : run.phase.trial? with
  | none =>
      obtain ⟨-, -, ⟨-, tries, silent⟩ | ⟨guard, phase, rfl, rfl⟩⟩ :=
        vetted.between fine shown stride
      · rw [tries, apart silent, Nat.add_zero]
      · rw [phase]
        rfl
  | some trial =>
      have pursued := vetted.pursued playable sound tagged fine shown stride
      rw [pursued.tries shown]
      cases pursued with
      | on _ bare =>
          refine (Nat.add_eq_left.mpr (apart ?_)).symm
          cases exchange with
          | none => rfl
          | some made => exact (bare made rfl).carried
      | serve _ serves => cases serves <;> rfl
      | finish => rfl

theorem called (once : script.count .validationSync = 1) (vetted : Vetted plan rank script run)
    (fine : ∀ made ∈ exchange, made.succeeds = true) (stride : Stride run exchange next) :
    Called run (exchange.bind Exchange.posted?) next := by
  have onward := vetted.stride playable sound tagged once fine stride
  cases shown : run.phase.trial? with
  | none =>
      obtain ⟨verdicts, apart, between⟩ := vetted.between fine shown stride
      rw [apart]
      refine .apart (Phase.call_of_idle shown) ?_ verdicts
      rcases between with ⟨idle, -⟩ | ⟨guard, -, rfl, -⟩
      · exact Phase.call_of_idle idle
      · rfl
  | some trial =>
      have pursued := vetted.pursued playable sound tagged fine shown stride
      have verdicts := pursued.verdicts shown
      cases phase : run.phase with
      | choosing guard attempt =>
          rw [phase] at shown
          obtain rfl := Option.some.inj shown
          exact vetted.called_choosing onward phase stride (verdicts fun held => by cases held)
      | preparing guard attempt gather =>
          obtain ⟨answer, rfl, rfl⟩ := stride.of_ask (by simp only [Run.turn, phase]; rfl)
          have convened := vetted.convened
          rw [phase] at convened
          obtain ⟨fingerprint, rfl⟩ := convened
          exact .dropped (by rw [phase]; rfl) rfl (verdicts fun _ => rfl)
      | gathering guard attempt gather =>
          exact vetted.called_gathering fine phase stride fun asked => verdicts fun _ => asked
      | consulting =>
          have convened := vetted.convened
          rw [phase] at convened
          cases convened.symm.trans vetted.meshed
      | forwarding | backwarding | weighing | sending | receiving | optimizing =>
          rw [phase] at shown
          obtain rfl := Option.some.inj shown
          have idle : run.phase.call = .idle := by rw [phase]; rfl
          have heard := verdicts fun held => by cases held
          cases pursued with
          | on held => cases held _ rfl
          | serve held serves _ onward =>
              obtain rfl := Option.some.inj held
              cases serves
              exact .apart idle (by rw [onward]; rfl) heard
          | finish guarded counted whole judged decided =>
              exact .apart idle (Phase.call_of_idle decided.idle) heard
      | snapshotting | clearing | restoring | discarding | ended =>
          rw [phase] at shown
          cases shown

end

end Vetted

end PipelineTraining
