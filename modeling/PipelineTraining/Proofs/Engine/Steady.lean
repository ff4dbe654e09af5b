import PipelineTraining.Proofs.Engine.Advance
import PipelineTraining.Proofs.Engine.Dialogue
import PipelineTraining.Proofs.Engine.Rounds

/-!
An attempt through which anything it asks may fail. As long as its own calls
succeed it goes through its script in order, to the end or until a message does
not come or cannot be moved.
-/

namespace PipelineTraining

variable {α : Type}

structure Fitted (plan : Plan) (rank : Nat) (script : List Operation) (worker : Worker) : Prop where
  placed : worker.rank = rank
  planned : worker.plan = plan
  scripted : worker.operations = script
  limited : worker.limiter.limit = plan.memoryLimit
  tracked : rank < worker.limiter.pending.length

inductive Steady (task : Task α) (limiter : Limiter) : Trial α → Prop
  | free {guard : Option Guard} {attempt : Attempt α} {seen : List (Sighting α)}
      {behind after : List Operation} (standing : Standing task seen behind after limiter attempt) :
      Steady task limiter ⟨guard, attempt, none⟩
  | busy {guard : Option Guard} {attempt taken : Attempt α} {seen : List (Sighting α)}
      {behind after : List Operation} {operation : Operation} {before : Limiter}
      (standing : Standing task seen behind (operation :: after) before attempt)
      (takes : Taken task.plan task.rank before { attempt with remaining := after } operation
        limiter
        taken) : Steady task limiter ⟨guard, taken, some operation⟩

inductive Fared (task : Task α) (run : Run α) (trial : Trial α) : Option (Exchange α) → Run α → Prop
  | on {exchange : Option (Exchange α)} {next : Run α} {onward : Trial α}
      (shown : next.phase.trial? = some onward) (guarded : onward.guard = trial.guard)
      (steady : Steady task next.worker.limiter onward)
      (labelled : next.phase.Labelled task.plan.microbatches) : Fared task run trial exchange next
  | returned (free : trial.hand = none) (waited : trial.attempt.waiting = [])
      (through : trial.attempt.remaining = []) :
      Fared task run trial none (run.finish trial.guard trial.attempt)
  | broken {exchange : Exchange α} {fault : Fault}
      (failed : exchange.fails = true ∨ exchange.strays = true ∧ fault.isDelivery = true) :
      Fared task run trial (some exchange) (run.abort trial.guard fault)

variable {task : Task α} {run next : Run α} {trial : Trial α} {exchange : Option (Exchange α)}
  {plan : Plan} {rank : Nat} {script : List Operation}

theorem Fitted.kin (kin : Kin run next) (fitted : Fitted plan rank script run.worker) :
    Fitted plan rank script next.worker := by
  obtain ⟨placed, planned, scripted, limited, tracked⟩ := fitted
  refine ⟨kin.rank.trans placed, kin.plan.trans planned, kin.operations.trans scripted,
    kin.limiter.limit.trans limited, ?_⟩
  rw [kin.limiter.ranks]
  exact tracked

namespace Standing

variable {seen : List (Sighting α)} {behind after : List Operation} {operation : Operation}
  {limiter : Limiter} {attempt : Attempt α}

theorem vouch (playable : Playable task.plan task.rank task.script)
    (standing : Standing task seen behind (operation :: after) limiter attempt)
    (exchange : Option (Exchange α)) :
    ∃ later, seen ⊆ later ∧ Vouched task later operation exchange := by
  have entered : ∀ (way : Way) stage microbatch (value : α), ∃ later, seen ⊆ later ∧
      Returned task.plan.layout later task.iteration way stage microbatch value :=
    fun way stage microbatch value =>
      ⟨seen ++ [⟨task.plan.layout.rankOf stage, task.iteration,
        way.deed stage microbatch none (.ok value)⟩], List.subset_append_left ..,
        none, List.mem_append_right _ List.mem_cons_self⟩
  have bare : (∀ made, exchange = some made → made.bears = false) →
      ∃ later, seen ⊆ later ∧ Vouched task later operation exchange :=
    fun bare => ⟨seen, List.Subset.refl _, .of_bare bare⟩
  cases exchange with
  | none => exact bare fun _ same => by cases same
  | some made =>
      obtain ⟨request, answer⟩ := made
      cases request with
      | forward stage microbatch input =>
          cases answer with
          | error source => exact bare fun _ same => by cases same; rfl
          | ok value =>
              obtain ⟨later, more, returned⟩ := entered .forward stage microbatch value
              refine ⟨later, more, ?_, ?_, ?_⟩
              · rintro _ _ _ _ ⟨⟩
                exact returned
              · rintro _ _ _ _ ⟨⟩
              · rintro _ _ _ _ _ ⟨⟩
      | backward stage microbatch gradient =>
          cases answer with
          | error source => exact bare fun _ same => by cases same; rfl
          | ok value =>
              obtain ⟨later, more, returned⟩ := entered .backward stage microbatch value
              refine ⟨later, more, ?_, ?_, ?_⟩
              · rintro _ _ _ _ ⟨⟩
              · rintro _ _ _ _ ⟨⟩
                exact returned
              · rintro _ _ _ _ _ ⟨⟩
      | receive peer tag =>
          cases answer with
          | error fault => exact bare fun _ same => by cases same; rfl
          | ok payload =>
              have unlike : (∀ other transfer, operation ≠ .receive other transfer) →
                  Vouched task seen operation (some ⟨.receive peer tag, .ok payload⟩) := by
                intro unlike
                refine ⟨?_, ?_, fun _ _ _ _ same => absurd same (unlike _ _)⟩
                · rintro _ _ _ _ ⟨⟩
                · rintro _ _ _ _ ⟨⟩
              -- What comes for a receive has to be vouched for, and the script says whose it is.
              cases playable.supplied behind operation after standing.script with
              | receive way source stage microbatch known _ _ found =>
                  obtain ⟨later, more, returned⟩ := entered way source microbatch payload
                  refine ⟨later, more, ?_, ?_, ?_⟩
                  · rintro _ _ _ _ ⟨⟩
                  · rintro _ _ _ _ ⟨⟩
                  · rintro _ _ _ _ ⟨⟩ ⟨⟩
                    exact ⟨way, source, stage, rfl, rfl, known, found, returned⟩
              | pass way =>
                  refine ⟨seen, List.Subset.refl _, unlike fun _ _ same => ?_⟩
                  cases way <;> cases same
              | weights | send | optimizer | sync =>
                  exact ⟨seen, List.Subset.refl _, unlike fun _ _ same => by cases same⟩
      | backwardWeights | optimize | dropStale | send | dropPublished | publish | collect | gather
        | snapshot | restore | discard => exact bare fun _ same => by cases same; rfl

end Standing

namespace Steady

variable {limiter : Limiter}

theorem epoch (steady : Steady task limiter trial) :
    trial.attempt.epoch = attemptEpoch task.iteration task.retry := by
  cases steady with
  | free standing => exact standing.epoch
  | busy standing takes => exact (congrArg Attempt.epoch takes.same).trans standing.epoch

theorem listed {operation : Operation} (steady : Steady task limiter trial)
    (held : trial.hand = some operation) : operation ∈ task.script := by
  cases steady with
  | free => cases held
  | busy standing =>
      obtain rfl := Option.some.inj held
      rw [standing.script]
      exact List.mem_append_right _ List.mem_cons_self

theorem picked {ready : Operation → Bool} {operation : Operation} {attempt picked : Attempt α}
    {seen : List (Sighting α)} {behind after : List Operation}
    (standing : Standing task seen behind after limiter attempt)
    (picks : Picked ready attempt operation picked) :
    ∃ rest, after = operation :: rest ∧ picked = { attempt with remaining := rest } := by
  cases picks with
  | waiting found =>
      rw [standing.waiting] at found
      cases found
  | next ahead _ => exact ⟨_, standing.remaining.symm.trans ahead, rfl⟩

/-- Of the four ways to break off a plan leaves but one, a call or a message that fails. -/
theorem halted {fault : Fault} (playable : Playable task.plan task.rank task.script)
    (tagged : task.plan.layout.Tagged task.plan.microbatches)
    (fitted : Fitted task.plan task.rank task.script run.worker)
    (steady : Steady task run.worker.limiter trial) (halted : Halted run trial exchange fault) :
    ∃ made, exchange = some made ∧
      (made.fails = true ∨ made.strays = true ∧ fault.isDelivery = true) := by
  have placed := fitted.placed
  have planned := fitted.planned
  cases halted with
  | stuck free left =>
      cases steady with
      | free standing => exact absurd standing.waiting left
      | busy => cases free
  | refuse free picks untaken =>
      cases steady with
      | free standing =>
          obtain ⟨rest, rfl, rfl⟩ := picked standing picks
          obtain ⟨limiter, taken, takes⟩ := standing.takes playable tagged
          rw [planned, placed] at untaken
          exact absurd takes (untaken limiter taken)
      | busy => cases free
  | uncounted held missing =>
      cases steady with
      | free => cases held
      | busy standing takes =>
          obtain rfl := Option.some.inj held
          obtain ⟨count, pending⟩ := standing.pending_pos playable
          cases takes with
          | backward =>
            obtain ⟨completed, completes, _⟩ := Limiter.complete_of_pending pending
            rw [placed, completes] at missing
            cases missing
  | fail _ _ failed => exact ⟨_, rfl, failed⟩

/-- A call that does not fail keeps an attempt steady, until it returns. -/
theorem tried (playable : Playable task.plan task.rank task.script) (sound : task.plan.layout.Sound)
    (tagged : task.plan.layout.Tagged task.plan.microbatches)
    (fitted : Fitted task.plan task.rank task.script run.worker)
    (steady : Steady task run.worker.limiter trial) (tried : Tried run trial exchange next) :
    Fared task run trial exchange next := by
  have placed := fitted.placed
  have planned := fitted.planned
  cases tried with
  | finish free waited through => exact .returned free waited through
  | defer free ahead early =>
      cases steady with
      | free standing =>
          -- The operation in front is always ready, so nothing is ever put off.
          rw [standing.remaining] at ahead
          subst ahead
          rw [planned, placed, standing.ready playable] at early
          cases early
      | busy => cases free
  | take free picks takes shown labelled =>
      rw [planned] at labelled
      cases steady with
      | free standing =>
          obtain ⟨rest, rfl, rfl⟩ := picked standing picks
          rw [planned, placed] at takes
          exact .on shown rfl (.busy standing takes) labelled
      | busy => cases free
  | pass free picks silent =>
      cases steady with
      | free standing =>
          obtain ⟨rest, rfl, rfl⟩ := picked standing picks
          have signed := standing.ready playable
          exact .on rfl rfl (.free (standing.advance playable (List.Subset.refl _) (.sync signed)
            .sync (.of_bare fun _ same => by cases same))) trivial
      | busy => cases free
  | wait _ _ shown labelled =>
      rw [planned] at labelled
      exact .on shown rfl steady labelled
  | serve held serves =>
      rw [planned, placed] at serves
      cases steady with
      | free => cases held
      | busy standing takes =>
          obtain rfl := Option.some.inj held
          obtain ⟨later, more, vouched⟩ := standing.vouch playable exchange
          exact .on rfl rfl (.free (standing.advance playable more takes serves vouched)) trivial
  | abort halted =>
      obtain ⟨exchange, rfl, failed⟩ := steady.halted playable tagged fitted halted
      exact .broken failed
  | collapse _ unplaced =>
      rw [planned, Layout.places_of_sound sound] at unplaced
      cases unplaced

end Steady

end PipelineTraining
