import PipelineTraining.Proofs.Engine.Advance

/-!
From one operation to the next. A run that has chosen an operation asks for what
it takes, and whatever good answer comes, it goes on behind the operation.
-/

namespace PipelineTraining

variable {α : Type}

def Phase.attempt? : Phase α → Option (Attempt α)
  | .choosing _ attempt => some attempt
  | .forwarding _ attempt .. => some attempt
  | .backwarding _ attempt .. => some attempt
  | .weighing _ attempt .. => some attempt
  | .sending _ attempt .. => some attempt
  | .receiving _ attempt .. => some attempt
  | .optimizing _ attempt => some attempt
  | .preparing _ attempt _ => some attempt
  | .gathering _ attempt _ => some attempt
  | .consulting _ attempt _ => some attempt
  | .snapshotting => none
  | .clearing _ => none
  | .restoring .. => none
  | .discarding _ => none
  | .ended _ => none

/-- What a run asks for to execute an operation, and that any good answer brings it behind. -/
inductive Asking (task : Task α) (seen : List (Sighting α)) (behind after : List Operation) :
    Operation → Run α → Prop
  | forward {stage : StageId} {microbatch : Nat} {input : Option α} {run : Run α}
      {resume : Except String α → Run α}
      (asks : run.turn = .ask (.forward stage microbatch input) resume)
      (owned : task.plan.layout.rankOf stage = task.rank)
      (fitting : Fitting task.plan.layout seen task.iteration task.inputs .forward stage microbatch
        input)
      (resumes : ∀ value later, seen ⊆ later →
        ⟨task.rank, task.iteration, .forward stage microbatch input (.ok value)⟩ ∈ later →
        Choosing task later (behind ++ [.forward stage microbatch]) after (resume (.ok value))) :
      Asking task seen behind after (.forward stage microbatch) run
  | backward {stage : StageId} {microbatch : Nat} {gradient : Option α} {run : Run α}
      {resume : Except String α → Run α}
      (asks : run.turn = .ask (.backward stage microbatch gradient) resume)
      (owned : task.plan.layout.rankOf stage = task.rank)
      (fitting : Fitting task.plan.layout seen task.iteration task.inputs .backward stage
        microbatch gradient)
      (resumes : ∀ value later, seen ⊆ later →
        ⟨task.rank, task.iteration, .backward stage microbatch gradient (.ok value)⟩ ∈ later →
        Choosing task later (behind ++ [.backward stage microbatch]) after (resume (.ok value))) :
      Asking task seen behind after (.backward stage microbatch) run
  | weights {stage : StageId} {microbatch : Nat} {run : Run α} {resume : Except String Unit → Run α}
      (asks : run.turn = .ask (.backwardWeights stage microbatch) resume)
      (resumes : ∀ later, seen ⊆ later → Choosing task later
        (behind ++ [.backwardWeights stage microbatch]) after (resume (.ok ()))) :
      Asking task seen behind after (.backwardWeights stage microbatch) run
  | send {peer : Nat} {transfer : Transfer} {tag : Tag} {payload : α} {run : Run α}
      {resume : Except DeliveryFault Unit → Run α}
      (asks : run.turn = .ask (.send peer tag payload) resume)
      (tagged : transfer.tag task.plan.microbatches (attemptEpoch task.iteration task.retry) =
        .ok tag)
      (meant : Meant task.plan.layout seen task.iteration transfer.entry payload)
      (resumes : ∀ later, seen ⊆ later →
        Choosing task later (behind ++ [.send peer transfer]) after (resume (.ok ()))) :
      Asking task seen behind after (.send peer transfer) run
  | receive {peer : Nat} {transfer : Transfer} {tag : Tag} {run : Run α}
      {resume : Except DeliveryFault α → Run α}
      (asks : run.turn = .ask (.receive peer tag) resume)
      (tagged : transfer.tag task.plan.microbatches (attemptEpoch task.iteration task.retry) =
        .ok tag)
      (resumes : ∀ value later, seen ⊆ later →
        Meant task.plan.layout later task.iteration transfer.entry value →
        Choosing task later (behind ++ [.receive peer transfer]) after (resume (.ok value))) :
      Asking task seen behind after (.receive peer transfer) run
  | optimizer {run : Run α} {resume : Except String Fingerprint → Run α}
      (asks : run.turn = .ask .optimize resume)
      (resumes : ∀ fingerprint later, seen ⊆ later →
        Choosing task later (behind ++ [.optimizerStep]) after (resume (.ok fingerprint))) :
      Asking task seen behind after .optimizerStep run

structure Poised (task : Task α) (seen : List (Sighting α)) (behind after : List Operation)
    (operation : Operation) (run : Run α) : Prop where
  script : task.script = behind ++ operation :: after
  manned : Manned task run
  held : ∃ attempt, run.phase.attempt? = some attempt ∧ attempt.executed = behind.length
  asking : Asking task seen behind after operation run

variable {task : Task α} {seen later : List (Sighting α)}
  {behind after : List Operation} {operation : Operation} {limiter : Limiter}
  {attempt : Attempt α} {run : Run α}

theorem Poised.mono (more : seen ⊆ later) (poised : Poised task seen behind after operation run) :
    Poised task later behind after operation run := by
  obtain ⟨script, manned, held, asking⟩ := poised
  refine ⟨script, manned, held, ?_⟩
  cases asking with
  | forward asks owned fitting resumes =>
      exact .forward asks owned (fitting.mono more) fun value last further =>
        resumes value last (List.Subset.trans more further)
  | backward asks owned fitting resumes =>
      exact .backward asks owned (fitting.mono more) fun value last further =>
        resumes value last (List.Subset.trans more further)
  | weights asks resumes =>
      exact .weights asks fun last further => resumes last (List.Subset.trans more further)
  | send asks tagged meant resumes =>
      exact .send asks tagged (meant.mono more) fun last further =>
        resumes last (List.Subset.trans more further)
  | receive asks tagged resumes =>
      exact .receive asks tagged fun value last further =>
        resumes value last (List.Subset.trans more further)
  | optimizer asks resumes =>
      exact .optimizer asks fun fingerprint last further =>
        resumes fingerprint last (List.Subset.trans more further)

theorem Equipped.with_limiter {plan : Plan} {rank : Nat} {script : List Operation}
    {worker : Worker} (equipped : Equipped plan rank script worker) {limiter : Limiter}
    {count : Nat}
    (limited : limiter.limit = worker.limiter.limit)
    (tracked : limiter.pending[rank]? = some count) :
    Equipped plan rank script { worker with limiter := limiter } :=
  ⟨equipped.placed, equipped.planned, equipped.scripted, equipped.silent,
    limited.trans equipped.limited, count, tracked⟩

theorem Equipped.recorded {plan : Plan} {rank : Nat} {script : List Operation} {worker : Worker}
    (equipped : Equipped plan rank script worker) (operation : Operation) :
    Equipped plan rank script (worker.recorded operation) :=
  ⟨equipped.placed, equipped.planned, equipped.scripted, equipped.silent, equipped.limited,
    equipped.tracked⟩

theorem Choosing.of_standing (manned : Manned task run)
    (standing : Standing task seen behind after run.worker.limiter attempt.counted)
    (operation : Operation) :
    Choosing task seen behind after (run.completed none attempt operation) :=
  ⟨attempt.counted, rfl,
    ⟨manned.equipped.recorded operation, manned.counted, manned.iteration, manned.inputs⟩, standing⟩

theorem Run.forwarded_ok (sound : task.plan.layout.Sound) (manned : Manned task run)
    (attempt : Attempt α) (stage : StageId) (microbatch : Nat) (value : α) :
    run.forwarded none attempt stage microbatch (.ok value) =
      run.completed none
        (({ attempt with
            forwarded := Attempt.insertOnce (stage.logical, microbatch) attempt.forwarded } :
          Attempt α).passOn task.plan.layout task.rank stage microbatch value)
        (.forward stage microbatch) := by
  simp only [Run.forwarded, manned.equipped.planned, manned.equipped.placed, Attempt.forwardDone,
    Layout.places_of_sound sound, Bool.or_true, if_true]

theorem Run.backwarded_ok (sound : task.plan.layout.Sound) (manned : Manned task run)
    {limiter : Limiter} (completed : run.worker.limiter.complete task.rank = .ok limiter)
    (attempt : Attempt α) (stage : StageId) (microbatch : Nat) (value : α) :
    run.backwarded none attempt stage microbatch (.ok value) =
      Run.completed { run with worker := { run.worker with limiter := limiter } } none
        (({ attempt with
            backwarded := Attempt.insertOnce (stage.logical, microbatch) attempt.backwarded } :
          Attempt α).passBack task.plan.layout task.rank stage microbatch value)
        (.backward stage microbatch) := by
  rw [← manned.equipped.placed] at completed ⊢
  simp only [Run.backwarded, completed, manned.equipped.planned, Attempt.backwardDone,
    Layout.places_of_sound sound, Bool.or_true, if_true]

section
variable (playable : Playable task.plan task.rank task.script) (sound : task.plan.layout.Sound)

include playable sound

theorem poised_forward {stage : StageId} {microbatch : Nat} (manned : Manned task run)
    (standing : Standing task seen behind (.forward stage microbatch :: after) run.worker.limiter
      attempt)
    (known : task.plan.layout.IsStage stage) (owned : task.plan.layout.rankOf stage = task.rank)
    (fed : ∀ source, Way.forward.source task.plan.layout stage = some source →
      Way.forward.inflow task.plan.layout task.rank source stage microbatch ∈ behind)
    (room : (behind.filterMap Way.forward.key?).length <
      (behind.filterMap Way.backward.key?).length + task.plan.memoryLimit) :
    Poised task seen behind after (.forward stage microbatch)
      (run.take none { attempt with remaining := after } (.forward stage microbatch)) := by
  obtain ⟨input, inputs, taken, fitting, _⟩ := standing.forwardInput playable known owned fed
  obtain ⟨count, pending, balance⟩ := standing.pending
  have below : count < run.worker.limiter.limit := by
    rw [standing.limit]
    omega
  obtain ⟨limiter, admitted, limited, counted⟩ := Limiter.admit?_of_room pending below
  have placed := manned.equipped.placed
  have planned := manned.equipped.planned
  have chosen : run.take none { attempt with remaining := after } (.forward stage microbatch) =
      { run with
        worker := { run.worker with limiter := limiter }
        phase := .forwarding none
          { attempt with
            remaining := after
            inbox := attempt.inbox.withoutAt (Way.forward.drains? task.plan.layout stage microbatch)
            inputs := inputs } stage microbatch input } := by
    simp only [Run.take, Run.startForward, placed, planned, taken, admitted]
  rw [chosen]
  have stillManned : Manned task
      { run with
        worker := { run.worker with limiter := limiter }
        phase := .forwarding none
          { attempt with
            remaining := after
            inbox := attempt.inbox.withoutAt (Way.forward.drains? task.plan.layout stage microbatch)
            inputs := inputs } stage microbatch input } :=
    ⟨manned.equipped.with_limiter limited counted, manned.counted, manned.iteration, manned.inputs⟩
  refine ⟨standing.script, stillManned, ⟨_, rfl, standing.executed⟩,
    .forward rfl owned fitting fun value later more member => ?_⟩
  have returned : Returned task.plan.layout later task.iteration .forward stage microbatch value :=
    ⟨input, owned.symm ▸ member⟩
  rw [Run.forwarded_ok sound stillManned]
  exact .of_standing stillManned
    (standing.advance_forward playable more known owned fed taken admitted returned) _

theorem poised_backward {stage : StageId} {microbatch : Nat} (manned : Manned task run)
    (standing : Standing task seen behind (.backward stage microbatch :: after) run.worker.limiter
      attempt)
    (known : task.plan.layout.IsStage stage) (owned : task.plan.layout.rankOf stage = task.rank)
    (fed : ∀ source, Way.backward.source task.plan.layout stage = some source →
      Way.backward.inflow task.plan.layout task.rank source stage microbatch ∈ behind) :
    Poised task seen behind after (.backward stage microbatch)
      (run.take none { attempt with remaining := after } (.backward stage microbatch)) := by
  obtain ⟨gradient, taken, fitting⟩ := standing.backwardInput playable known owned fed
  obtain ⟨count, pending⟩ := standing.pending_pos playable
  obtain ⟨limiter, completed, limited, counted⟩ := Limiter.complete_of_pending pending
  have placed := manned.equipped.placed
  have planned := manned.equipped.planned
  have chosen : run.take none { attempt with remaining := after } (.backward stage microbatch) =
      run.become (.backwarding none
        { attempt with
          remaining := after
          inbox := attempt.inbox.withoutAt
            (Way.backward.drains? task.plan.layout stage microbatch) }
            stage microbatch gradient) := by
    simp only [Run.take, Run.startBackward, placed, planned, taken]
  rw [chosen]
  have stillManned : Manned task (run.become (.backwarding none
        { attempt with
          remaining := after
          inbox := attempt.inbox.withoutAt
            (Way.backward.drains? task.plan.layout stage microbatch) }
            stage microbatch gradient)) :=
    ⟨manned.equipped, manned.counted, manned.iteration, manned.inputs⟩
  refine ⟨standing.script, stillManned, ⟨_, rfl, standing.executed⟩,
    .backward rfl owned fitting fun value later more member => ?_⟩
  have returned : Returned task.plan.layout later task.iteration .backward stage microbatch value :=
    ⟨gradient, owned.symm ▸ member⟩
  rw [Run.backwarded_ok sound stillManned completed]
  refine .of_standing ?_
    (standing.advance_backward playable more known owned fed taken completed returned) _
  exact ⟨manned.equipped.with_limiter limited counted, manned.counted, manned.iteration,
    manned.inputs⟩

end

theorem Manned.become (manned : Manned task run) (phase : Phase α) :
    Manned task (run.become phase) :=
  ⟨manned.equipped, manned.counted, manned.iteration, manned.inputs⟩

theorem poised_weights {stage : StageId} {microbatch : Nat} (manned : Manned task run)
    (standing : Standing task seen behind (.backwardWeights stage microbatch :: after)
      run.worker.limiter attempt) :
    Poised task seen behind after (.backwardWeights stage microbatch)
      (run.take none { attempt with remaining := after } (.backwardWeights stage microbatch)) := by
  refine ⟨standing.script, manned.become _, ⟨_, rfl, standing.executed⟩,
    .weights rfl fun later more => .of_standing (manned.become _) ?_ _⟩
  exact standing.advance_plain more (fun way _ _ same => by cases way <;> cases same) .weights
    .weights (.of_bare fun _ same => by cases same; rfl)

theorem poised_optimizer (manned : Manned task run)
    (standing : Standing task seen behind (.optimizerStep :: after) run.worker.limiter attempt) :
    Poised task seen behind after .optimizerStep
      (run.take none { attempt with remaining := after } .optimizerStep) := by
  refine ⟨standing.script, manned.become _, ⟨_, rfl, standing.executed⟩,
    .optimizer rfl fun fingerprint later more => .of_standing (manned.become _) ?_ _⟩
  exact standing.advance_plain more (fun way _ _ same => by cases way <;> cases same) .optimizer
    .optimizer (.of_bare fun _ same => by cases same; rfl)

theorem poised_receive {peer : Nat} {transfer : Transfer} {tag : Tag} (manned : Manned task run)
    (standing : Standing task seen behind (.receive peer transfer :: after) run.worker.limiter
      attempt)
    (tagged : transfer.tag task.plan.microbatches (attemptEpoch task.iteration task.retry) =
      .ok tag) :
    Poised task seen behind after (.receive peer transfer)
      (run.take none { attempt with remaining := after } (.receive peer transfer)) := by
  have epoch : transfer.tag task.plan.microbatches attempt.epoch = .ok tag := by
    rw [standing.epoch]
    exact tagged
  have chosen : run.take none { attempt with remaining := after } (.receive peer transfer) =
      run.become (.receiving none { attempt with remaining := after } peer transfer tag) := by
    simp only [Run.take, Run.startReceive, manned.equipped.planned, epoch]
  rw [chosen]
  refine ⟨standing.script, manned.become _, ⟨_, rfl, standing.executed⟩,
    .receive rfl tagged fun value later more meant => .of_standing (manned.become _) ?_ _⟩
  have vouched : Vouched task later (.receive peer transfer)
      (some ⟨.receive peer tag, .ok value⟩) := by
    constructor
    · intro _ _ _ _ same
      cases same
    · intro _ _ _ _ same
      cases same
    · intro other another label payload same exchange
      cases same
      cases exchange
      exact meant
  exact standing.advance_plain more (fun way _ _ same => by cases way <;> cases same)
    (.receive epoch) .receive vouched

theorem poised_send {peer : Nat} {transfer : Transfer} {tag : Tag} (manned : Manned task run)
    (standing : Standing task seen behind (.send peer transfer :: after) run.worker.limiter
      attempt)
    (present : attempt.outbox.has transfer = true)
    (tagged : transfer.tag task.plan.microbatches (attemptEpoch task.iteration task.retry) =
      .ok tag) :
    Poised task seen behind after (.send peer transfer)
      (run.take none { attempt with remaining := after } (.send peer transfer)) := by
  obtain ⟨payload, laid, member⟩ := Shelf.take?_of_has present
  have epoch : transfer.tag task.plan.microbatches attempt.epoch = .ok tag := by
    rw [standing.epoch]
    exact tagged
  have chosen : run.take none { attempt with remaining := after } (.send peer transfer) =
      run.become (.sending none
        { attempt with remaining := after, outbox := attempt.outbox.without transfer }
        peer transfer tag payload) := by
    simp only [Run.take, Run.startSend, laid, manned.equipped.planned, epoch]
  rw [chosen]
  refine ⟨standing.script, manned.become _, ⟨_, rfl, standing.executed⟩,
    .send rfl tagged (standing.outboxMeant _ _ member) fun later more =>
      .of_standing (manned.become _) ?_ _⟩
  have vouched : Vouched task later (.send peer transfer) (some ⟨.send peer tag payload, .ok ()⟩) :=
    .of_bare fun _ same => by cases same; rfl
  exact standing.advance_plain more (fun way _ _ same => by cases way <;> cases same)
    (.send laid epoch) .send vouched

theorem choosing_sync (manned : Manned task run)
    (standing : Standing task seen behind (.validationSync :: after) run.worker.limiter attempt)
    (signed : attempt.fingerprint.isSome = true) :
    Choosing task seen (behind ++ [.validationSync]) after
      (run.take none { attempt with remaining := after } .validationSync) := by
  obtain ⟨fingerprint, found⟩ := Option.isSome_iff_exists.mp signed
  have chosen : run.take none { attempt with remaining := after } .validationSync =
      run.completed none { attempt with remaining := after, validation := some .consistent }
        .validationSync := by
    simp [Run.take, Run.startSync, found, manned.equipped.silent]
  rw [chosen]
  refine .of_standing manned ?_ _
  exact standing.advance_plain (List.Subset.refl _)
    (fun way _ _ same => by cases way <;> cases same) (.sync signed) .sync
    (.of_bare fun _ same => by cases same)

theorem Run.turn_of_choosing {guard : Option Guard} (phase : run.phase = .choosing guard attempt) :
    run.turn = .own (run.choose guard attempt) := by
  simp only [Run.turn, phase]

/-- In front of an operation a run takes it up at once. -/
theorem choosing_next (playable : Playable task.plan task.rank task.script)
    (sound : task.plan.layout.Sound) (tagged : task.plan.layout.Tagged task.plan.microbatches)
    (choosing : Choosing task seen behind (operation :: after) run) :
    ∃ next, run.turn = .own next ∧ (Poised task seen behind after operation next ∨
      operation = .validationSync ∧ Choosing task seen (behind ++ [operation]) after next) := by
  obtain ⟨attempt, phase, manned, standing⟩ := choosing
  have ready := standing.ready playable
  -- The time of the next operation has come, so nothing else is picked.
  have taken : run.choose none attempt =
      run.take none { attempt with remaining := after } operation := by
    rw [← manned.equipped.planned, ← manned.equipped.placed] at ready
    simp only [Run.choose, Attempt.choose, standing.waiting, standing.remaining,
      Attempt.pickWaiting, ready, if_true]
  refine ⟨_, (Run.turn_of_choosing phase).trans (congrArg Turn.own taken), ?_⟩
  cases playable.supplied behind operation after standing.script with
  | pass way stage microbatch known owned inside fed room own =>
      cases way with
      | forward =>
          exact Or.inl (poised_forward playable sound manned standing known owned fed (room rfl))
      | backward => exact Or.inl (poised_backward playable sound manned standing known owned fed)
  | weights => exact Or.inl (poised_weights manned standing)
  | receive way source stage microbatch known owned inside found away =>
      have many := (way.isStage_source known found).many_of_apart known (by rwa [owned])
      exact Or.inl (poised_receive manned standing
        (way.tag_transfer tagged many source known inside _))
  | send way stage target microbatch known owned inside found away fed =>
      have targetKnown := way.isStage_target known found
      have many := targetKnown.many_of_apart known (by rwa [owned])
      exact Or.inl (poised_send manned standing ready
        (way.tag_transfer tagged many stage targetKnown inside _))
  | optimizer => exact Or.inl (poised_optimizer manned standing)
  | sync => exact Or.inr ⟨rfl, choosing_sync manned standing ready⟩

structure Finished (task : Task α) (seen : List (Sighting α)) (report : StepReport α) : Prop where
  rank : report.result.rank = task.rank
  iteration : report.result.iteration = task.iteration
  executed : report.result.executed = task.script.length
  outputs : Yielded task seen .forward task.script report.result.outputs
  inputGradients : Yielded task seen .backward task.script report.result.inputGradients

theorem Finished.mono {report : StepReport α} (more : seen ⊆ later)
    (finished : Finished task seen report) : Finished task later report :=
  { finished with
    outputs := finished.outputs.mono more
    inputGradients := finished.inputGradients.mono more }

theorem Equipped.flushed {plan : Plan} {rank : Nat} {script : List Operation} {worker : Worker}
    (equipped : Equipped plan rank script worker) : Equipped plan rank script worker.flushed :=
  ⟨equipped.placed, equipped.planned, equipped.scripted, equipped.silent, equipped.limited,
    equipped.tracked⟩

theorem choosing_last (choosing : Choosing task seen behind [] run) :
    ∃ next report, run.turn = .own next ∧ next.phase = .ended (.ok report) ∧ Manned task next ∧
      Finished task seen report := by
  obtain ⟨attempt, phase, manned, standing⟩ := choosing
  have whole : behind = task.script := by rw [standing.script, List.append_nil]
  have finished : run.choose none attempt = run.finish none attempt := by
    simp only [Run.choose, Attempt.choose, standing.waiting, standing.remaining,
      Attempt.pickWaiting, List.isEmpty_nil, if_true]
  refine ⟨_, _, (Run.turn_of_choosing phase).trans (congrArg Turn.own finished), rfl, ?_, ?_⟩
  · exact ⟨manned.equipped.flushed, manned.counted, manned.iteration, manned.inputs⟩
  · subst whole
    exact ⟨manned.equipped.placed, manned.iteration, standing.executed, standing.outputs,
      standing.inputGradients⟩

theorem choosing_cleared (manned : Manned task run) (untried : task.retry = 0) :
    Choosing task seen [] task.script (run.cleared none) := by
  obtain ⟨placed, planned, scripted, silent, limited, count, tracked⟩ := manned.equipped
  have inside := (List.getElem?_eq_some_iff.mp tracked).1
  refine ⟨_, rfl, ⟨?_, manned.counted, manned.iteration, manned.inputs⟩, ?_⟩
  · exact ⟨placed, planned, scripted, silent, limited, 0, Limiter.pending_reset inside⟩
  · exact .cleared scripted limited inside manned.iteration manned.inputs untried.symm

/-- Inputs that an iteration accepts: one for every micro-batch, or none at all. -/
def Suited (plan : Plan) (inputs : Option (List α)) : Prop :=
  ∀ given, inputs = some given → given.length = plan.microbatches

theorem Run.beginAttempt_of_suited {run : Run α} (suited : Suited run.worker.plan run.inputs)
    (guard : Option Guard) : run.beginAttempt guard = run.become (.clearing guard) := by
  unfold Run.beginAttempt
  cases inputs : run.inputs with
  | none => rfl
  | some given =>
      dsimp only
      rw [if_pos (suited given inputs)]

theorem Run.snapshotTaken_of_suited {run : Run α} (suited : Suited run.worker.plan run.inputs)
    (handle : Nat) : run.snapshotTaken (.ok handle) =
      run.become (.clearing (some ⟨handle, .start run.worker.rank, 0⟩)) :=
  beginAttempt_of_suited suited _

/-- A step that has rolled back once can begin its retry. -/
theorem Run.discarded_of_rolledBack {run : Run α} {guard : Guard} {rank : Nat}
    (suited : Suited run.worker.plan run.inputs) (cycle : guard.cycle = ⟨rank, .rolledBack, 0⟩) :
    run.discarded (.retry guard) (.ok ()) =
      run.become (.clearing (some { guard with cycle := ⟨rank, .retrying, 1⟩ })) := by
  have retries : (StepCycle.mk rank .rolledBack 0).beginRetry = .ok ⟨rank, .retrying, 1⟩ := rfl
  simp only [discarded, cycle, retries]
  exact beginAttempt_of_suited suited _

theorem manned_ofIteration {worker : Worker} {inputs : Option (List α)}
    (equipped : Equipped task.plan task.rank task.script worker)
    (counted : worker.iteration = task.iteration) (same : inputs = task.inputs)
    (suited : Suited task.plan inputs) :
    Manned task (Run.ofIteration worker inputs) ∧
      (Run.ofIteration worker inputs).phase = .clearing none := by
  have begun : Run.ofIteration worker inputs =
      { worker := { worker with iteration := worker.iteration + 1 }
        iteration := worker.iteration
        inputs := inputs
        phase := .clearing none } :=
    Run.beginAttempt_of_suited (equipped.planned ▸ suited) none
  rw [begun]
  refine ⟨⟨?_, congrArg (· + 1) counted, counted, same⟩, rfl⟩
  exact ⟨equipped.placed, equipped.planned, equipped.scripted, equipped.silent, equipped.limited,
    equipped.tracked⟩

end PipelineTraining
