import PipelineTraining.Proofs.Engine.Steps
import PipelineTraining.Proofs.Limiter.Counting

/-!
The turns of a run on a playable script. In front of an operation the run chooses
it, asks for what it takes, and with a good answer stands behind it.
-/

namespace PipelineTraining

variable {α : Type} {task : Task α} {seen later : List (Sighting α)}
  {behind after : List Operation} {operation : Operation} {limiter : Limiter}
  {attempt : Attempt α} {run : Run α}

structure Equipped (plan : Plan) (rank : Nat) (script : List Operation) (worker : Worker) :
    Prop where
  placed : worker.rank = rank
  planned : worker.plan = plan
  scripted : worker.operations = script
  silent : worker.validator.isEnabled = false
  limited : worker.limiter.limit = plan.memoryLimit
  tracked : ∃ count, worker.limiter.pending[rank]? = some count

structure Manned (task : Task α) (run : Run α) : Prop where
  equipped : Equipped task.plan task.rank task.script run.worker
  counted : run.worker.iteration = task.iteration + 1
  iteration : run.iteration = task.iteration
  inputs : run.inputs = task.inputs

def Choosing (task : Task α) (seen : List (Sighting α)) (behind after : List Operation)
    (run : Run α) : Prop :=
  ∃ attempt, run.phase = .choosing none attempt ∧ Manned task run ∧
    Standing task seen behind after run.worker.limiter attempt

theorem Choosing.mono (more : seen ⊆ later) (choosing : Choosing task seen behind after run) :
    Choosing task later behind after run := by
  obtain ⟨attempt, phase, manned, standing⟩ := choosing
  exact ⟨attempt, phase, manned, standing.mono more⟩

namespace Standing

variable (playable : Playable task.plan task.rank task.script)

include playable in
theorem slot_present {way : Way} {stage source : StageId} {microbatch : Nat}
    (standing : Standing task seen behind (way.pass stage microbatch :: after) limiter attempt)
    (known : task.plan.layout.IsStage stage) (owned : task.plan.layout.rankOf stage = task.rank)
    (found : way.source task.plan.layout stage = some source)
    (fed : way.inflow task.plan.layout task.rank source stage microbatch ∈ behind) :
    attempt.inbox.has ⟨way.kind, stage.logical, microbatch⟩ = true :=
  standing.inbox _ ⟨_, fed, Operation.fills?_inflow microbatch known owned found⟩
    (playable.undrained standing.script known)

include playable in
theorem entry_ready {way : Way} {stage : StageId} {microbatch : Nat}
    (standing : Standing task seen behind (way.pass stage microbatch :: after) limiter attempt)
    (known : task.plan.layout.IsStage stage) (owned : task.plan.layout.rankOf stage = task.rank)
    (fed : ∀ source, way.source task.plan.layout stage = some source →
      way.inflow task.plan.layout task.rank source stage microbatch ∈ behind) :
    way.source task.plan.layout stage = none ∨
      attempt.inbox.has ⟨way.kind, stage.logical, microbatch⟩ = true := by
  cases found : way.source task.plan.layout stage with
  | none => exact Or.inl rfl
  | some source =>
      exact Or.inr (standing.slot_present playable known owned found (fed source found))

/-- Nothing is ever put off: in front of an operation its time has come. -/
theorem ready (playable : Playable task.plan task.rank task.script)
    (standing : Standing task seen behind (operation :: after) limiter attempt) :
    attempt.isReady task.plan task.rank limiter operation = true := by
  obtain ⟨count, pending, balance⟩ := standing.pending
  cases playable.supplied behind operation after standing.script with
  | pass way stage microbatch known owned inside fed room own =>
      have entry := standing.entry_ready playable known owned fed
      cases way with
      | forward =>
          have room := room rfl
          -- Forwards pending are those behind less the backwards behind: the plan keeps them few.
          have admits : limiter.admits task.rank = true := by
            rw [Limiter.admits_iff pending, standing.limit]
            omega
          have first : task.plan.layout.isFirst stage = true ∨
              attempt.inbox.has ⟨.activation, stage.logical, microbatch⟩ = true :=
            entry.imp_left fun none => by
              simpa [Layout.isFirst] using Layout.prev_eq_none.mp none
          simpa [Way.pass, Attempt.isReady, admits] using first
      | backward =>
          have forwarded : (stage.logical, microbatch) ∈ attempt.forwarded := by
            rw [standing.forwarded, List.mem_reverse]
            exact (playable.entered_iff standing.script known).mpr (own rfl)
          have last : task.plan.layout.isLast stage = true ∨
              attempt.inbox.has ⟨.gradient, stage.logical, microbatch⟩ = true :=
            entry.imp_left fun none => by
              simpa [Layout.isLast] using Layout.next_eq_none.mp none
          simpa [Way.pass, Attempt.isReady, forwarded] using last
  | weights stage microbatch known owned inside fed split =>
      have backwarded : (stage.logical, microbatch) ∈ attempt.backwarded := by
        rw [standing.backwarded, List.mem_reverse]
        exact (playable.entered_iff standing.script known).mpr fed
      simpa [Attempt.isReady] using backwarded
  | receive => rfl
  | send way stage target microbatch known owned inside found away fed =>
      refine standing.outbox _ ⟨_, fed, ?_⟩ (playable.unshipped standing.script)
      rw [Operation.exports?_pass, Way.exports?, found, Option.bind_some, if_neg away]
  | optimizer all weights =>
      have forwards := all .forward
      have backwards := all .backward
      -- All forwards and all backwards are behind, so nothing is pending.
      have none : count = 0 := by omega
      have split : task.plan.split = false ∨ attempt.weighted = task.plan.passesPerRank := by
        cases split : task.plan.split with
        | false => exact Or.inl rfl
        | true => exact Or.inr (standing.weighted.trans (weights split))
      simpa [Attempt.isReady, standing.forwarded, standing.backwarded, forwards, backwards,
        Limiter.pendingOn, pending, none] using split
  | sync fed => exact standing.fingerprint fed

/-- The input of a forward is at hand and is the right one. -/
theorem forwardInput (playable : Playable task.plan task.rank task.script) {stage : StageId}
    {microbatch : Nat}
    (standing : Standing task seen behind (.forward stage microbatch :: after) limiter attempt)
    (known : task.plan.layout.IsStage stage) (owned : task.plan.layout.rankOf stage = task.rank)
    (fed : ∀ source, Way.forward.source task.plan.layout stage = some source →
      Way.forward.inflow task.plan.layout task.rank source stage microbatch ∈ behind) :
    ∃ input inputs, Attempt.forwardInput task.plan.layout task.rank
        { attempt with remaining := after } stage microbatch =
      .ok (input, { attempt with
        remaining := after
        inbox := attempt.inbox.withoutAt (Way.forward.drains? task.plan.layout stage microbatch)
        inputs := inputs }) ∧
      Fitting task.plan.layout seen task.iteration task.inputs .forward stage microbatch input ∧
      ∀ other, (∀ first, task.plan.layout.prev first = none →
          Way.forward.pass stage microbatch ≠ .forward first other) →
        (inputs[other]?).join = (attempt.inputs[other]?).join := by
  cases found : Way.forward.source task.plan.layout stage with
  | none =>
      have first : task.plan.layout.isFirst stage = true := by
        simpa [Layout.isFirst] using Layout.prev_eq_none.mp found
      refine ⟨given task.inputs microbatch, attempt.inputs.set microbatch none, ?_, ?_, ?_⟩
      · have handed := standing.inputs microbatch fun other otherFirst member => by
          have listed : Way.forward.pass other microbatch ∈ task.script := by
            rw [standing.script]
            exact List.mem_append_left _ member
          have logical := (Layout.prev_eq_none.mp otherFirst).trans
            (Layout.prev_eq_none.mp found).symm
          obtain rfl := (playable.known_pass listed).1.eq_of_logical known logical
          exact playable.not_before standing.script member
        simp [Attempt.forwardInput, first, Attempt.takeInput, handed, Way.drains?, found,
          Shelf.withoutAt]
      · simp [Fitting, found]
      · intro other different
        have apart : microbatch ≠ other := fun same =>
          different stage found (congrArg (Operation.forward stage) same)
        rw [List.getElem?_set_ne apart]
  | some source =>
      have present := standing.slot_present playable known owned found (fed source found)
      obtain ⟨value, taken, member⟩ := Shelf.take?_of_has present
      have returned := (standing.inboxMeant _ _ member).returned known found
      have later : task.plan.layout.isFirst stage = false := by
        have notFirst := (Layout.prev_eq_some.mp found).1
        simpa [Layout.isFirst] using notFirst
      refine ⟨some value, attempt.inputs, ?_, ?_, fun _ _ => rfl⟩
      · have taken' : attempt.inbox.take? ⟨.activation, stage.logical, microbatch⟩ = _ := taken
        simp [Attempt.forwardInput, later, taken', Way.drains?, found, Shelf.withoutAt, Way.kind]
      · simp [Fitting, found, returned]

theorem backwardInput (playable : Playable task.plan task.rank task.script) {stage : StageId}
    {microbatch : Nat}
    (standing : Standing task seen behind (.backward stage microbatch :: after) limiter attempt)
    (known : task.plan.layout.IsStage stage) (owned : task.plan.layout.rankOf stage = task.rank)
    (fed : ∀ source, Way.backward.source task.plan.layout stage = some source →
      Way.backward.inflow task.plan.layout task.rank source stage microbatch ∈ behind) :
    ∃ gradient, Attempt.backwardInput task.plan.layout task.rank
        { attempt with remaining := after } stage microbatch =
      .ok (gradient, { attempt with
        remaining := after
        inbox := attempt.inbox.withoutAt
          (Way.backward.drains? task.plan.layout stage microbatch) }) ∧
      Fitting task.plan.layout seen task.iteration task.inputs .backward stage microbatch
        gradient := by
  cases found : Way.backward.source task.plan.layout stage with
  | none =>
      have last : task.plan.layout.isLast stage = true := by
        simpa [Layout.isLast] using Layout.next_eq_none.mp found
      refine ⟨none, ?_, ?_⟩
      · simp [Attempt.backwardInput, last, Way.drains?, found, Shelf.withoutAt]
      · simp [Fitting, found]
  | some source =>
      have present := standing.slot_present playable known owned found (fed source found)
      obtain ⟨value, taken, member⟩ := Shelf.take?_of_has present
      have returned := (standing.inboxMeant _ _ member).returned known found
      have earlier : task.plan.layout.isLast stage = false := by
        have notLast := (Layout.next_eq_some.mp found).1
        simpa [Layout.isLast] using notLast
      refine ⟨some value, ?_, ?_⟩
      · have taken' : attempt.inbox.take? ⟨.gradient, stage.logical, microbatch⟩ = _ := taken
        simp [Attempt.backwardInput, earlier, taken', Way.drains?, found, Shelf.withoutAt, Way.kind]
      · simp [Fitting, found, returned]

theorem unentered (playable : Playable task.plan task.rank task.script) {way : Way}
    {stage : StageId} {microbatch : Nat}
    (standing : Standing task seen behind (way.pass stage microbatch :: after) limiter attempt)
    (known : task.plan.layout.IsStage stage) :
    (stage.logical, microbatch) ∉ (behind.filterMap way.key?).reverse := by
  rw [List.mem_reverse, playable.entered_iff standing.script known]
  exact playable.not_before standing.script

end Standing
end PipelineTraining
