import PipelineTraining.Proofs.Engine.Trial
import PipelineTraining.Proofs.Engine.Turns
import PipelineTraining.Proofs.Transport.Tags

/-!
One operation further. In front of an operation an attempt can take it up, and the
answer that the operation takes brings the attempt behind it.
-/

namespace PipelineTraining

variable {α : Type} {task : Task α} {seen later : List (Sighting α)}
  {behind after : List Operation} {operation : Operation} {limiter taking served : Limiter}
  {attempt taken done : Attempt α} {exchange : Option (Exchange α)}

/-- What is known of an answer: which pass a value came back from, and that a payload is the
result that it is meant to be. -/
structure Vouched (task : Task α) (seen : List (Sighting α)) (operation : Operation)
    (exchange : Option (Exchange α)) : Prop where
  forward : ∀ stage microbatch input value,
    exchange = some ⟨.forward stage microbatch input, .ok value⟩ →
    Returned task.plan.layout seen task.iteration .forward stage microbatch value
  backward : ∀ stage microbatch gradient value,
    exchange = some ⟨.backward stage microbatch gradient, .ok value⟩ →
    Returned task.plan.layout seen task.iteration .backward stage microbatch value
  receive : ∀ peer transfer tag payload, operation = .receive peer transfer →
    exchange = some ⟨.receive peer tag, .ok payload⟩ →
    Meant task.plan.layout seen task.iteration transfer.entry payload

def Exchange.bears : Exchange α → Bool
  | ⟨.forward .., .ok _⟩ => true
  | ⟨.backward .., .ok _⟩ => true
  | ⟨.receive .., .ok _⟩ => true
  | _ => false

theorem Vouched.of_bare (bare : ∀ made, exchange = some made → made.bears = false) :
    Vouched task seen operation exchange := by
  have absent : ∀ {made : Exchange α}, made.bears = true → exchange ≠ some made := by
    intro made bears same
    rw [bare _ same] at bears
    cases bears
  exact ⟨fun _ _ _ _ same => absurd same (absent rfl), fun _ _ _ _ same => absurd same (absent rfl),
    fun _ _ _ _ _ same => absurd same (absent rfl)⟩

def Attempt.counted (attempt : Attempt α) : Attempt α :=
  { attempt with executed := attempt.executed + 1 }

theorem Run.attemptInputs_given (run : Run α) (microbatch : Nat) :
    (run.attemptInputs[microbatch]?).join = given run.inputs microbatch := by
  unfold attemptInputs
  cases run.inputs with
  | none =>
      simp only [given, Option.bind_none, List.getElem?_replicate]
      split <;> rfl
  | some inputs =>
      simp only [given, Option.bind_some, List.getElem?_map]
      cases inputs[microbatch]? <;> rfl

namespace Standing

theorem pending_pos (playable : Playable task.plan task.rank task.script) {stage : StageId}
    {microbatch : Nat}
    (standing : Standing task seen behind (.backward stage microbatch :: after) limiter attempt) :
    ∃ count, limiter.pending[task.rank]? = some (count + 1) := by
  obtain ⟨count, pending, balance⟩ := standing.pending
  -- A backward takes one off the forwards pending, and there is one.
  have fewer := playable.backwards_lt standing.script
  exact ⟨count - 1, by rw [pending]; congr 1; omega⟩

theorem takes (playable : Playable task.plan task.rank task.script)
    (tagged : task.plan.layout.Tagged task.plan.microbatches)
    (standing : Standing task seen behind (operation :: after) limiter attempt) :
    ∃ taking taken, Taken task.plan task.rank limiter { attempt with remaining := after } operation
      taking taken := by
  have ready := standing.ready playable
  cases playable.supplied behind operation after standing.script with
  | pass way stage microbatch known owned inside fed room own =>
      cases way with
      | forward =>
          obtain ⟨input, inputs, found, _⟩ := standing.forwardInput playable known owned fed
          obtain ⟨count, pending, balance⟩ := standing.pending
          have below : count < limiter.limit := by
            have room := room rfl
            rw [standing.limit]
            omega
          obtain ⟨admitted, admits, _⟩ := Limiter.admit?_of_room pending below
          exact ⟨_, _, .forward found admits⟩
      | backward =>
          obtain ⟨gradient, found, _⟩ := standing.backwardInput playable known owned fed
          exact ⟨_, _, .backward found⟩
  | weights => exact ⟨_, _, .weights⟩
  | receive way source stage microbatch known owned inside found away =>
      have many := (way.isStage_source known found).many_of_apart known (by rwa [owned])
      exact ⟨_, _, .receive (way.tag_transfer tagged many source known inside _)⟩
  | send way stage target microbatch known owned inside found away fed =>
      obtain ⟨payload, laid, _⟩ := Shelf.take?_of_has ready
      have targetKnown := way.isStage_target known found
      have many := targetKnown.many_of_apart known (by rwa [owned])
      exact ⟨_, _, .send laid (way.tag_transfer tagged many stage targetKnown inside _)⟩
  | optimizer => exact ⟨_, _, .optimizer⟩
  | sync => exact ⟨_, _, .sync ready⟩

theorem advance_forward (playable : Playable task.plan task.rank task.script) {stage : StageId}
    {microbatch : Nat} {input : Option α} {value : α} (more : seen ⊆ later)
    (standing : Standing task seen behind (.forward stage microbatch :: after) limiter attempt)
    (known : task.plan.layout.IsStage stage) (owned : task.plan.layout.rankOf stage = task.rank)
    (fed : ∀ source, Way.forward.source task.plan.layout stage = some source →
      Way.forward.inflow task.plan.layout task.rank source stage microbatch ∈ behind)
    (taken_eq : Attempt.forwardInput task.plan.layout task.rank
      { attempt with remaining := after } stage microbatch = .ok (input, taken))
    (admits : limiter.admit? task.rank = some taking)
    (returned : Returned task.plan.layout later task.iteration .forward stage microbatch value) :
    Standing task later (behind ++ [.forward stage microbatch]) after taking
      (({ taken with
          forwarded := Attempt.insertOnce (stage.logical, microbatch) taken.forwarded } :
        Attempt α).passOn task.plan.layout task.rank stage microbatch value).counted := by
  obtain ⟨_, inputs, found, _, kept⟩ := standing.forwardInput playable known owned fed
  rw [found] at taken_eq
  obtain ⟨_, rfl⟩ := Prod.mk.inj (Except.ok.inj taken_eq)
  -- The pass was not entered before, so entering it adds it.
  have unentered : (stage.logical, microbatch) ∉ attempt.forwarded :=
    standing.forwarded ▸ standing.unentered playable known
  have rest : after = attempt.remaining.tail := by rw [standing.remaining, List.tail_cons]
  rw [Attempt.passOn_eq]
  refine standing.snoc more (Moved.pass known returned rest rfl rfl rfl rfl ?_ rfl rfl
    (Limiter.alike_admit admits).limit ?_ rfl kept rfl ?_ rfl)
  · simp [Attempt.counted, Attempt.insertOnce, unentered, Way.key?, Way.pass]
  · exact fun count found => ⟨_, Limiter.pending_admit found admits, rfl⟩
  · exact (List.append_nil _).symm

theorem advance_backward (playable : Playable task.plan task.rank task.script) {stage : StageId}
    {microbatch : Nat} {gradient : Option α} {value : α} (more : seen ⊆ later)
    (standing : Standing task seen behind (.backward stage microbatch :: after) limiter attempt)
    (known : task.plan.layout.IsStage stage) (owned : task.plan.layout.rankOf stage = task.rank)
    (fed : ∀ source, Way.backward.source task.plan.layout stage = some source →
      Way.backward.inflow task.plan.layout task.rank source stage microbatch ∈ behind)
    (taken_eq : Attempt.backwardInput task.plan.layout task.rank
      { attempt with remaining := after } stage microbatch = .ok (gradient, taken))
    (completes : limiter.complete task.rank = .ok served)
    (returned : Returned task.plan.layout later task.iteration .backward stage microbatch value) :
    Standing task later (behind ++ [.backward stage microbatch]) after served
      (({ taken with
          backwarded := Attempt.insertOnce (stage.logical, microbatch) taken.backwarded } :
        Attempt α).passBack task.plan.layout task.rank stage microbatch value).counted := by
  obtain ⟨_, found, _⟩ := standing.backwardInput playable known owned fed
  rw [found] at taken_eq
  obtain ⟨_, rfl⟩ := Prod.mk.inj (Except.ok.inj taken_eq)
  have unentered : (stage.logical, microbatch) ∉ attempt.backwarded :=
    standing.backwarded ▸ standing.unentered playable known
  obtain ⟨rest, pending, counted⟩ := Limiter.pending_complete completes
  have rest : after = attempt.remaining.tail := by rw [standing.remaining, List.tail_cons]
  rw [Attempt.passBack_eq]
  refine standing.snoc more (Moved.pass known returned rest rfl rfl rfl rfl rfl ?_ rfl
    (Limiter.alike_complete completes).limit ?_ rfl ?_ ?_ rfl rfl)
  · simp [Attempt.counted, Attempt.insertOnce, unentered, Way.key?, Way.pass]
  · intro count found
    obtain rfl := Option.some.inj (found.symm.trans pending)
    exact ⟨_, counted, rfl⟩
  · exact fun _ _ => rfl
  · exact (List.append_nil _).symm

theorem advance_plain (more : seen ⊆ later)
    (plain : ∀ (way : Way) stage microbatch, operation ≠ way.pass stage microbatch)
    (standing : Standing task seen behind (operation :: after) limiter attempt)
    (takes : Taken task.plan task.rank limiter { attempt with remaining := after } operation taking
      taken)
    (serves : Served task.plan.layout task.rank taking taken operation exchange served done)
    (vouched : Vouched task later operation exchange) :
    Standing task later (behind ++ [operation]) after served done.counted := by
  have rest : after = attempt.remaining.tail := by rw [standing.remaining, List.tail_cons]
  cases serves with
  | @forward stage microbatch => exact absurd rfl (plain .forward stage microbatch)
  | @backward stage microbatch => exact absurd rfl (plain .backward stage microbatch)
  | weights =>
      cases takes
      refine standing.snoc more ?_
      subst rest
      exact Moved.plain plain (fun _ present => present) (fun _ filled => by cases filled)
        (fun _ _ member => Or.inl member) (fun _ _ present => present) (fun _ member => member) rfl
        (fun signed => signed.resolve_left (by simp))
  | @send peer transfer =>
      cases takes with
      | send laid _ =>
        obtain rfl := Shelf.take?_rest laid
        refine standing.snoc more ?_
        subst rest
        exact Moved.plain plain (fun _ present => present) (fun _ filled => by cases filled)
          (fun _ _ member => Or.inl member)
          (fun other unshipped present =>
            Shelf.has_without (fun same => unshipped (congrArg some same.symm)) present)
          (fun _ member => (Shelf.mem_without.mp member).1) rfl
          (fun signed => signed.resolve_left (by simp))
  | @receive peer transfer tag payload =>
      cases takes
      refine standing.snoc more ?_
      subst rest
      refine Moved.plain plain (fun _ present => Shelf.has_put_of_has payload present) ?_ ?_
        (fun _ _ present => present) (fun _ member => member) rfl
        (fun signed => signed.resolve_left (by simp))
      · intro slot filled
        obtain rfl := Option.some.inj filled
        exact Shelf.has_put_self _ _ _
      · intro slot stored member
        rcases Shelf.mem_put.mp member with same | ⟨old, _⟩
        · obtain ⟨rfl, rfl⟩ := Prod.mk.inj same
          exact Or.inr (vouched.receive peer transfer tag _ rfl rfl)
        · exact Or.inl old
  | optimizer =>
      cases takes
      refine standing.snoc more ?_
      subst rest
      exact Moved.plain plain (fun _ present => present) (fun _ filled => by cases filled)
        (fun _ _ member => Or.inl member) (fun _ _ present => present) (fun _ member => member) rfl
        (fun _ => rfl)
  | sync | gather =>
      cases takes
      refine standing.snoc more ?_
      subst rest
      exact Moved.plain plain (fun _ present => present) (fun _ filled => by cases filled)
        (fun _ _ member => Or.inl member) (fun _ _ present => present) (fun _ member => member) rfl
        (fun signed => signed.resolve_left (by simp))

theorem advance (playable : Playable task.plan task.rank task.script) (more : seen ⊆ later)
    (standing : Standing task seen behind (operation :: after) limiter attempt)
    (takes : Taken task.plan task.rank limiter { attempt with remaining := after } operation taking
      taken)
    (serves : Served task.plan.layout task.rank taking taken operation exchange served done)
    (vouched : Vouched task later operation exchange) :
    Standing task later (behind ++ [operation]) after served done.counted := by
  cases playable.supplied behind operation after standing.script with
  | pass way stage microbatch known owned inside fed room own =>
      cases way with
      | forward =>
          cases takes with
          | forward found admits =>
            cases serves with
            | forward =>
              exact standing.advance_forward playable more known owned fed found admits
                (vouched.forward _ _ _ _ rfl)
      | backward =>
          cases takes with
          | backward found =>
            cases serves with
            | backward completes =>
              exact standing.advance_backward playable more known owned fed found completes
                (vouched.backward _ _ _ _ rfl)
  | weights | send | receive | optimizer | sync =>
      refine standing.advance_plain more (fun way stage microbatch => ?_) takes serves vouched
      cases way <;> exact Operation.noConfusion

theorem cleared {run : Run α} {guard : Option Guard}
    (scripted : run.worker.operations = task.script)
    (limited : run.worker.limiter.limit = task.plan.memoryLimit)
    (tracked : task.rank < run.worker.limiter.pending.length)
    (iteration : run.iteration = task.iteration) (inputs : run.inputs = task.inputs)
    (retry : (guard.map Guard.attempts).getD 0 = task.retry) :
    Standing task seen [] task.script run.worker.limiter.reset
      (.start (run.epoch guard) run.attemptInputs run.worker.operations) := by
  rw [Run.epoch, iteration, retry, scripted]
  refine Standing.start task.script rfl limited (Limiter.pending_reset tracked) fun microbatch => ?_
  rw [run.attemptInputs_given, inputs]

end Standing
end PipelineTraining
