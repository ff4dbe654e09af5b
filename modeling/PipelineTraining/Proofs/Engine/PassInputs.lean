import PipelineTraining.Proofs.Engine.Driving
import PipelineTraining.Proofs.Engine.SingleRankProgress

/-!
What passes are handed on a single rank. Each is handed what the pass before it returned,
in whatever order they are run, so that where results depend on nothing else the calls of an
attempt are determined by its operations.
-/

namespace PipelineTraining

variable {σ α : Type}

namespace Way

def call : Way → StageId → Nat → Option α → Except String α → Exchange α
  | .forward => fun stage microbatch input answer => ⟨.forward stage microbatch input, answer⟩
  | .backward => fun stage microbatch input answer => ⟨.backward stage microbatch input, answer⟩

def opening : Way → Option (List α) → Nat → Option α
  | .forward => given
  | .backward => fun _ _ => none

def input (way : Way) (layout : Layout) (rank : Nat) (attempt : Attempt α) :
    StageId → Nat → Except Fault (Option α × Attempt α) :=
  match way with
  | .forward => attempt.forwardInput layout rank
  | .backward => attempt.backwardInput layout rank

end Way

namespace Callbacks

def pass (callbacks : Callbacks σ α) :
    Way → σ → StageId → Nat → Option α → σ × Except String α
  | .forward => callbacks.forward
  | .backward => callbacks.backward

/-- Results that depend on nothing but the stage, the micro-batch and what is handed in. -/
structure Stateless (callbacks : Callbacks σ α) : Prop where
  pass : ∀ way own other stage microbatch input,
    (callbacks.pass way own stage microbatch input).2 =
      (callbacks.pass way other stage microbatch input).2
  optimize : ∀ own other, (callbacks.optimize own).2 = (callbacks.optimize other).2

inductive Hands (callbacks : Callbacks σ α) (layout : Layout) (inputs : Option (List α)) :
    Way → StageId → Nat → Option α → Prop
  | first {way : Way} {stage : StageId} {microbatch : Nat}
      (opens : way.source layout stage = none) :
      Hands callbacks layout inputs way stage microbatch (way.opening inputs microbatch)
  | next {way : Way} {stage source : StageId} {microbatch : Nat} {input : Option α} {own : σ}
      {value : α} (found : way.source layout stage = some source)
      (before : Hands callbacks layout inputs way source microbatch input)
      (returned : (callbacks.pass way own source microbatch input).2 = .ok value) :
      Hands callbacks layout inputs way stage microbatch (some value)

/-- An exchange with the callbacks in which a pass is handed what it has to be. -/
structure Relays (callbacks : Callbacks σ α) (layout : Layout) (inputs : Option (List α))
    (made : Exchange α) : Prop where
  answered : made.From callbacks.alone
  handed : ∀ (way : Way) stage microbatch input answer,
    made = way.call stage microbatch input answer →
      callbacks.Hands layout inputs way stage microbatch input

variable {callbacks : Callbacks σ α} {layout : Layout} {inputs : Option (List α)} {way : Way}
  {stage : StageId} {microbatch : Nat} {input other : Option α}

theorem Hands.unique (stateless : callbacks.Stateless)
    (hands : callbacks.Hands layout inputs way stage microbatch input)
    (others : callbacks.Hands layout inputs way stage microbatch other) : input = other := by
  induction hands generalizing other with
  | first opens =>
      cases others with
      | first => rfl
      | next found =>
          rw [opens] at found
          cases found
  | @next stage source microbatch input own value found before returned ih =>
      cases others with
      | first opens =>
          rw [opens] at found
          cases found
      | next again earlier answered =>
          obtain rfl := Option.some.inj (found.symm.trans again)
          obtain rfl := ih earlier
          rw [stateless.pass way own _, answered] at returned
          exact congrArg some (Except.ok.inj returned.symm)

end Callbacks

theorem Exchange.From.pass {callbacks : Callbacks σ α} {way : Way} {stage : StageId}
    {microbatch : Nat} {input : Option α} {answer : Except String α}
    (answered : (way.call stage microbatch input answer).From callbacks.alone) :
    ∃ own, (callbacks.pass way own stage microbatch input).2 = answer := by
  obtain ⟨own, same⟩ := answered
  cases way <;> exact ⟨own, same.symm⟩

structure Callbacks.Feeds (callbacks : Callbacks σ α) (layout : Layout)
    (inputs : Option (List α)) (past : List Operation) (attempt : Attempt α) : Prop where
  inbox : ∀ (way : Way) stage microbatch value, layout.IsStage stage →
    (⟨way.kind, stage.logical, microbatch⟩, value) ∈ attempt.inbox →
      callbacks.Hands layout inputs way stage microbatch (some value)
  inputs : ∀ microbatch,
    (∀ stage, layout.IsStage stage → layout.prev stage = none →
      .forward stage microbatch ∉ past) →
    (attempt.inputs[microbatch]?).join = given inputs microbatch

namespace Callbacks.Feeds

variable {callbacks : Callbacks σ α} {layout : Layout} {inputs : Option (List α)}
  {past more : List Operation} {attempt taken : Attempt α} {way : Way} {stage : StageId}
  {microbatch rank : Nat} {input : Option α} {own : σ} {value : α}

theorem start (epoch : UInt32) (operations : List Operation) {handed : List (Option α)}
    (same : ∀ microbatch, (handed[microbatch]?).join = given inputs microbatch) :
    callbacks.Feeds layout inputs [] (.start epoch handed operations) :=
  ⟨fun _ _ _ _ _ member => (List.not_mem_nil member).elim, fun microbatch _ => same microbatch⟩

/-- Neither the order of what is to come nor what is past of other kinds matters. -/
theorem mono (feeds : callbacks.Feeds layout inputs past attempt) (grows : past ⊆ more)
    (inbox : taken.inbox = attempt.inbox) (same : taken.inputs = attempt.inputs) :
    callbacks.Feeds layout inputs more taken := by
  refine ⟨fun way stage microbatch value known member => ?_, fun microbatch untaken => ?_⟩
  · rw [inbox] at member
    exact feeds.inbox way stage microbatch value known member
  · rw [same]
    exact feeds.inputs microbatch fun stage known opens member =>
      untaken stage known opens (grows member)

/-- A pass that was not taken up before takes what it has to be handed. -/
theorem take (feeds : callbacks.Feeds layout inputs past attempt) (known : layout.IsStage stage)
    (fresh : way.pass stage microbatch ∉ past)
    (found : way.input layout rank attempt stage microbatch = .ok (input, taken)) :
    callbacks.Hands layout inputs way stage microbatch input ∧
      callbacks.Feeds layout inputs (past ++ [way.pass stage microbatch]) taken := by
  have grows : past ⊆ past ++ [way.pass stage microbatch] := List.subset_append_left _ _
  -- What comes from a slot was put there for the pass.
  have slotted : ∀ {payload rest}, attempt.inbox.take? ⟨way.kind, stage.logical, microbatch⟩ =
      some (payload, rest) → callbacks.Hands layout inputs way stage microbatch (some payload) ∧
        callbacks.Feeds layout inputs (past ++ [way.pass stage microbatch])
          { attempt with inbox := rest } := by
    intro payload rest laid
    obtain ⟨_, stored, same⟩ := Option.map_eq_some_iff.mp laid
    obtain ⟨rfl, rfl⟩ := Prod.mk.inj same
    obtain ⟨before, after, split, _⟩ := List.lookup_eq_some_iff.mp stored
    refine ⟨feeds.inbox way stage microbatch _ known ?_, fun other place micro value held member =>
      feeds.inbox other place micro value held (Shelf.mem_without.mp member).1, ?_⟩
    · rw [split]
      exact List.mem_append_right _ List.mem_cons_self
    · exact fun micro untaken => feeds.inputs micro fun place held opens member =>
        untaken place held opens (grows member)
  cases way with
  | forward =>
      change attempt.forwardInput layout rank stage microbatch = _ at found
      unfold Attempt.forwardInput at found
      split at found
      · next first =>
        obtain ⟨rfl, rfl⟩ := Prod.mk.inj (Except.ok.inj found)
        have opens : Way.forward.source layout stage = none :=
          Layout.prev_eq_none.mpr (by simpa [Layout.isFirst] using first)
        have handed : (attempt.inputs[microbatch]?).join = given inputs microbatch := by
          refine feeds.inputs microbatch fun other otherKnown otherOpens member => ?_
          obtain rfl := known.eq_of_logical otherKnown
            ((Layout.prev_eq_none.mp opens).trans (Layout.prev_eq_none.mp otherOpens).symm)
          exact fresh member
        refine ⟨handed ▸ .first opens, feeds.inbox, fun other untaken => ?_⟩
        have apart : microbatch ≠ other := by
          rintro rfl
          exact untaken stage known opens (List.mem_append_right _ List.mem_cons_self)
        rw [List.getElem?_set_ne apart]
        exact feeds.inputs other fun place held opens member =>
          untaken place held opens (grows member)
      · split at found
        · next laid =>
          obtain ⟨rfl, rfl⟩ := Prod.mk.inj (Except.ok.inj found)
          exact slotted laid
        · cases found
  | backward =>
      change attempt.backwardInput layout rank stage microbatch = _ at found
      unfold Attempt.backwardInput at found
      split at found
      · next last =>
        obtain ⟨rfl, rfl⟩ := Prod.mk.inj (Except.ok.inj found)
        have opens : Way.backward.source layout stage = none :=
          Layout.next_eq_none.mpr (by simpa [Layout.isLast] using last)
        exact ⟨.first opens, feeds.mono grows rfl rfl⟩
      · split at found
        · next laid =>
          obtain ⟨rfl, rfl⟩ := Prod.mk.inj (Except.ok.inj found)
          exact slotted laid
        · cases found

theorem put (feeds : callbacks.Feeds layout inputs past attempt) (known : layout.IsStage stage)
    (handed : callbacks.Hands layout inputs way stage microbatch input)
    (returned : (callbacks.pass way own stage microbatch input).2 = .ok value)
    (inbox : taken.inbox = attempt.inbox.putAt (way.fills? layout rank stage microbatch) value)
    (same : taken.inputs = attempt.inputs) : callbacks.Feeds layout inputs past taken := by
  refine ⟨fun other place micro stored held member => ?_, ?_⟩
  · rw [inbox] at member
    rcases Shelf.mem_putAt member with old | ⟨filled, rfl⟩
    · exact feeds.inbox other place micro stored held old
    · obtain ⟨target, found, here⟩ := Option.bind_eq_some_iff.mp filled
      split at here
      · obtain ⟨kind, logical, rfl⟩ := Slot.mk.inj (Option.some.inj here)
        obtain rfl := Way.kind_inj kind
        obtain rfl := (way.isStage_target known found).eq_of_logical held logical
        exact .next (way.source_of_target known found) handed returned
      · cases here
  · rw [same]
    exact feeds.inputs

end Callbacks.Feeds

def Phase.handed? : Phase α → Option (Option α)
  | .forwarding _ _ _ _ input => some input
  | .backwarding _ _ _ _ gradient => some gradient
  | _ => none

def Drain.exchanges (turns : List (Run α × Option (Exchange α))) : List (Exchange α) :=
  turns.filterMap Prod.snd

variable {plan : Plan} {operations behind : List Operation} {operation : Operation}
  {turns : List (Run α × Option (Exchange α))} {begun run next : Run α} {trial onward : Trial α}
  {exchange : Option (Exchange α)} {guard : Option Guard} {attempt taken : Attempt α} {way : Way}
  {stage : StageId} {microbatch : Nat} {input : Option α} {answer : Except String α}

theorem Drain.exchanges_snoc : exchanges (turns ++ [(run, exchange)]) =
    exchanges turns ++ exchange.toList := by
  unfold exchanges
  cases exchange <;> simp

theorem Picked.keeps {ready : Operation → Bool} {picked : Attempt α}
    (picks : Picked ready attempt operation picked) :
    picked.inbox = attempt.inbox ∧ picked.inputs = attempt.inputs := by
  cases picks <;> exact ⟨rfl, rfl⟩

/-- Taking a pass up is done with the input that waits for it. -/
theorem Run.handed_of_take
    (shown : (run.take guard attempt (way.pass stage microbatch)).phase.trial? = some trial) :
    ∃ input taken,
      way.input run.worker.plan.layout run.worker.rank attempt stage microbatch =
          .ok (input, taken) ∧
        (run.take guard attempt (way.pass stage microbatch)).phase.handed? = some input ∧
        trial.attempt = taken := by
  have idle : ∀ fault, (run.abort guard fault).phase.trial? = none :=
    fun fault => (resting_abort run guard fault).idle
  cases way with
  | forward =>
      cases found :
          attempt.forwardInput run.worker.plan.layout run.worker.rank stage microbatch with
      | error fault =>
          simp only [Way.pass, take, startForward, found, idle] at shown
          cases shown
      | ok given =>
          cases admitted : run.worker.limiter.admit? run.worker.rank with
          | none =>
              simp only [Way.pass, take, startForward, found, admitted, idle] at shown
              cases shown
          | some limiter =>
              simp only [Way.pass, take, startForward, found, admitted] at shown ⊢
              obtain rfl := Option.some.inj shown
              exact ⟨_, _, found, rfl, rfl⟩
  | backward =>
      cases found :
          attempt.backwardInput run.worker.plan.layout run.worker.rank stage microbatch with
      | error fault =>
          simp only [Way.pass, take, startBackward, found, idle] at shown
          cases shown
      | ok given =>
          simp only [Way.pass, take, startBackward, found] at shown ⊢
          obtain rfl := Option.some.inj shown
          exact ⟨_, _, found, rfl, rfl⟩

theorem Stride.handed (shown : run.phase.trial? = some trial)
    (stride : Stride run (some (way.call stage microbatch input answer)) next) :
    trial.hand = some (way.pass stage microbatch) ∧ run.phase.handed? = some input := by
  have hand : run.inHand? = some (way.pass stage microbatch) := by
    cases way <;> exact stride.inHand rfl rfl
  rw [Run.inHand?, shown] at hand
  refine ⟨hand, ?_⟩
  cases phase : run.phase with
  | forwarding guard attempt stage microbatch input =>
      obtain ⟨answer, same, _⟩ := stride.of_ask (by simp only [Run.turn, phase]; rfl)
      cases way <;> cases same
      rfl
  | backwarding guard attempt stage microbatch gradient =>
      obtain ⟨answer, same, _⟩ := stride.of_ask (by simp only [Run.turn, phase]; rfl)
      cases way <;> cases same
      rfl
  | _ =>
      rw [phase] at shown
      cases shown <;> cases way <;> cases hand

structure Relayed (callbacks : Callbacks σ α) (layout : Layout) (inputs : Option (List α))
    (turns : List (Run α × Option (Exchange α))) (run : Run α) (trial : Trial α) : Prop where
  feeds : callbacks.Feeds layout inputs (Drain.taken turns) trial.attempt
  handed : ∀ (way : Way) stage microbatch input, trial.hand = some (way.pass stage microbatch) →
    run.phase.handed? = some input → callbacks.Hands layout inputs way stage microbatch input
  relays : ∀ made ∈ Drain.exchanges turns, callbacks.Relays layout inputs made

namespace Relayed

variable {callbacks : Callbacks σ α} {inputs : Option (List α)}

theorem relays_snoc {layout : Layout} (relayed : Relayed callbacks layout inputs turns run trial)
    (shown : run.phase.trial? = some trial) (stride : Stride run exchange next)
    (answered : ∀ made ∈ exchange, made.From callbacks.alone) :
    ∀ made ∈ Drain.exchanges (turns ++ [(run, exchange)]), callbacks.Relays layout inputs made := by
  intro made member
  rw [Drain.exchanges_snoc] at member
  rcases List.mem_append.mp member with old | new
  · exact relayed.relays made old
  · obtain rfl := Option.mem_toList.mp new
    refine ⟨answered made rfl, ?_⟩
    rintro way stage microbatch input answer rfl
    obtain ⟨held, handed⟩ := stride.handed shown
    exact relayed.handed way stage microbatch input held handed

theorem plain {layout : Layout} {later : List (Run α × Option (Exchange α))}
    (relayed : Relayed callbacks layout inputs turns run trial)
    (grows : Drain.taken turns ⊆ Drain.taken later)
    (inbox : onward.attempt.inbox = trial.attempt.inbox)
    (same : onward.attempt.inputs = trial.attempt.inputs)
    (other : ∀ way : Way, onward.hand.bind way.key? = none)
    (relays : ∀ made ∈ Drain.exchanges later, callbacks.Relays layout inputs made) :
    Relayed callbacks layout inputs later next onward := by
  refine ⟨relayed.feeds.mono grows inbox same, fun way stage microbatch input held => ?_, relays⟩
  have keyed := other way
  rw [held, Option.bind_some, way.key?_pass] at keyed
  cases keyed

theorem take (way : Way) (solitary : plan.Solitary operations)
    (fitted : Fitted plan 0 operations run.worker)
    (reckoning : Reckoning plan 0 operations turns behind run.worker.limiter trial)
    (relayed : Relayed callbacks plan.layout inputs turns run trial) (free : trial.hand = none)
    {picked : Attempt α} (picking : run.picks? = some (way.pass stage microbatch))
    (picks : Picked (trial.attempt.isReady run.worker.plan run.worker.rank run.worker.limiter)
      trial.attempt (way.pass stage microbatch) picked)
    (known : (run.take trial.guard picked (way.pass stage microbatch)).phase.trial? = some onward)
    (hand : onward.hand = some (way.pass stage microbatch)) :
    Relayed callbacks plan.layout inputs (turns ++ [(run, none)])
      (run.take trial.guard picked (way.pass stage microbatch)) onward := by
  obtain ⟨input, taken, found, handed, rfl⟩ := Run.handed_of_take known
  rw [fitted.planned, fitted.placed] at found
  have ahead := reckoning.ahead
  have waits : way.pass stage microbatch ∈ trial.ahead := by
    rw [Trial.ahead, free]
    exact picks.ahead.symm.subset List.mem_cons_self
  have held := solitary.holds_of_mem (ahead.subset (List.mem_append_right _ waits))
  have past : Drain.taken turns = behind := by
    rw [reckoning.taken, free, Option.toList_none, List.append_nil]
  have fresh : way.pass stage microbatch ∉ Drain.taken turns := by
    rw [past]
    exact solitary.not_behind ahead waits
  have before : callbacks.Feeds plan.layout inputs (Drain.taken turns) picked :=
    relayed.feeds.mono (List.Subset.refl _) picks.keeps.1 picks.keeps.2
  obtain ⟨hands, feeds⟩ := before.take held.1 fresh found
  refine ⟨?_, ?_, ?_⟩
  · rw [Drain.taken_snoc, picking]
    exact feeds
  · intro other place micro given pass here
    rw [hand] at pass
    obtain ⟨rfl, rfl, rfl⟩ := Way.pass_inj (Option.some.inj pass)
    obtain rfl := Option.some.inj (handed.symm.trans here)
    exact hands
  · rw [Drain.exchanges_snoc, Option.toList_none, List.append_nil]
    exact relayed.relays

theorem serve (way : Way) (solitary : plan.Solitary operations)
    (relayed : Relayed callbacks plan.layout inputs turns run trial)
    (shown : run.phase.trial? = some trial) {value : α}
    (stride : Stride run (some (way.call stage microbatch input (.ok value))) next)
    (listed : way.pass stage microbatch ∈ operations) (idle : run.choice? = none)
    (answered : (way.call stage microbatch input (.ok value)).From callbacks.alone)
    (inbox : onward.attempt.inbox =
      trial.attempt.inbox.putAt (way.fills? plan.layout 0 stage microbatch) value)
    (same : onward.attempt.inputs = trial.attempt.inputs) (free : onward.hand = none) :
    Relayed callbacks plan.layout inputs
      (turns ++ [(run, some (way.call stage microbatch input (.ok value)))]) next onward := by
  obtain ⟨held, handed⟩ := stride.handed shown
  obtain ⟨own, returned⟩ := answered.pass
  have hands := relayed.handed way stage microbatch input held handed
  have known := (solitary.holds_of_mem listed).1
  refine ⟨?_, ?_, relayed.relays_snoc shown stride ?_⟩
  · rw [Drain.taken_snoc, Run.picks?, idle, Option.toList_none, List.append_nil]
    exact relayed.feeds.put known hands returned inbox same
  · intro other place micro given pass
    rw [free] at pass
    cases pass
  · rintro made ⟨⟩
    exact answered

theorem stride_free (solitary : plan.Solitary operations)
    (fitted : Fitted plan 0 operations run.worker)
    (reckoning : Reckoning plan 0 operations turns behind run.worker.limiter trial)
    (relayed : Relayed callbacks plan.layout inputs turns run trial)
    (shown : run.phase.trial? = some trial) (held : trial.hand = none)
    (stride : Stride run exchange next) (answered : ∀ made ∈ exchange, made.From callbacks.alone)
    (known : next.phase.trial? = some onward) :
    Relayed callbacks plan.layout inputs (turns ++ [(run, exchange)]) next onward := by
  have relays := relayed.relays_snoc shown stride answered
  obtain ⟨rfl, looked⟩ := Run.looked shown held stride
  cases looked with
  | finish =>
      rw [Run.trial?_finish] at known
      cases known
  | stuck =>
      rw [(Run.resting_abort ..).idle] at known
      cases known
  | defer =>
      obtain rfl := Option.some.inj known
      exact relayed.plain Drain.taken_subset_snoc rfl rfl (fun _ => rfl) relays
  | @start operation picked _ picking _ picks starts begins =>
      have home := solitary.homely operation (reckoning.mem_of_picked picks)
      obtain ⟨inbox, inputs⟩ := picks.keeps
      cases starts with
      | take takes shows =>
          obtain rfl := Option.some.inj (shows.symm.trans known)
          cases takes with
          | @forward stage microbatch =>
              rw [begins] at known ⊢
              exact relayed.take .forward solitary fitted reckoning held picking picks known rfl
          | @backward stage microbatch =>
              rw [begins] at known ⊢
              exact relayed.take .backward solitary fitted reckoning held picking picks known rfl
          | send | receive => exact home.elim
          | weights | optimizer | sync =>
              exact relayed.plain Drain.taken_subset_snoc inbox inputs
                (fun way => by cases way <;> rfl) relays
      | pass syncs =>
          obtain rfl := Option.some.inj known
          exact relayed.plain Drain.taken_subset_snoc inbox inputs (fun _ => rfl) relays
      | refuse =>
          rw [(Run.resting_abort ..).idle] at known
          cases known

theorem stride_busy (solitary : plan.Solitary operations)
    (fitted : Fitted plan 0 operations run.worker)
    (reckoning : Reckoning plan 0 operations turns behind run.worker.limiter trial)
    (relayed : Relayed callbacks plan.layout inputs turns run trial)
    (shown : run.phase.trial? = some trial) (held : trial.hand = some operation)
    (stride : Stride run exchange next) (answered : ∀ made ∈ exchange, made.From callbacks.alone)
    (known : next.phase.trial? = some onward) :
    Relayed callbacks plan.layout inputs (turns ++ [(run, exchange)]) next onward := by
  have relays := relayed.relays_snoc shown stride answered
  have idle := Run.choice?_of_busy shown held
  have listed := reckoning.mem_of_held held
  have home := solitary.homely operation listed
  cases Run.tried shown stride with
  | finish free | defer free | take free | pass free =>
      rw [held] at free
      cases free
  | wait sync asked same _ =>
      obtain rfl := Option.some.inj (same.symm.trans known)
      refine relayed.plain Drain.taken_subset_snoc rfl rfl (fun way => ?_) relays
      rw [sync]
      cases way <;> rfl
  | serve holds serves =>
      obtain rfl := Option.some.inj (held.symm.trans holds)
      obtain rfl := Option.some.inj known
      rw [fitted.planned, fitted.placed] at serves
      cases serves with
      | @forward stage microbatch input value =>
          refine relayed.serve .forward solitary shown stride listed idle (answered _ rfl) ?_ ?_ rfl
          · rw [Attempt.passOn_eq]
          · rw [Attempt.passOn_eq]
      | @backward stage microbatch gradient value =>
          refine relayed.serve .backward solitary shown stride listed idle (answered _ rfl) ?_ ?_
            rfl
          · rw [Attempt.passBack_eq]
          · rw [Attempt.passBack_eq]
      | send | receive => exact home.elim
      | weights | optimizer | sync | gather =>
          exact relayed.plain Drain.taken_subset_snoc rfl rfl (fun _ => rfl) relays
  | abort =>
      rw [(Run.resting_abort ..).idle] at known
      cases known
  | collapse => cases known

theorem stride (solitary : plan.Solitary operations) (fitted : Fitted plan 0 operations run.worker)
    (reckoning : Reckoning plan 0 operations turns behind run.worker.limiter trial)
    (relayed : Relayed callbacks plan.layout inputs turns run trial)
    (shown : run.phase.trial? = some trial) (stride : Stride run exchange next)
    (answered : ∀ made ∈ exchange, made.From callbacks.alone)
    (known : next.phase.trial? = some onward) :
    Relayed callbacks plan.layout inputs (turns ++ [(run, exchange)]) next onward := by
  cases held : trial.hand with
  | none => exact relayed.stride_free solitary fitted reckoning shown held stride answered known
  | some operation =>
      exact relayed.stride_busy solitary fitted reckoning shown held stride answered known

end Relayed

theorem Drain.relayed {callbacks : Callbacks σ α} (solitary : plan.Solitary operations)
    (fitted : Fitted plan 0 operations begun.worker)
    (drain : Drain (begun.cleared guard) turns run)
    (answered : ∀ turn ∈ turns, ∀ made ∈ turn.2, made.From callbacks.alone)
    (shown : run.phase.trial? = some trial) :
    Relayed callbacks plan.layout begun.inputs turns run trial := by
  induction drain generalizing trial with
  | start =>
      obtain rfl := Option.some.inj shown
      refine ⟨.start _ _ begun.attemptInputs_given, ?_, ?_⟩
      · intro way stage microbatch input held
        cases held
      · intro made member
        cases member
  | @turn turns run next before exchange past here stride ih =>
      obtain ⟨behind, reckoning⟩ := past.reckoning fitted here
      have relayed := ih (fun turn member => answered turn (List.mem_append_left _ member)) here
      exact relayed.stride solitary (past.fitted fitted) reckoning here stride
        (answered _ (List.mem_append_right _ List.mem_cons_self)) shown

namespace Drain

theorem yielding (drain : Drain (begun.cleared guard) turns run)
    (shown : run.phase.trial? = some trial) :
    Yielding begun.worker.plan.layout (exchanges turns) trial.attempt := by
  induction drain generalizing trial with
  | start =>
      obtain rfl := Option.some.inj shown
      exact .start _ _ _ _
  | @turn turns run next before exchange past here stride ih =>
      have yielding := ih here
      rw [show begun.worker.plan.layout = run.worker.plan.layout from
        congrArg Plan.layout past.kin.plan.symm] at yielding ⊢
      rw [exchanges_snoc]
      exact yielding.tried (Run.tried here stride) shown

theorem signature (drain : Drain (begun.cleared guard) turns run)
    (shown : run.phase.trial? = some trial) {fingerprint : Fingerprint}
    (signed : trial.attempt.fingerprint = some fingerprint) :
    ⟨.optimize, .ok fingerprint⟩ ∈ exchanges turns := by
  induction drain generalizing trial with
  | start =>
      obtain rfl := Option.some.inj shown
      cases signed
  | @turn turns run next before exchange past here stride ih =>
      rw [exchanges_snoc]
      have old : before.attempt.fingerprint = some fingerprint →
          ⟨.optimize, .ok fingerprint⟩ ∈ exchanges turns ++ exchange.toList :=
        fun signed => List.mem_append_left _ (ih here signed)
      cases Run.tried here stride with
      | finish =>
          rw [Run.trial?_finish] at shown
          cases shown
      | defer =>
          obtain rfl := Option.some.inj shown
          exact old signed
      | take _ picks takes known =>
          obtain rfl := Option.some.inj (known.symm.trans shown)
          rw [takes.same, picks.same] at signed
          exact old signed
      | pass _ picks =>
          obtain rfl := Option.some.inj shown
          rw [picks.same] at signed
          exact old signed
      | wait _ _ known =>
          obtain rfl := Option.some.inj (known.symm.trans shown)
          exact old signed
      | serve held serves =>
          obtain rfl := Option.some.inj shown
          have marks := serves.marks.1
          cases serves with
          | optimizer =>
              obtain rfl := Option.some.inj signed
              exact List.mem_append_right _ List.mem_cons_self
          | forward | backward | weights | send | receive | sync | gather =>
              exact old ((marks nofun).symm.trans signed)
      | abort =>
          rw [(Run.resting_abort ..).idle] at shown
          cases shown
      | collapse => cases shown

end Drain
end PipelineTraining
