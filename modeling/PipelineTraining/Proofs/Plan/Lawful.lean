import Mathlib.Data.List.Nodup
import Mathlib.Data.List.Perm.Basic
import PipelineTraining.Proofs.Limiter.Counting
import PipelineTraining.Proofs.Plan.Script

/-!
What the check of a plan accepts. Ledger, limiter and traffic are determined by the
operations entered so far, so that the verdict can be read off the plan: on every rank
each operation is admissible behind those before it, all passes are there and the
closing steps are at the end; over all ranks nothing is sent or received twice, and what
is sent is what is received.
-/

namespace PipelineTraining

open Plan

inductive Side where
  | sender
  | receiver
deriving DecidableEq

namespace Side

def delivery? : Side → Nat → Operation → Option Delivery
  | .sender, rank, .send peer transfer => some ⟨rank, peer, transfer⟩
  | .receiver, rank, .receive peer transfer => some ⟨peer, rank, transfer⟩
  | _, _, _ => none

def deliveries (side : Side) (rankPlan : RankPlan) : List Delivery :=
  rankPlan.operations.filterMap (side.delivery? rankPlan.rank)

theorem isTransfer_of_delivery? {side : Side} {rank : Nat} {operation : Operation}
    {delivery : Delivery} (found : side.delivery? rank operation = some delivery) :
    operation.isTransfer = true := by
  cases operation with
  | send | receive => rfl
  | forward | backward | backwardWeights | optimizerStep | validationSync =>
      cases side <;> cases found

def entered : Side → Traffic → List Delivery
  | .sender => Traffic.sent
  | .receiver => Traffic.received

end Side

namespace Plan

def deliveries (plan : Plan) (side : Side) : List Delivery :=
  plan.ranks.flatMap side.deliveries

/-- What the check asks of an operation, given those of its rank before it. Of transfers it asks
nothing but that they are matched in the end. -/
inductive Admissible (plan : Plan) (rank : Nat) (before : List Operation) : Operation → Prop
  | forward {stage : StageId} {microbatch : Nat} (placed : plan.layout.places = true)
      (owned : plan.layout.owns rank stage = true)
      (fresh : (stage.logical, microbatch) ∉ before.filterMap Way.forward.key?)
      (tracked : rank < plan.ranks.length)
      (room : (before.filterMap Way.forward.key?).length <
        (before.filterMap Way.backward.key?).length + plan.memoryLimit) :
      Admissible plan rank before (.forward stage microbatch)
  | backward {stage : StageId} {microbatch : Nat} (placed : plan.layout.places = true)
      (owned : plan.layout.owns rank stage = true)
      (follows : (stage.logical, microbatch) ∈ before.filterMap Way.forward.key?)
      (fresh : (stage.logical, microbatch) ∉ before.filterMap Way.backward.key?)
      (tracked : rank < plan.ranks.length)
      (pending : (before.filterMap Way.backward.key?).length <
        (before.filterMap Way.forward.key?).length) :
      Admissible plan rank before (.backward stage microbatch)
  | weights {stage : StageId} {microbatch : Nat} (split : plan.split = true)
      (follows : (stage.logical, microbatch) ∈ before.filterMap Way.backward.key?)
      (fresh : (stage.logical, microbatch) ∉ before.filterMap Operation.weightKey?) :
      Admissible plan rank before (.backwardWeights stage microbatch)
  | send {peer : Nat} {transfer : Transfer} : Admissible plan rank before (.send peer transfer)
  | receive {peer : Nat} {transfer : Transfer} :
      Admissible plan rank before (.receive peer transfer)
  | optimizerStep : Admissible plan rank before .optimizerStep
  | validationSync : Admissible plan rank before .validationSync

structure LawfulRank (plan : Plan) (rankPlan : RankPlan) : Prop where
  admissible : ∀ before operation after, rankPlan.operations = before ++ operation :: after →
    Admissible plan rankPlan.rank before operation
  passes : ∀ way : Way,
    (rankPlan.operations.filterMap way.key?).length = plan.passesPerRank
  weights : plan.split = true →
    (rankPlan.operations.filterMap Operation.weightKey?).length = plan.passesPerRank
  closes : closing plan.validates <:+ rankPlan.operations
  steps : rankPlan.count .optimizerStep = 1

structure Lawful (plan : Plan) : Prop where
  limit : 0 < plan.memoryLimit
  ranks : ∀ rankPlan ∈ plan.ranks, LawfulRank plan rankPlan
  once : ∀ side, (plan.deliveries side).Nodup
  matched : ∀ delivery,
    delivery ∈ plan.deliveries .sender ↔ delivery ∈ plan.deliveries .receiver

/-- A fold comes to its end if every item fits behind those before it, where fitting is told by
what the state is known to hold. -/
theorem foldlM_ok_iff {ε σ ι : Type} {step : σ → ι → Except ε σ} {Holds : List ι → σ → Prop}
    {Fits : List ι → ι → Prop}
    (accepts : ∀ before state item, Holds before state →
      ((∃ next, step state item = .ok next) ↔ Fits before item))
    (keeps : ∀ before state item next, Holds before state → step state item = .ok next →
      Holds (before ++ [item]) next)
    {items before : List ι} {state : σ} (holds : Holds before state) :
    ((∃ final, items.foldlM step state = .ok final) ↔
        ∀ front item back, items = front ++ item :: back → Fits (before ++ front) item) ∧
      ∀ final, items.foldlM step state = .ok final → Holds (before ++ items) final := by
  induction items generalizing before state with
  | nil => simpa [pure, Except.pure] using holds
  | cons head rest ih =>
      simp only [List.foldlM_cons, bind_eq_ok]
      constructor
      · constructor
        · rintro ⟨final, next, stepped, ran⟩ front item back split
          cases front with
          | nil =>
              obtain ⟨rfl, _⟩ := List.cons.inj split
              rw [List.append_nil]
              exact (accepts before state head holds).mp ⟨next, stepped⟩
          | cons first front =>
              obtain ⟨rfl, later⟩ := List.cons.inj split
              have fits := (ih (keeps before state head next holds stepped)).1.mp ⟨final, ran⟩
              simpa using fits front item back later
        · intro fits
          have first := fits [] head rest rfl
          rw [List.append_nil] at first
          obtain ⟨next, stepped⟩ := (accepts before state head holds).mpr first
          obtain ⟨final, ran⟩ := (ih (keeps before state head next holds stepped)).1.mpr
            fun front item back split => by
              simpa using fits (head :: front) item back (by rw [split, List.cons_append])
          exact ⟨final, next, stepped, ran⟩
      · rintro final ⟨next, stepped, ran⟩
        simpa using (ih (keeps before state head next holds stepped)).2 final ran

theorem checkOwned_eq_ok {plan : Plan} {rank : Nat} {stage : StageId} :
    plan.checkOwned rank stage = .ok () ↔
      plan.layout.places = true ∧ plan.layout.owns rank stage = true := by
  unfold checkOwned
  cases plan.layout.places with
  | false => simp
  | true => cases plan.layout.owns rank stage <;> simp

section enter

variable {plan : Plan} {rank peer microbatch : Nat} {stage : StageId} {transfer : Transfer}
  {state next : Traffic × Ledger}

theorem enter_forward :
    plan.enter rank state (.forward stage microbatch) = .ok next ↔
      plan.checkOwned rank stage = .ok () ∧ (stage.logical, microbatch) ∉ state.2.forwarded ∧
      ∃ limiter, state.1.limiter.admit? rank = some limiter ∧
        next = ({ state.1 with limiter := limiter },
          { state.2 with forwarded := (stage.logical, microbatch) :: state.2.forwarded }) := by
  unfold enter
  cases owned : plan.checkOwned rank stage with
  | error fault => simp [owned, bind, Except.bind]
  | ok _ =>
      by_cases entered : (stage.logical, microbatch) ∈ state.2.forwarded
      · simp [owned, entered, bind, Except.bind, throw, throwThe, MonadExceptOf.throw]
      · cases admitted : state.1.limiter.admit? rank with
        | none => simp [owned, entered, admitted, bind, Except.bind, throw, throwThe,
            MonadExceptOf.throw]
        | some limiter => simp [owned, entered, admitted, bind, Except.bind, pure, Except.pure,
            eq_comm (a := next)]

theorem enter_backward :
    plan.enter rank state (.backward stage microbatch) = .ok next ↔
      plan.checkOwned rank stage = .ok () ∧ (stage.logical, microbatch) ∈ state.2.forwarded ∧
      (stage.logical, microbatch) ∉ state.2.backwarded ∧
      ∃ limiter, state.1.limiter.complete rank = .ok limiter ∧
        next = ({ state.1 with limiter := limiter },
          { state.2 with backwarded := (stage.logical, microbatch) :: state.2.backwarded }) := by
  unfold enter
  cases owned : plan.checkOwned rank stage with
  | error fault => simp [owned, bind, Except.bind]
  | ok _ =>
      by_cases forwarded : (stage.logical, microbatch) ∈ state.2.forwarded
      · by_cases entered : (stage.logical, microbatch) ∈ state.2.backwarded
        · simp [owned, forwarded, entered, bind, Except.bind, throw, throwThe,
            MonadExceptOf.throw]
        · cases completed : state.1.limiter.complete rank with
          | error fault => simp [owned, forwarded, entered, completed, bind, Except.bind]
          | ok limiter => simp [owned, forwarded, entered, completed, bind, Except.bind, pure,
              Except.pure, eq_comm (a := next)]
      · simp [owned, forwarded, bind, Except.bind, throw, throwThe, MonadExceptOf.throw]

theorem enter_weights :
    plan.enter rank state (.backwardWeights stage microbatch) = .ok next ↔
      plan.split = true ∧ (stage.logical, microbatch) ∈ state.2.backwarded ∧
      (stage.logical, microbatch) ∉ state.2.weighted ∧
      next = (state.1,
        { state.2 with weighted := (stage.logical, microbatch) :: state.2.weighted }) := by
  unfold enter
  by_cases split : plan.split = true
  · by_cases backwarded : (stage.logical, microbatch) ∈ state.2.backwarded
    · by_cases entered : (stage.logical, microbatch) ∈ state.2.weighted
      · simp [split, backwarded, entered]
      · simp [split, backwarded, entered, eq_comm (a := next)]
    · simp [split, backwarded]
  · simp [split]

theorem enter_send :
    plan.enter rank state (.send peer transfer) = .ok next ↔
      ⟨rank, peer, transfer⟩ ∉ state.1.sent ∧
      next = ({ state.1 with sent := ⟨rank, peer, transfer⟩ :: state.1.sent }, state.2) := by
  unfold enter
  by_cases entered : (⟨rank, peer, transfer⟩ : Delivery) ∈ state.1.sent
  · simp [entered]
  · simp [entered, eq_comm (a := next)]

theorem enter_receive :
    plan.enter rank state (.receive peer transfer) = .ok next ↔
      ⟨peer, rank, transfer⟩ ∉ state.1.received ∧
      next = ({ state.1 with received := ⟨peer, rank, transfer⟩ :: state.1.received },
        state.2) := by
  unfold enter
  by_cases entered : (⟨peer, rank, transfer⟩ : Delivery) ∈ state.1.received
  · simp [entered]
  · simp [entered, eq_comm (a := next)]

end enter

structure Entered (plan : Plan) (rank : Nat) (start : Traffic) (before : List Operation)
    (state : Traffic × Ledger) : Prop where
  limit : state.1.limiter.limit = plan.memoryLimit
  pending : state.1.limiter.pending = (List.replicate plan.ranks.length 0).set rank
    ((before.filterMap Way.forward.key?).length - (before.filterMap Way.backward.key?).length)
  balanced : (before.filterMap Way.backward.key?).length ≤
    (before.filterMap Way.forward.key?).length
  forwarded : state.2.forwarded = (before.filterMap Way.forward.key?).reverse
  backwarded : state.2.backwarded = (before.filterMap Way.backward.key?).reverse
  weighted : state.2.weighted = (before.filterMap Operation.weightKey?).reverse
  traffic : ∀ side : Side, side.entered state.1 =
    (before.filterMap (side.delivery? rank)).reverse ++ side.entered start
  once : ∀ side : Side, (side.entered state.1).Nodup

def Fitting (plan : Plan) (rank : Nat) (start : Traffic) (before : List Operation)
    (operation : Operation) : Prop :=
  Admissible plan rank before operation ∧ ∀ (side : Side) (delivery : Delivery),
    side.delivery? rank operation = some delivery →
      delivery ∉ before.filterMap (side.delivery? rank) ∧ delivery ∉ side.entered start

theorem fitting_of_plain {plan : Plan} {rank : Nat} {start : Traffic} {before : List Operation}
    {operation : Operation} (plain : operation.isTransfer = false)
    (admissible : Admissible plan rank before operation) :
    Fitting plan rank start before operation := by
  refine ⟨admissible, ?_⟩
  intro side delivery found
  rw [Side.isTransfer_of_delivery? found] at plain
  cases plain

namespace Entered

variable {plan : Plan} {rank : Nat} {start : Traffic} {before : List Operation}
  {state next : Traffic × Ledger} {operation : Operation}

theorem pending_at (entered : Entered plan rank start before state) {count : Nat} :
    state.1.limiter.pending[rank]? = some count ↔ rank < plan.ranks.length ∧
      count + (before.filterMap Way.backward.key?).length =
        (before.filterMap Way.forward.key?).length := by
  have balanced := entered.balanced
  rw [entered.pending]
  by_cases tracked : rank < plan.ranks.length
  · rw [List.getElem?_set_self (by simpa using tracked)]
    simp only [Option.some.injEq, tracked, true_and]
    omega
  · simp [tracked]

theorem fresh_iff (entered : Entered plan rank start before state) (side : Side)
    (delivery : Delivery) :
    delivery ∉ side.entered state.1 ↔
      delivery ∉ before.filterMap (side.delivery? rank) ∧ delivery ∉ side.entered start := by
  rw [entered.traffic side, List.mem_append, List.mem_reverse, not_or]

theorem accepts (entered : Entered plan rank start before state) :
    (∃ next, plan.enter rank state operation = .ok next) ↔
      Fitting plan rank start before operation := by
  cases operation with
  | forward stage microbatch =>
      simp only [enter_forward, checkOwned_eq_ok, entered.forwarded, List.mem_reverse,
        Limiter.admit?_eq_some, entered.limit, entered.pending_at]
      constructor
      · rintro ⟨_, ⟨placed, owned⟩, fresh, _, ⟨count, ⟨tracked, counted⟩, room, _⟩, _⟩
        exact fitting_of_plain rfl (.forward placed owned fresh tracked (by omega))
      · rintro ⟨admissible, _⟩
        cases admissible with
        | forward placed owned fresh tracked room =>
            have balanced := entered.balanced
            refine ⟨_, ⟨placed, owned⟩, fresh, _, ⟨_, ⟨tracked, Nat.sub_add_cancel balanced⟩, ?_,
              rfl⟩, rfl⟩
            omega
  | backward stage microbatch =>
      simp only [enter_backward, checkOwned_eq_ok, entered.forwarded, entered.backwarded,
        List.mem_reverse, Limiter.complete_eq_ok, entered.pending_at]
      constructor
      · rintro ⟨_, ⟨placed, owned⟩, follows, fresh, _, ⟨count, ⟨tracked, counted⟩, _⟩, _⟩
        exact fitting_of_plain rfl (.backward placed owned follows fresh tracked (by omega))
      · rintro ⟨admissible, _⟩
        cases admissible with
        | backward placed owned follows fresh tracked pending =>
            obtain ⟨count, counted⟩ := Nat.exists_eq_add_of_lt pending
            refine ⟨_, ⟨placed, owned⟩, follows, fresh, _, ⟨count, ⟨tracked, ?_⟩, rfl⟩, rfl⟩
            omega
  | backwardWeights stage microbatch =>
      simp only [enter_weights, entered.backwarded, entered.weighted, List.mem_reverse]
      constructor
      · rintro ⟨_, split, follows, fresh, _⟩
        exact fitting_of_plain rfl (.weights split follows fresh)
      · rintro ⟨admissible, _⟩
        cases admissible with
        | weights split follows fresh => exact ⟨_, split, follows, fresh, rfl⟩
  | send peer transfer =>
      simp only [Fitting, ← entered.fresh_iff, enter_send, exists_and_left, exists_eq, and_true]
      constructor
      · intro fresh
        refine ⟨.send, ?_⟩
        intro side delivery found
        cases side with
        | sender => cases found; exact fresh
        | receiver => cases found
      · rintro ⟨_, fresh⟩
        exact fresh .sender _ rfl
  | receive peer transfer =>
      simp only [Fitting, ← entered.fresh_iff, enter_receive, exists_and_left, exists_eq, and_true]
      constructor
      · intro fresh
        refine ⟨.receive, ?_⟩
        intro side delivery found
        cases side with
        | sender => cases found
        | receiver => cases found; exact fresh
      · rintro ⟨_, fresh⟩
        exact fresh .receiver _ rfl
  | optimizerStep => exact iff_of_true ⟨state, rfl⟩ (fitting_of_plain rfl .optimizerStep)
  | validationSync => exact iff_of_true ⟨state, rfl⟩ (fitting_of_plain rfl .validationSync)

theorem effect (accepted : plan.enter rank state operation = .ok next) :
    next.2.forwarded = (Way.forward.key? operation).toList ++ state.2.forwarded ∧
      next.2.backwarded = (Way.backward.key? operation).toList ++ state.2.backwarded ∧
      next.2.weighted = (Operation.weightKey? operation).toList ++ state.2.weighted ∧
      ∀ side : Side, side.entered next.1 =
        (side.delivery? rank operation).toList ++ side.entered state.1 := by
  cases operation with
  | forward stage microbatch =>
      obtain ⟨_, _, limiter, _, rfl⟩ := enter_forward.mp accepted
      refine ⟨rfl, rfl, rfl, ?_⟩
      intro side
      cases side <;> rfl
  | backward stage microbatch =>
      obtain ⟨_, _, _, limiter, _, rfl⟩ := enter_backward.mp accepted
      refine ⟨rfl, rfl, rfl, ?_⟩
      intro side
      cases side <;> rfl
  | backwardWeights stage microbatch =>
      obtain ⟨_, _, _, rfl⟩ := enter_weights.mp accepted
      refine ⟨rfl, rfl, rfl, ?_⟩
      intro side
      cases side <;> rfl
  | send peer transfer =>
      obtain ⟨_, rfl⟩ := enter_send.mp accepted
      refine ⟨rfl, rfl, rfl, ?_⟩
      intro side
      cases side <;> rfl
  | receive peer transfer =>
      obtain ⟨_, rfl⟩ := enter_receive.mp accepted
      refine ⟨rfl, rfl, rfl, ?_⟩
      intro side
      cases side <;> rfl
  | optimizerStep | validationSync =>
      cases accepted
      refine ⟨rfl, rfl, rfl, ?_⟩
      intro side
      cases side <;> rfl

/-- The limiter counts the forwards that have no backward yet. -/
theorem counts (entered : Entered plan rank start before state)
    (accepted : plan.enter rank state operation = .ok next) :
    next.1.limiter.limit = plan.memoryLimit ∧
      next.1.limiter.pending = (List.replicate plan.ranks.length 0).set rank
        (((before ++ [operation]).filterMap Way.forward.key?).length -
          ((before ++ [operation]).filterMap Way.backward.key?).length) ∧
      ((before ++ [operation]).filterMap Way.backward.key?).length ≤
        ((before ++ [operation]).filterMap Way.forward.key?).length := by
  have limit := entered.limit
  have pending := entered.pending
  have balanced := entered.balanced
  rw [length_filterMap_snoc, length_filterMap_snoc]
  cases operation with
  | forward stage microbatch =>
      obtain ⟨_, _, limiter, admitted, rfl⟩ := enter_forward.mp accepted
      obtain ⟨count, found, _, rfl⟩ := Limiter.admit?_eq_some.mp admitted
      have counted := (entered.pending_at.mp found).2
      refine ⟨limit, ?_, Nat.le_succ_of_le balanced⟩
      change state.1.limiter.pending.set rank (count + 1) = _
      rw [pending, List.set_set]
      congr 1
      change count + 1 = _ + 1 - (_ + 0)
      omega
  | backward stage microbatch =>
      obtain ⟨_, _, _, limiter, completed, rfl⟩ := enter_backward.mp accepted
      obtain ⟨count, found, rfl⟩ := Limiter.complete_eq_ok.mp completed
      have counted := (entered.pending_at.mp found).2
      refine ⟨limit, ?_, ?_⟩
      · change state.1.limiter.pending.set rank count = _
        rw [pending, List.set_set]
        congr 1
        change count = _ + 0 - (_ + 1)
        omega
      · change _ + 1 ≤ _ + 0
        omega
  | backwardWeights stage microbatch =>
      obtain ⟨_, _, _, rfl⟩ := enter_weights.mp accepted
      exact ⟨limit, pending, balanced⟩
  | send peer transfer =>
      obtain ⟨_, rfl⟩ := enter_send.mp accepted
      exact ⟨limit, pending, balanced⟩
  | receive peer transfer =>
      obtain ⟨_, rfl⟩ := enter_receive.mp accepted
      exact ⟨limit, pending, balanced⟩
  | optimizerStep | validationSync =>
      cases accepted
      exact ⟨limit, pending, balanced⟩

theorem keeps (entered : Entered plan rank start before state)
    (accepted : plan.enter rank state operation = .ok next) :
    Entered plan rank start (before ++ [operation]) next := by
  obtain ⟨limit, pending, balanced⟩ := entered.counts accepted
  obtain ⟨forwarded, backwarded, weighted, traffic⟩ := effect accepted
  have fresh := (entered.accepts.mp ⟨next, accepted⟩).2
  constructor
  case limit => exact limit
  case pending => exact pending
  case balanced => exact balanced
  case forwarded => rw [forwarded, entered.forwarded, reverse_filterMap_snoc]
  case backwarded => rw [backwarded, entered.backwarded, reverse_filterMap_snoc]
  case weighted => rw [weighted, entered.weighted, reverse_filterMap_snoc]
  case traffic =>
    intro side
    rw [traffic side, entered.traffic side, reverse_filterMap_snoc, List.append_assoc]
  case once =>
    intro side
    rw [traffic side]
    cases found : side.delivery? rank operation with
    | none => exact entered.once side
    | some delivery =>
        exact (entered.once side).cons ((entered.fresh_iff side delivery).mpr
          (fresh side delivery found))

theorem run (entered : Entered plan rank start before state) (after : List Operation) :
    ((∃ final, after.foldlM (plan.enter rank) state = .ok final) ↔
        ∀ front operation back, after = front ++ operation :: back →
          Fitting plan rank start (before ++ front) operation) ∧
      ∀ final, after.foldlM (plan.enter rank) state = .ok final →
        Entered plan rank start (before ++ after) final :=
  foldlM_ok_iff (fun _ _ _ entered => entered.accepts)
    (fun _ _ _ _ entered accepted => entered.keeps accepted) entered

end Entered

theorem fresh_of_nodup {ι δ : Type} {found? : ι → Option δ} {earlier : List δ}
    {items front back : List ι} {item : ι} {entry : δ}
    (noDup : (earlier ++ items.filterMap found?).Nodup) (split : items = front ++ item :: back)
    (found : found? item = some entry) : entry ∉ front.filterMap found? ∧ entry ∉ earlier := by
  rw [split, List.filterMap_append, List.filterMap_cons_some found, ← List.append_assoc,
    List.nodup_append] at noDup
  have apart := fun member => noDup.2.2 entry member entry List.mem_cons_self rfl
  exact ⟨fun member => apart (List.mem_append_right _ member),
    fun member => apart (List.mem_append_left _ member)⟩

theorem checkComplete_eq_ok {plan : Plan} {rank : Nat} {ledger : Ledger} :
    plan.checkComplete rank ledger = .ok () ↔
      ledger.forwarded.length = plan.passesPerRank ∧
      ledger.backwarded.length = plan.passesPerRank ∧
      (plan.split = true → ledger.weighted.length = plan.passesPerRank) := by
  unfold checkComplete
  dsimp only
  split
  · grind
  · split <;> grind

theorem checkClosing_eq_ok {plan : Plan} {rankPlan : RankPlan} :
    plan.checkClosing rankPlan = .ok () ↔
      closing plan.validates <:+ rankPlan.operations ∧ rankPlan.count .optimizerStep = 1 := by
  rw [← List.isSuffixOf_iff_suffix]
  unfold checkClosing
  split
  case isTrue closed => exact iff_of_true rfl closed
  case isFalse unclosed => exact iff_of_false (by simp) unclosed

/-- What the check carries from rank to rank: nothing is pending in between. -/
structure Rested (plan : Plan) (before : List RankPlan) (traffic : Traffic) : Prop where
  limit : traffic.limiter.limit = plan.memoryLimit
  pending : traffic.limiter.pending = List.replicate plan.ranks.length 0
  traffic : ∀ side : Side, side.entered traffic = (before.flatMap side.deliveries).reverse
  once : ∀ side : Side, (before.flatMap side.deliveries).Nodup

def FittingRank (plan : Plan) (before : List RankPlan) (rankPlan : RankPlan) : Prop :=
  LawfulRank plan rankPlan ∧
    ∀ side : Side, ((before ++ [rankPlan]).flatMap side.deliveries).Nodup

namespace Rested

variable {plan : Plan} {before : List RankPlan} {traffic next : Traffic} {rankPlan : RankPlan}

theorem checkRank_eq_ok :
    plan.checkRank traffic rankPlan = .ok next ↔
      ∃ ledger, rankPlan.operations.foldlM (plan.enter rankPlan.rank) (traffic, .empty) =
          .ok (next, ledger) ∧
        plan.checkComplete rankPlan.rank ledger = .ok () ∧
        plan.checkClosing rankPlan = .ok () := by
  simp only [checkRank, bind_eq_ok]
  constructor
  · rintro ⟨⟨_, ledger⟩, ran, _, complete, _, closed, ⟨⟩⟩
    exact ⟨ledger, ran, complete, closed⟩
  · rintro ⟨ledger, ran, complete, closed⟩
    exact ⟨_, ran, (), complete, (), closed, rfl⟩

theorem start (rested : Rested plan before traffic) (rank : Nat) :
    Entered plan rank traffic [] (traffic, .empty) := by
  constructor
  case limit => exact rested.limit
  case pending => simpa using rested.pending
  case balanced => exact Nat.le_refl _
  case traffic => intro side; rfl
  case once =>
    intro side
    rw [rested.traffic side]
    exact List.nodup_reverse.mpr (rested.once side)
  all_goals rfl

theorem traffic_end (rested : Rested plan before traffic) {state : Traffic × Ledger}
    (entered : Entered plan rankPlan.rank traffic rankPlan.operations state) (side : Side) :
    side.entered state.1 = ((before ++ [rankPlan]).flatMap side.deliveries).reverse := by
  rw [entered.traffic side, rested.traffic side]
  simp [Side.deliveries]

theorem accepts (rested : Rested plan before traffic) :
    (∃ next, plan.checkRank traffic rankPlan = .ok next) ↔ FittingRank plan before rankPlan := by
  obtain ⟨runs, ends⟩ := (rested.start rankPlan.rank).run rankPlan.operations
  simp only [List.nil_append] at runs ends
  simp only [checkRank_eq_ok, checkComplete_eq_ok, checkClosing_eq_ok]
  constructor
  · rintro ⟨next, ledger, ran, ⟨forwards, backwards, weights⟩, closes, steps⟩
    have entered := ends _ ran
    have fitting := runs.mp ⟨_, ran⟩
    have forwarded := entered.forwarded
    have backwarded := entered.backwarded
    have weighted := entered.weighted
    dsimp only at forwarded backwarded weighted
    rw [forwarded, List.length_reverse] at forwards
    rw [backwarded, List.length_reverse] at backwards
    rw [weighted, List.length_reverse] at weights
    refine ⟨⟨fun front operation back split => (fitting front operation back split).1, ?_,
      weights, closes, steps⟩, ?_⟩
    · intro way
      cases way with
      | forward => exact forwards
      | backward => exact backwards
    · intro side
      have once := entered.once side
      rwa [rested.traffic_end entered side, List.nodup_reverse] at once
  · rintro ⟨lawful, once⟩
    obtain ⟨⟨next, ledger⟩, ran⟩ := runs.mpr fun front operation back split => by
      refine ⟨lawful.admissible front operation back split, ?_⟩
      intro side delivery found
      have noDup := once side
      rw [List.flatMap_append, List.flatMap_singleton] at noDup
      rw [rested.traffic side, List.mem_reverse]
      exact fresh_of_nodup noDup split found
    have entered := ends _ ran
    refine ⟨next, ledger, ran, ⟨?_, ?_, ?_⟩, lawful.closes, lawful.steps⟩
    · rw [entered.forwarded, List.length_reverse]
      exact lawful.passes .forward
    · rw [entered.backwarded, List.length_reverse]
      exact lawful.passes .backward
    · rw [entered.weighted, List.length_reverse]
      exact lawful.weights

theorem keeps (rested : Rested plan before traffic)
    (accepted : plan.checkRank traffic rankPlan = .ok next) :
    Rested plan (before ++ [rankPlan]) next := by
  obtain ⟨lawful, once⟩ := rested.accepts.mp ⟨next, accepted⟩
  obtain ⟨ledger, ran, _⟩ := checkRank_eq_ok.mp accepted
  have entered := ((rested.start rankPlan.rank).run rankPlan.operations).2 _ ran
  rw [List.nil_append] at entered
  constructor
  case limit => exact entered.limit
  case pending =>
    -- As many backwards as forwards: nothing is left pending on the rank.
    have pending := entered.pending
    rw [lawful.passes .forward, lawful.passes .backward, Nat.sub_self,
      List.set_replicate_self] at pending
    exact pending
  case traffic => exact rested.traffic_end entered
  case once => exact once

theorem run (rested : Rested plan before traffic) (after : List RankPlan) :
    ((∃ final, after.foldlM plan.checkRank traffic = .ok final) ↔
        ∀ front rankPlan back, after = front ++ rankPlan :: back →
          FittingRank plan (before ++ front) rankPlan) ∧
      ∀ final, after.foldlM plan.checkRank traffic = .ok final →
        Rested plan (before ++ after) final :=
  foldlM_ok_iff (fun _ _ _ rested => rested.accepts)
    (fun _ _ _ _ rested accepted => rested.keeps accepted) rested

end Rested

theorem checkTraffic_eq_ok {traffic : Traffic}
    (once : ∀ side : Side, (side.entered traffic).Nodup) :
    checkTraffic traffic = .ok () ↔
      ∀ delivery, delivery ∈ traffic.sent ↔ delivery ∈ traffic.received := by
  unfold checkTraffic
  split
  case isTrue matched =>
    obtain ⟨same, subset⟩ := matched
    have covered : traffic.sent ⊆ traffic.received := fun delivery member =>
      of_decide_eq_true (List.all_eq_true.mp subset delivery member)
    have perm := (List.subperm_of_subset (once .sender) covered).perm_of_length_le same.ge
    exact iff_of_true rfl fun delivery => perm.mem_iff
  case isFalse unmatched =>
    refine iff_of_false (by simp) fun matched => unmatched ?_
    have perm := (List.perm_ext_iff_of_nodup (once .sender) (once .receiver)).mpr matched
    exact ⟨perm.length_eq, by simp [← matched]⟩

/-- The check accepts exactly the lawful plans. -/
theorem verify_eq_ok {plan : Plan} : plan.verify = .ok () ↔ plan.Lawful := by
  unfold verify
  by_cases limit : plan.memoryLimit = 0
  · have refused : ¬ plan.Lawful := by
      intro lawful
      exact Nat.ne_of_gt lawful.limit limit
    simp [Limiter.make, limit, refused, bind, Except.bind]
  · have rested : Rested plan [] ⟨⟨plan.memoryLimit, List.replicate plan.ranks.length 0,
        List.replicate plan.ranks.length 0⟩, [], []⟩ := by
      constructor
      case traffic => intro side; cases side <;> rfl
      case once => intro side; exact List.nodup_nil
      all_goals rfl
    obtain ⟨runs, ends⟩ := rested.run plan.ranks
    simp only [List.nil_append] at runs ends
    have known : ∀ {traffic : Traffic}, Rested plan plan.ranks traffic →
        (checkTraffic traffic = .ok () ↔ ∀ delivery,
          delivery ∈ plan.deliveries .sender ↔ delivery ∈ plan.deliveries .receiver) := by
      intro traffic rested
      have sent := rested.traffic .sender
      have received := rested.traffic .receiver
      rw [checkTraffic_eq_ok fun side => ?_]
      · change traffic.sent = _ at sent
        change traffic.received = _ at received
        rw [sent, received]
        simp only [List.mem_reverse]
        rfl
      · rw [rested.traffic side]
        exact List.nodup_reverse.mpr (rested.once side)
    simp only [Limiter.make, limit, if_false, bind_eq_ok, Except.ok.injEq, exists_eq_left']
    constructor
    · rintro ⟨traffic, ran, checked⟩
      have rested := ends traffic ran
      have fitting := runs.mp ⟨traffic, ran⟩
      constructor
      case limit => exact Nat.pos_of_ne_zero limit
      case ranks =>
        intro rankPlan member
        obtain ⟨front, back, split⟩ := List.append_of_mem member
        exact (fitting front rankPlan back split).1
      case once => exact rested.once
      case matched => exact (known rested).mp checked
    · intro lawful
      obtain ⟨traffic, ran⟩ := runs.mpr fun front rankPlan back split => by
        refine ⟨lawful.ranks rankPlan (by simp [split]), ?_⟩
        intro side
        have once := lawful.once side
        rw [deliveries, split, ← List.singleton_append, ← List.append_assoc,
          List.flatMap_append] at once
        exact (List.nodup_append.mp once).1
      exact ⟨traffic, ran, (known (ends traffic ran)).mpr lawful.matched⟩

end Plan
end PipelineTraining
