import PipelineTraining.Limiter
import PipelineTraining.Plan.Basic

/-!
The check of a plan. Rank by rank every pass is entered in a ledger that
refuses repeated, misplaced or foreign ones and keeps to the memory limit; in
the end every rank has run all its passes and closed with one optimizer step,
and what was sent is what was received.
-/

namespace PipelineTraining

structure Delivery where
  sender : Nat
  receiver : Nat
  transfer : Transfer
deriving DecidableEq

namespace Plan

structure Traffic where
  limiter : Limiter
  sent : List Delivery
  received : List Delivery

structure Ledger where
  forwarded : List (Nat × Nat)
  backwarded : List (Nat × Nat)
  weighted : List (Nat × Nat)

def Ledger.empty : Ledger := ⟨[], [], []⟩

def checkOwned (plan : Plan) (rank : Nat) (stage : StageId) : Except Fault Unit :=
  if !plan.layout.places then .error .unplaced
  else if plan.layout.owns rank stage then .ok ()
  else .error (.invariant rank (.notOwned stage))

def enter (plan : Plan) (rank : Nat) (state : Traffic × Ledger) (operation : Operation) :
    Except Fault (Traffic × Ledger) :=
  let traffic := state.1
  let ledger := state.2
  match operation with
  | .forward stage microbatch => do
      plan.checkOwned rank stage
      if (stage.logical, microbatch) ∈ ledger.forwarded then
        throw (.invariant rank (.duplicate operation))
      match traffic.limiter.admit? rank with
      | none => throw (.invariant rank (.overLimit operation plan.memoryLimit))
      | some limiter =>
          return ({ traffic with limiter := limiter },
            { ledger with forwarded := (stage.logical, microbatch) :: ledger.forwarded })
  | .backward stage microbatch => do
      plan.checkOwned rank stage
      if (stage.logical, microbatch) ∉ ledger.forwarded then
        throw (.invariant rank (.beforeForward operation))
      if (stage.logical, microbatch) ∈ ledger.backwarded then
        throw (.invariant rank (.duplicate operation))
      let limiter ← traffic.limiter.complete rank
      return ({ traffic with limiter := limiter },
        { ledger with backwarded := (stage.logical, microbatch) :: ledger.backwarded })
  | .backwardWeights stage microbatch =>
      if !plan.split then .error (.invariant rank (.fusedBackward operation))
      else if (stage.logical, microbatch) ∉ ledger.backwarded ∨
          (stage.logical, microbatch) ∈ ledger.weighted then
        .error (.invariant rank (.misplaced operation))
      else
        .ok (traffic, { ledger with weighted := (stage.logical, microbatch) :: ledger.weighted })
  | .send peer transfer =>
      let delivery : Delivery := ⟨rank, peer, transfer⟩
      if delivery ∈ traffic.sent then .error (.invariant rank (.duplicate operation))
      else .ok ({ traffic with sent := delivery :: traffic.sent }, ledger)
  | .receive peer transfer =>
      let delivery : Delivery := ⟨peer, rank, transfer⟩
      if delivery ∈ traffic.received then .error (.invariant rank (.duplicate operation))
      else .ok ({ traffic with received := delivery :: traffic.received }, ledger)
  | .optimizerStep => .ok (traffic, ledger)
  | .validationSync => .ok (traffic, ledger)

def checkComplete (plan : Plan) (rank : Nat) (ledger : Ledger) : Except Fault Unit :=
  let expected := plan.passesPerRank
  let forwards := ledger.forwarded.length
  let backwards := ledger.backwarded.length
  let weights := ledger.weighted.length
  if forwards ≠ expected ∨ backwards ≠ expected then
    .error (.invariant rank (.passCounts expected forwards backwards))
  else if plan.split ∧ weights ≠ expected then
    .error (.invariant rank (.weightCount expected weights))
  else .ok ()

def checkClosing (plan : Plan) (rankPlan : RankPlan) : Except Fault Unit :=
  if (closing plan.validates).isSuffixOf rankPlan.operations ∧
      rankPlan.count .optimizerStep = 1 then .ok ()
  else .error (.invariant rankPlan.rank .unclosed)

def checkRank (plan : Plan) (traffic : Traffic) (rankPlan : RankPlan) : Except Fault Traffic := do
  let entered ← rankPlan.operations.foldlM (plan.enter rankPlan.rank) (traffic, Ledger.empty)
  plan.checkComplete rankPlan.rank entered.2
  plan.checkClosing rankPlan
  return entered.1

/-- Both lists hold every delivery at most once, so equal size and inclusion make them equal
as sets. -/
def checkTraffic (traffic : Traffic) : Except Fault Unit :=
  if traffic.sent.length = traffic.received.length ∧
      traffic.sent.all (fun delivery => delivery ∈ traffic.received) then .ok ()
  else .error (.invariant 0 (.unmatched traffic.sent.length traffic.received.length))

def verify (plan : Plan) : Except Fault Unit := do
  let limiter ← Limiter.make plan.ranks.length plan.memoryLimit
  let traffic ← plan.ranks.foldlM plan.checkRank ⟨limiter, [], []⟩
  checkTraffic traffic

end Plan
end PipelineTraining
