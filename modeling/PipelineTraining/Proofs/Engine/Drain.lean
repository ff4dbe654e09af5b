import PipelineTraining.Proofs.Engine.Span
import PipelineTraining.Proofs.Engine.Starting
import PipelineTraining.Proofs.Engine.Tally

/-!
An attempt at any plan, turn by turn. Every turn takes an operation up, puts one off or
goes on with the one in hand, so that those behind, in hand, put off and still to come are
always the operations of the rank, each as often as it is listed.
-/

namespace PipelineTraining

variable {α : Type}

namespace Run

def choice? (run : Run α) : Option (Attempt.Choice α) :=
  match run.phase with
  | .choosing _ attempt =>
      some (attempt.choose (attempt.isReady run.worker.plan run.worker.rank run.worker.limiter))
  | _ => none

def picks? (run : Run α) : Option Operation :=
  match run.choice? with
  | some (.run operation _) => some operation
  | _ => none

def defers? (run : Run α) : Option Operation :=
  match run.choice? with
  | some (.defer attempt) => attempt.waiting.getLast?
  | _ => none

end Run

def Exchange.settled? : Exchange α → Option Operation
  | ⟨.forward stage microbatch _, .ok _⟩ => some (.forward stage microbatch)
  | ⟨.backward stage microbatch _, .ok _⟩ => some (.backward stage microbatch)
  | ⟨.backwardWeights stage microbatch, .ok _⟩ => some (.backwardWeights stage microbatch)
  | ⟨.optimize, .ok _⟩ => some .optimizerStep
  | _ => none

def Operation.calls : Operation → Bool
  | .optimizerStep => true
  | operation => operation.isCompute

inductive Drain (first : Run α) : List (Run α × Option (Exchange α)) → Run α → Prop
  | start : Drain first [] first
  | turn {turns : List (Run α × Option (Exchange α))} {run next : Run α} {trial : Trial α}
      {exchange : Option (Exchange α)} (past : Drain first turns run)
      (shown : run.phase.trial? = some trial) (stride : Stride run exchange next) :
      Drain first (turns ++ [(run, exchange)]) next

namespace Drain

variable (turns : List (Run α × Option (Exchange α)))

def taken : List Operation :=
  turns.filterMap fun turn => turn.1.picks?

def putOff : List Operation :=
  turns.filterMap fun turn => turn.1.defers?

def settled : List Operation :=
  turns.filterMap fun turn => turn.2.bind Exchange.settled?

end Drain

inductive Tallied (plan : Plan) (rank : Nat) (behind : List Operation) (limiter : Limiter) :
    Trial α → Prop
  | free {guard : Option Guard} {attempt : Attempt α}
      (tally : Tally plan rank behind limiter attempt) :
      Tallied plan rank behind limiter ⟨guard, attempt, none⟩
  | busy {guard : Option Guard} {attempt taken : Attempt α} {operation : Operation}
      {before : Limiter} (tally : Tally plan rank behind before attempt)
      (time : attempt.isReady plan rank before operation = true)
      (takes : Taken plan rank before attempt operation limiter taken) :
      Tallied plan rank behind limiter ⟨guard, taken, some operation⟩

/-- How the turns so far account for the operations of a rank. -/
structure Reckoning (plan : Plan) (rank : Nat) (operations : List Operation)
    (turns : List (Run α × Option (Exchange α))) (behind : List Operation) (limiter : Limiter)
    (trial : Trial α) : Prop where
  tallied : Tallied plan rank behind limiter trial
  taken : Drain.taken turns = behind ++ trial.hand.toList
  ahead : (behind ++ trial.ahead).Perm operations
  queued : trial.attempt.waiting.Sublist (Drain.putOff turns)
  listed : (Drain.putOff turns ++ trial.attempt.remaining).Sublist operations
  settled : Drain.settled turns = behind.filter Operation.calls
  fore : Way.backward.entries behind ⊆ Way.forward.entries behind
  closed : ∀ before after, behind = before ++ .optimizerStep :: after → plan.Completed before

variable {plan : Plan} {rank : Nat} {operations behind : List Operation} {operation : Operation}
  {turns : List (Run α × Option (Exchange α))} {run next first : Run α} {limiter after : Limiter}
  {trial onward : Trial α} {exchange : Option (Exchange α)}

namespace Drain

theorem taken_snoc : taken (turns ++ [(run, exchange)]) = taken turns ++ run.picks?.toList := by
  unfold taken
  cases found : run.picks? <;> simp [found]

theorem taken_subset_snoc : taken turns ⊆ taken (turns ++ [(run, exchange)]) := by
  rw [taken_snoc]
  exact List.subset_append_left _ _

theorem putOff_snoc : putOff (turns ++ [(run, exchange)]) =
    putOff turns ++ run.defers?.toList := by
  unfold putOff
  cases found : run.defers? <;> simp [found]

theorem settled_snoc : settled (turns ++ [(run, exchange)]) =
    settled turns ++ (exchange.bind Exchange.settled?).toList := by
  unfold settled
  cases found : exchange.bind Exchange.settled? <;> simp [found]

end Drain

theorem Served.settled {layout : Layout} {attempt served : Attempt α}
    (serves : Served layout rank limiter attempt operation exchange after served) :
    (exchange.bind Exchange.settled?).toList = [operation].filter Operation.calls := by
  cases serves <;> rfl

theorem Request.IsFor.unsettled {made : Exchange α}
    (asked : made.request.IsFor .validationSync) : made.settled? = none := by
  obtain ⟨request, answer⟩ := made
  cases request <;> first | rfl | cases asked

namespace Run

theorem choice?_of_free (shown : run.phase.trial? = some trial) (free : trial.hand = none) :
    run.choice? = some (trial.attempt.choose
      (trial.attempt.isReady run.worker.plan run.worker.rank run.worker.limiter)) := by
  rw [choice?, trial?_of_free shown free]

theorem choice?_of_busy (shown : run.phase.trial? = some trial)
    (held : trial.hand = some operation) : run.choice? = none := by
  unfold choice?
  cases phase : run.phase with
  | choosing guard attempt =>
      rw [phase] at shown
      obtain rfl := Option.some.inj shown
      cases held
  | _ => rfl

theorem next_of_free (shown : run.phase.trial? = some trial) (free : trial.hand = none)
    (stride : Stride run exchange next) :
    exchange = none ∧ next = run.choose trial.guard trial.attempt :=
  stride.of_own (by simp only [turn, trial?_of_free shown free])

end Run

inductive Looked (run : Run α) (trial : Trial α) : Run α → Prop
  | finish (picks : run.picks? = none) (waited : trial.attempt.waiting = [])
      (through : trial.attempt.remaining = []) :
      Looked run trial (run.finish trial.guard trial.attempt)
  | stuck (picks : run.picks? = none) (left : trial.attempt.waiting ≠ [])
      (through : trial.attempt.remaining = [])
      (late : ∀ operation ∈ trial.attempt.waiting,
        trial.attempt.isReady run.worker.plan run.worker.rank run.worker.limiter operation =
          false) :
      Looked run trial
        (run.abort trial.guard (.invariant run.worker.rank (.stuck trial.attempt.waiting)))
  | defer {operation : Operation} {rest : List Operation} (picks : run.picks? = none)
      (defers : run.defers? = some operation)
      (next : trial.attempt.remaining = operation :: rest) :
      Looked run trial (run.become (.choosing trial.guard { trial.attempt with
        remaining := rest
        waiting := trial.attempt.waiting ++ [operation]
        deferred := trial.attempt.deferred + 1 }))
  | start {operation : Operation} {picked : Attempt α} {started : Run α}
      (taken : run.picks? = some operation) (defers : run.defers? = none)
      (picks : Picked (trial.attempt.isReady run.worker.plan run.worker.rank run.worker.limiter)
        trial.attempt operation picked)
      (starts : Started run trial.guard picked operation started)
      (begins : started = run.take trial.guard picked operation) : Looked run trial started

theorem Run.looked (shown : run.phase.trial? = some trial) (free : trial.hand = none)
    (stride : Stride run exchange next) : exchange = none ∧ Looked run trial next := by
  obtain ⟨silent, rfl⟩ := next_of_free shown free stride
  refine ⟨silent, ?_⟩
  have choice := choice?_of_free shown free
  have chosen := trial.attempt.chosen
    (trial.attempt.isReady run.worker.plan run.worker.rank run.worker.limiter)
  unfold choose
  dsimp only
  generalize trial.attempt.choose _ = chosenOne at choice chosen
  cases chosen with
  | run picks =>
      exact .start (by rw [picks?, choice]) (by rw [defers?, choice]) picks
        (started _ picks.ready) rfl
  | defer ahead early =>
      exact .defer (by rw [picks?, choice]) (by simp [defers?, choice]) ahead
  | finish waited through => exact .finish (by rw [picks?, choice]) waited through
  | stuck left through late => exact .stuck (by rw [picks?, choice]) left through late

/-- What is taken up is picked when its time has come. -/
theorem Run.picked (picks : run.picks? = some operation) : ∃ guard attempt picked,
    run.phase.trial? = some ⟨guard, attempt, none⟩ ∧
      Picked (attempt.isReady run.worker.plan run.worker.rank run.worker.limiter) attempt operation
        picked := by
  unfold picks? choice? at picks
  cases phase : run.phase with
  | choosing guard attempt =>
      simp only [phase] at picks
      have chosen := attempt.chosen
        (attempt.isReady run.worker.plan run.worker.rank run.worker.limiter)
      generalize attempt.choose _ = choice at picks chosen
      cases chosen with
      | run picked =>
          obtain rfl := Option.some.inj picks
          exact ⟨guard, attempt, _, rfl, picked⟩
      | defer | finish | stuck => cases picks
  | _ =>
      simp only [phase] at picks
      cases picks

namespace Reckoning

theorem mem_of_held (reckoning : Reckoning plan rank operations turns behind limiter trial)
    (held : trial.hand = some operation) : operation ∈ operations := by
  refine reckoning.ahead.subset (List.mem_append_right _ ?_)
  rw [Trial.ahead, held]
  exact List.mem_cons_self

theorem mem_of_picked {ready : Operation → Bool} {picked : Attempt α}
    (reckoning : Reckoning plan rank operations turns behind limiter trial)
    (picks : Picked ready trial.attempt operation picked) : operation ∈ operations := by
  refine reckoning.ahead.subset (List.mem_append_right _ (List.mem_append_right _ ?_))
  exact picks.ahead.symm.subset List.mem_cons_self

theorem defer {rest : List Operation}
    (reckoning : Reckoning plan rank operations turns behind limiter trial)
    (free : trial.hand = none) (picks : run.picks? = none) (defers : run.defers? = some operation)
    (ahead : trial.attempt.remaining = operation :: rest) :
    Reckoning plan rank operations (turns ++ [(run, none)]) behind limiter
      ⟨trial.guard, { trial.attempt with
        remaining := rest
        waiting := trial.attempt.waiting ++ [operation]
        deferred := trial.attempt.deferred + 1 }, none⟩ := by
  obtain ⟨tallied, taken, whole, queued, listed, settled, fore, closed⟩ := reckoning
  refine ⟨?_, ?_, ?_, ?_, ?_, ?_, fore, closed⟩
  · cases tallied with
    | free tally => exact .free (tally.reorder rfl)
    | busy => cases free
  · simpa [Drain.taken_snoc, free, picks] using taken
  · simpa [Trial.ahead, free, ahead] using whole
  · rw [Drain.putOff_snoc, defers]
    exact queued.append_right [operation]
  · rw [ahead] at listed
    simpa [Drain.putOff_snoc, defers] using listed
  · rw [Drain.settled_snoc, settled]
    exact List.append_nil _

theorem take {picked taken : Attempt α}
    (reckoning : Reckoning plan rank operations turns behind limiter trial)
    (free : trial.hand = none) (picking : run.picks? = some operation)
    (defers : run.defers? = none)
    (picks : Picked (trial.attempt.isReady plan rank limiter) trial.attempt operation picked)
    (takes : Taken plan rank limiter picked operation after taken) :
    Reckoning plan rank operations (turns ++ [(run, none)]) behind after
      ⟨trial.guard, taken, some operation⟩ := by
  obtain ⟨waiting, remaining⟩ := picks.sublist
  have kept : taken.waiting = picked.waiting ∧ taken.remaining = picked.remaining := by
    rw [takes.same]
    exact ⟨rfl, rfl⟩
  refine ⟨?_, ?_, ?_, ?_, ?_, ?_, reckoning.fore, reckoning.closed⟩
  · cases reckoning.tallied with
    | free tally => exact .busy (tally.reorder (by cases picks <;> rfl)) picks.ready takes
    | busy => cases free
  · rw [Drain.taken_snoc, reckoning.taken, free, picking, Option.toList_none, List.append_nil]
  · exact ((takes.ahead picks free).append_left behind).trans reckoning.ahead
  · rw [Drain.putOff_snoc, defers, Option.toList_none, List.append_nil, kept.1]
    exact waiting.trans reckoning.queued
  · rw [Drain.putOff_snoc, defers, Option.toList_none, List.append_nil, kept.2]
    exact (remaining.append_left _).trans reckoning.listed
  · rw [Drain.settled_snoc, reckoning.settled]
    exact List.append_nil _

theorem serve {served : Attempt α} {later : List (Run α × Option (Exchange α))}
    (reckoning : Reckoning plan rank operations turns behind limiter trial)
    (held : trial.hand = some operation) (picks : Drain.taken later = Drain.taken turns)
    (defers : Drain.putOff later = Drain.putOff turns)
    (settles : Drain.settled later = Drain.settled turns ++ [operation].filter Operation.calls)
    (serves : Served plan.layout rank limiter trial.attempt operation exchange after served) :
    Reckoning plan rank operations later (behind ++ [operation]) after
      ⟨trial.guard, served.counted, none⟩ := by
  obtain ⟨waiting, remaining, _⟩ := serves.ahead
  constructor
  · cases reckoning.tallied with
    | free => cases held
    | busy tally _ takes =>
        obtain rfl := Option.some.inj held
        exact .free (tally.advance takes serves)
  · simpa [held] using picks.trans reckoning.taken
  · have whole := reckoning.ahead
    simpa [Trial.ahead, held, Attempt.counted, waiting, remaining] using whole
  · rw [defers]
    exact waiting ▸ reckoning.queued
  · rw [defers]
    exact remaining ▸ reckoning.listed
  · rw [settles, reckoning.settled, List.filter_append]
  · rw [Way.entries_snoc, Way.entries_snoc]
    refine Finset.union_subset (reckoning.fore.trans Finset.subset_union_left) ?_
    intro key entered
    obtain ⟨stage, microbatch, rfl, rfl⟩ := Way.key?_eq_some (Option.mem_toFinset.mp entered)
    -- The time of a backward does not come before its forward is entered.
    cases reckoning.tallied with
    | free => cases held
    | busy tally time _ =>
        obtain rfl := Option.some.inj held
        refine Finset.mem_union_left _ ((tally.entered .forward).contains.mp ?_)
        exact (Bool.and_eq_true_iff.mp time).1
  · intro before after same
    rcases List.eq_nil_or_concat after with rfl | ⟨between, last, rfl⟩
    · obtain ⟨rfl, last⟩ := List.append_inj' same rfl
      obtain rfl := List.singleton_inj.mp last
      cases reckoning.tallied with
      | free => cases held
      | busy tally time _ =>
          obtain rfl := Option.some.inj held
          exact (tally.completed time).1
    · rw [List.concat_eq_append, ← List.cons_append, ← List.append_assoc] at same
      exact reckoning.closed before between (List.append_inj' same rfl).1

theorem wait (reckoning : Reckoning plan rank operations turns behind limiter trial)
    (idle : run.choice? = none) (silent : exchange.bind Exchange.settled? = none) :
    Reckoning plan rank operations (turns ++ [(run, exchange)]) behind limiter trial := by
  have picks : run.picks? = none := by rw [Run.picks?, idle]
  have defers : run.defers? = none := by rw [Run.defers?, idle]
  obtain ⟨tallied, taken, whole, queued, listed, settled, fore, closed⟩ := reckoning
  refine ⟨tallied, ?_, whole, ?_, ?_, ?_, fore, closed⟩
  · simpa [Drain.taken_snoc, picks] using taken
  · simpa [Drain.putOff_snoc, defers] using queued
  · simpa [Drain.putOff_snoc, defers] using listed
  · simpa [Drain.settled_snoc, silent] using settled

theorem stride (fitted : Fitted plan rank operations run.worker)
    (reckoning : Reckoning plan rank operations turns behind run.worker.limiter trial)
    (shown : run.phase.trial? = some trial) (stride : Stride run exchange next)
    (known : next.phase.trial? = some onward) :
    ∃ behind, Reckoning plan rank operations (turns ++ [(run, exchange)]) behind
      next.worker.limiter onward := by
  have placed := fitted.placed
  have planned := fitted.planned
  cases held : trial.hand with
  | none =>
      obtain ⟨rfl, looked⟩ := Run.looked shown held stride
      cases looked with
      | finish =>
          rw [Run.trial?_finish] at known
          cases known
      | stuck =>
          rw [(Run.resting_abort ..).idle] at known
          cases known
      | defer picks defers ahead =>
          obtain rfl := Option.some.inj known
          exact ⟨behind, reckoning.defer held picks defers ahead⟩
      | start picking defers picks starts =>
          rw [planned, placed] at picks
          cases starts with
          | take takes shown =>
              obtain rfl := Option.some.inj (shown.symm.trans known)
              rw [planned, placed] at takes
              exact ⟨behind, reckoning.take held picking defers picks takes⟩
          | pass syncs signed =>
              obtain rfl := Option.some.inj known
              subst syncs
              -- A sync that passes at once is taken up and served in the same turn.
              have taken := reckoning.take held picking defers picks (.sync signed)
              exact ⟨_, taken.serve rfl rfl rfl (List.append_nil _).symm .sync⟩
          | refuse =>
              rw [(Run.resting_abort ..).idle] at known
              cases known
  | some operation =>
      have idle := Run.choice?_of_busy shown held
      cases Run.tried shown stride with
      | finish free | defer free | take free | pass free =>
          rw [held] at free
          cases free
      | wait sync asked same _ =>
          obtain rfl := Option.some.inj (same.symm.trans known)
          exact ⟨behind, reckoning.wait idle asked.unsettled⟩
      | serve holds serves =>
          obtain rfl := Option.some.inj (held.symm.trans holds)
          obtain rfl := Option.some.inj known
          rw [planned, placed] at serves
          have picks : run.picks? = none := by rw [Run.picks?, idle]
          have defers : run.defers? = none := by rw [Run.defers?, idle]
          refine ⟨_, reckoning.serve held ?_ ?_ ?_ serves⟩
          · simp [Drain.taken_snoc, picks]
          · simp [Drain.putOff_snoc, defers]
          · rw [Drain.settled_snoc, serves.settled]
      | abort =>
          rw [(Run.resting_abort ..).idle] at known
          cases known
      | collapse => cases known

theorem looks (reckoning : Reckoning plan rank operations turns behind run.worker.limiter trial)
    (shown : run.phase.trial? = some trial) :
    (Drain.taken turns ++ run.picks?.toList).Subperm operations ∧
      (Drain.putOff turns ++ run.defers?.toList).Sublist operations := by
  have listed := reckoning.listed
  rw [reckoning.taken]
  cases held : trial.hand with
  | some operation =>
      have idle := Run.choice?_of_busy shown held
      rw [Run.picks?, Run.defers?, idle]
      have ahead := reckoning.ahead
      rw [Trial.ahead, held, ← List.append_assoc] at ahead
      simp only [Option.toList_some, Option.toList_none, List.append_nil]
      exact ⟨(List.sublist_append_left _ _).subperm.trans ahead.subperm,
        (List.sublist_append_left _ _).trans listed⟩
  | none =>
      have ahead := reckoning.ahead
      rw [Trial.ahead, held] at ahead
      rw [Run.picks?, Run.defers?, Run.choice?_of_free shown held]
      have chosen := trial.attempt.chosen
        (trial.attempt.isReady run.worker.plan run.worker.rank run.worker.limiter)
      generalize trial.attempt.choose _ = choice at chosen
      simp only [Option.toList_none, List.append_nil]
      have kept : behind.Subperm operations ∧ (Drain.putOff turns).Sublist operations :=
        ⟨(List.sublist_append_left _ _).subperm.trans ahead.subperm,
          (List.sublist_append_left _ _).trans listed⟩
      cases chosen with
      | run picks =>
          have picked := ((picks.ahead.append_left behind).symm.trans ahead).subperm
          refine ⟨(List.Sublist.subperm ?_).trans picked, by simpa using kept.2⟩
          exact (List.singleton_sublist.mpr List.mem_cons_self).append_left behind
      | defer next early =>
          rw [next] at listed
          refine ⟨by simpa using kept.1, (List.Sublist.append_left ?_ _).trans listed⟩
          simp
      | finish | stuck => simpa using kept

end Reckoning

namespace Drain

theorem kin (drain : Drain first turns run) : Kin first run := by
  induction drain with
  | start => exact .refl first
  | turn _ _ stride ih => exact ih.trans stride.kin

theorem fitted {begun : Run α} {guard : Option Guard}
    (fitted : Fitted plan rank operations begun.worker)
    (drain : Drain (begun.cleared guard) turns run) : Fitted plan rank operations run.worker := by
  have cleared : Kin begun (begun.cleared guard) :=
    ⟨rfl, rfl, rfl, rfl, rfl, rfl, begun.worker.limiter.alike_reset, rfl, rfl⟩
  exact fitted.kin (cleared.trans drain.kin)

theorem reckoning {begun : Run α} {guard : Option Guard}
    (fitted : Fitted plan rank operations begun.worker)
    (drain : Drain (begun.cleared guard) turns run) (shown : run.phase.trial? = some trial) :
    ∃ behind, Reckoning plan rank operations turns behind run.worker.limiter trial := by
  induction drain generalizing trial with
  | start =>
      obtain rfl := Option.some.inj shown
      obtain ⟨placed, planned, scripted, limited, tracked⟩ := fitted
      refine ⟨[], .free (.start limited tracked _), rfl, ?_, .refl _, ?_, rfl,
        Finset.Subset.refl _, ?_⟩
      · rw [scripted]
        exact .refl _
      · rw [scripted]
        exact .refl _
      · intro before after same
        cases before <;> cases same
  | @turn turns run next trial exchange past before stride ih =>
      obtain ⟨behind, reckoning⟩ := ih before
      exact reckoning.stride (past.fitted fitted) before stride shown

end Drain

end PipelineTraining
