import PipelineTraining.Proofs.Engine.Precedence
import PipelineTraining.Proofs.Plan.SingleRank

/-!
Where one rank has all stages, something can always be run. Of the passes of a way that are
left one has its input at hand; a forward that the limiter refuses waits for a backward that
nothing holds up. So an attempt on such a rank is never stuck, whatever the order of its
operations, and returns if its calls do not fail.
-/

namespace PipelineTraining

variable {α : Type} {plan : Plan} {operations behind left : List Operation}
  {operation : Operation} {limiter : Limiter} {attempt : Attempt α} {way : Way} {stage : StageId}
  {microbatch : Nat}

namespace Plan.Solitary

section split

variable (solitary : plan.Solitary operations) (split : (behind ++ left).Perm operations)

include solitary split

theorem not_behind (member : operation ∈ left) : operation ∉ behind := by
  have once := split.nodup_iff.mpr solitary.once
  exact fun done => (List.nodup_append.mp once).2.2 operation done operation member rfl

theorem behind_keys_nodup (way : Way) : (behind.filterMap way.key?).Nodup := by
  have once := (split.filterMap way.key?).nodup_iff.mpr (solitary.keys_nodup way)
  rw [List.filterMap_append] at once
  exact (List.nodup_append.mp once).1

theorem mem_behind_keys (known : plan.layout.IsStage stage) :
    (stage.logical, microbatch) ∈ behind.filterMap way.key? ↔
      way.pass stage microbatch ∈ behind :=
  solitary.mem_keys (fun _ member => split.subset (List.mem_append_left _ member)) known

theorem behind_or_left (way : Way) (held : plan.Holds stage microbatch) :
    way.pass stage microbatch ∈ behind ∨ way.pass stage microbatch ∈ left :=
  List.mem_append.mp (split.symm.subset (solitary.complete way stage microbatch held))

theorem keys_split (way : Way) : (behind.filterMap way.key?).length +
    (left.filterMap way.key?).length = plan.passesPerRank := by
  rw [← List.length_append, ← List.filterMap_append, ← solitary.passes way]
  exact (split.filterMap way.key?).length_eq

/-- Of the passes of a way that are left, one has the pass before it behind. -/
theorem foremost {stage : StageId} (member : way.pass stage microbatch ∈ left) :
    ∃ first, way.pass first microbatch ∈ left ∧
      ∀ source, way.source plan.layout first = some source →
        way.pass source microbatch ∈ behind := by
  obtain ⟨known, inside⟩ := solitary.holds_of_mem (split.subset (List.mem_append_right _ member))
  cases found : way.source plan.layout stage with
  | none =>
      refine ⟨stage, member, fun source same => ?_⟩
      rw [found] at same
      cases same
  | some source =>
      rcases solitary.behind_or_left split way ⟨way.isStage_source known found, inside⟩ with
        done | waits
      · refine ⟨stage, member, fun other same => ?_⟩
        obtain rfl := Option.some.inj (found.symm.trans same)
        exact done
      · exact foremost waits
termination_by way.level plan.layout stage
decreasing_by exact way.level_source known found

variable (tally : Tally plan 0 behind limiter attempt)

include tally

/-- What the pass before has handed on is still there for a pass that is left. -/
theorem entry_ready (member : way.pass stage microbatch ∈ left)
    (fed : ∀ source, way.source plan.layout stage = some source →
      way.pass source microbatch ∈ behind) :
    way.source plan.layout stage = none ∨
      attempt.inbox.has ⟨way.kind, stage.logical, microbatch⟩ = true := by
  have known := (solitary.holds_of_mem (split.subset (List.mem_append_right _ member))).1
  cases found : way.source plan.layout stage with
  | none => exact Or.inl rfl
  | some source =>
      refine Or.inr (tally.inbox _ ⟨_, fed source found, ?_⟩ ?_)
      · rw [Operation.fills?_pass, Way.fills?, way.target_of_source known found, Option.bind_some,
          if_pos (solitary.rankOf known)]
      · intro taker done drained
        obtain ⟨other, another, micro, rfl, same⟩ := Operation.drains?_eq_some drained
        obtain ⟨kind, logical, rfl⟩ := Slot.mk.inj same
        obtain rfl := Way.kind_inj kind
        have listed := split.subset (List.mem_append_left left done)
        obtain rfl := known.eq_of_logical (solitary.holds_of_mem listed).1 logical
        exact solitary.not_behind split member done

theorem ready_forward (member : .forward stage microbatch ∈ left)
    (admits : limiter.admits 0 = true) :
    ∃ operation ∈ left, attempt.isReady plan 0 limiter operation = true := by
  obtain ⟨first, waits, fed⟩ :=
    solitary.foremost split (show Way.forward.pass _ _ ∈ left from member)
  have entry : plan.layout.isFirst first = true ∨
      attempt.inbox.has ⟨.activation, first.logical, microbatch⟩ = true :=
    (solitary.entry_ready split tally waits fed).imp_left fun none => by
      simpa [Layout.isFirst] using Layout.prev_eq_none.mp none
  exact ⟨_, waits, by simpa [Way.pass, Attempt.isReady, admits] using entry⟩

theorem entered_iff (way : Way) (known : plan.layout.IsStage stage) :
    (way.entered attempt).contains (stage.logical, microbatch) = true ↔
      way.pass stage microbatch ∈ behind := by
  rw [(tally.entered way).contains, Way.entries, List.mem_toFinset,
    solitary.mem_behind_keys split known]

/-- A full limiter has counted a forward whose backward is left. -/
theorem pending_pass (full : limiter.admits 0 = false) : ∃ stage microbatch,
    .forward stage microbatch ∈ behind ∧ .backward stage microbatch ∈ left := by
  obtain ⟨count, inside, pending, balance⟩ := tally.pending
  have limit := tally.limit
  have positive := solitary.limit
  have counted : ¬ count < limiter.limit := fun room => by
    rw [(Limiter.admits_iff pending).mpr room] at full
    cases full
  by_contra settled
  -- If every forward behind had its backward behind, none would be pending.
  have covered : behind.filterMap Way.forward.key? ⊆ behind.filterMap Way.backward.key? := by
    intro key keyed
    obtain ⟨operation, done, found⟩ := List.mem_filterMap.mp keyed
    obtain ⟨stage, microbatch, rfl, rfl⟩ := Way.key?_eq_some found
    have held := solitary.holds_of_mem (split.subset (List.mem_append_left left done))
    rw [solitary.mem_behind_keys split held.1]
    refine (solitary.behind_or_left split .backward held).resolve_right fun waits => ?_
    exact settled ⟨stage, microbatch, done, waits⟩
  have fewer := (solitary.behind_keys_nodup split .forward).length_le_of_subset covered
  omega

theorem ready_refused (single : plan.layout.chunks = 1) (full : limiter.admits 0 = false) :
    ∃ operation ∈ left, attempt.isReady plan 0 limiter operation = true := by
  obtain ⟨stage, microbatch, done, waits⟩ := solitary.pending_pass split tally full
  have listed : Way.forward.pass stage microbatch ∈ operations :=
    split.subset (List.mem_append_left _ done)
  have known := (solitary.holds_of_mem listed).1
  have forwarded : attempt.forwarded.contains (stage.logical, microbatch) = true :=
    (solitary.entered_iff split tally .forward known).mpr done
  have last := solitary.isLast_of_single single known
  exact ⟨_, waits, by simp only [Attempt.isReady, forwarded, last, Bool.true_or, Bool.and_self]⟩

theorem ready_backward (member : .backward stage microbatch ∈ left)
    (through : ∀ stage microbatch, .forward stage microbatch ∉ left) :
    ∃ operation ∈ left, attempt.isReady plan 0 limiter operation = true := by
  obtain ⟨first, waits, fed⟩ :=
    solitary.foremost split (show Way.backward.pass _ _ ∈ left from member)
  have held := solitary.holds_of_mem (split.subset (List.mem_append_right _ waits))
  have forwarded : attempt.forwarded.contains (first.logical, microbatch) = true :=
    (solitary.entered_iff split tally .forward held.1).mpr
      ((solitary.behind_or_left split .forward held).resolve_right (through _ _))
  have entry : plan.layout.isLast first = true ∨
      attempt.inbox.has ⟨.gradient, first.logical, microbatch⟩ = true :=
    (solitary.entry_ready split tally waits fed).imp_left fun none => by
      simpa [Layout.isLast] using Layout.next_eq_none.mp none
  refine ⟨_, waits, ?_⟩
  simpa only [Way.pass, Attempt.isReady, forwarded, Bool.true_and, Bool.or_eq_true] using entry

theorem ready_weights (member : .backwardWeights stage microbatch ∈ left)
    (through : ∀ stage microbatch, .backward stage microbatch ∉ left) :
    attempt.isReady plan 0 limiter (.backwardWeights stage microbatch) = true := by
  have held := (solitary.homely _ (split.subset (List.mem_append_right _ member))).1
  exact (solitary.entered_iff split tally .backward held.1).mpr
    ((solitary.behind_or_left split .backward held).resolve_right (through _ _))

/-- Once no pass is left, the time of the optimizer step has come. -/
theorem ready_optimizer (through : ∀ operation ∈ left, operation.isCompute = false) :
    attempt.isReady plan 0 limiter .optimizerStep = true := by
  have whole : ∀ way : Way, (behind.filterMap way.key?).length = plan.passesPerRank := by
    intro way
    have none : left.filterMap way.key? = [] := by
      refine List.filterMap_eq_nil_iff.mpr fun operation waits => ?_
      have plain := through operation waits
      cases way <;> cases operation <;> first | rfl | cases plain
    simpa [none] using solitary.keys_split split way
  have entered : ∀ way : Way, (way.entered attempt).length = plan.passesPerRank := by
    intro way
    rw [(tally.entered way).length, Way.entries,
      List.toFinset_card_of_nodup (solitary.behind_keys_nodup split way), whole]
  have weighted : plan.split = true → attempt.weighted = plan.passesPerRank := by
    intro splits
    have none : left.filterMap Operation.weightKey? = [] := by
      refine List.filterMap_eq_nil_iff.mpr fun operation waits => ?_
      have plain := through operation waits
      cases operation <;> first | rfl | cases plain
    have counted := (split.filterMap Operation.weightKey?).length_eq
    rw [List.filterMap_append, none, List.append_nil, solitary.weights splits] at counted
    exact tally.weighted.trans counted
  obtain ⟨count, _, pending, balance⟩ := tally.pending
  have idle : limiter.pendingOn 0 = 0 := by
    rw [whole, whole] at balance
    rw [Limiter.pendingOn, pending]
    exact Nat.add_eq_right.mp balance
  have forwarded : attempt.forwarded.length = plan.passesPerRank := entered .forward
  have backwarded : attempt.backwarded.length = plan.passesPerRank := entered .backward
  have split : plan.split = false ∨ attempt.weighted = plan.passesPerRank := by
    cases splits : plan.split with
    | false => exact Or.inl rfl
    | true => exact Or.inr (weighted splits)
  simpa [Attempt.isReady, forwarded, backwarded, idle] using split

/-- As long as something is left, the time of some of it has come. -/
theorem onward (room : plan.layout.chunks = 1 ∨ plan.passesPerRank ≤ plan.memoryLimit)
    (some : left ≠ []) : ∃ operation ∈ left, attempt.isReady plan 0 limiter operation = true := by
  by_cases forwards : ∃ stage microbatch, .forward stage microbatch ∈ left
  · obtain ⟨stage, microbatch, waits⟩ := forwards
    cases admitted : limiter.admits 0 with
    | true => exact solitary.ready_forward split tally waits admitted
    | false =>
        refine solitary.ready_refused split tally (room.resolve_right fun wide => ?_) admitted
        -- With room for all forwards, none that is left would be refused.
        obtain ⟨count, _, pending, balance⟩ := tally.pending
        have whole := solitary.keys_split split .forward
        have waiting : 0 < (left.filterMap Way.forward.key?).length :=
          List.length_pos_of_mem (List.mem_filterMap.mpr ⟨_, waits, rfl⟩)
        have limit := tally.limit
        rw [(Limiter.admits_iff pending).mpr (by omega)] at admitted
        cases admitted
  by_cases backwards : ∃ stage microbatch, .backward stage microbatch ∈ left
  · obtain ⟨stage, microbatch, waits⟩ := backwards
    exact solitary.ready_backward split tally waits fun stage microbatch waits =>
      forwards ⟨stage, microbatch, waits⟩
  by_cases weights : ∃ stage microbatch, .backwardWeights stage microbatch ∈ left
  · obtain ⟨stage, microbatch, waits⟩ := weights
    exact ⟨_, waits, solitary.ready_weights split tally waits fun stage microbatch waits =>
      backwards ⟨stage, microbatch, waits⟩⟩
  have through : ∀ operation ∈ left, operation.isCompute = false := by
    intro operation waits
    cases operation with
    | forward stage microbatch => exact absurd ⟨stage, microbatch, waits⟩ forwards
    | backward stage microbatch => exact absurd ⟨stage, microbatch, waits⟩ backwards
    | backwardWeights stage microbatch => exact absurd ⟨stage, microbatch, waits⟩ weights
    | send | receive | optimizerStep | validationSync => rfl
  rcases List.mem_append.mp (split.symm.subset solitary.ends) with signed | waits
  · obtain ⟨operation, waits⟩ := List.exists_mem_of_ne_nil left some
    have homely := solitary.homely operation (split.subset (List.mem_append_right _ waits))
    have plain := through operation waits
    -- Behind the optimizer step only the sync can be left.
    cases operation with
    | forward | backward | backwardWeights => cases plain
    | send | receive => exact homely.elim
    | optimizerStep => exact absurd signed (solitary.not_behind split waits)
    | validationSync => exact ⟨_, waits, tally.signed.mpr signed⟩
  · exact ⟨_, waits, solitary.ready_optimizer split tally through⟩

end split

end Plan.Solitary

variable {rank : Nat} {turns : List (Run α × Option (Exchange α))} {begun run next first : Run α}
  {trial onward : Trial α} {exchange : Option (Exchange α)} {guard : Option Guard}

def Request.calls : Request α → Bool
  | .forward .. => true
  | .backward .. => true
  | .backwardWeights .. => true
  | .optimize => true
  | _ => false

/-- At home only the sync asks for anything but a call. -/
theorem Request.IsFor.calls {made : Exchange α} (asked : made.request.IsFor operation)
    (homely : plan.Homely operation) (other : operation ≠ .validationSync) :
    made.request.calls = true ∧ made.strays = false := by
  obtain ⟨request, answer⟩ := made
  cases request with
  | forward | backward | backwardWeights | optimize => exact ⟨rfl, rfl⟩
  | send | receive =>
      obtain ⟨_, rfl⟩ := asked
      exact homely.elim
  | dropPublished | publish | collect | gather => exact absurd asked other
  | dropStale | snapshot | restore | discard => exact asked.elim

namespace Run

theorem enabled_of_take (held : (run.take guard attempt operation).inHand? =
      some .validationSync) : run.worker.validator.isEnabled = true := by
  have empty : ∀ fault, (run.abort guard fault).inHand? ≠ some .validationSync := by
    intro fault same
    rw [inHand?, (resting_abort run guard fault).idle] at same
    cases same
  cases operation with
  | forward stage microbatch =>
      simp only [take, startForward] at held
      split at held
      · exact absurd held (empty _)
      · split at held
        · exact absurd held (empty _)
        · cases held
  | backward stage microbatch =>
      simp only [take, startBackward] at held
      split at held
      · exact absurd held (empty _)
      · cases held
  | backwardWeights | optimizerStep => cases held
  | send peer transfer =>
      simp only [take, startSend] at held
      split at held
      · exact absurd held (empty _)
      · split at held
        · exact absurd held (empty _)
        · cases held
  | receive peer transfer =>
      simp only [take, startReceive] at held
      split at held
      · exact absurd held (empty _)
      · cases held
  | validationSync =>
      simp only [take, startSync] at held
      split at held
      · exact absurd held (empty _)
      · split at held
        · assumption
        · cases held

theorem enabled_of_choose {held : Attempt α} (sync : (run.choose guard held).inHand? =
      some .validationSync) : run.worker.validator.isEnabled = true := by
  simp only [choose] at sync
  split at sync
  · exact enabled_of_take sync
  · cases sync
  · rw [inHand?, trial?_finish] at sync
    cases sync
  · rw [inHand?, (resting_abort ..).idle] at sync
    cases sync

end Run

namespace Drain

theorem unsynced (silent : begun.worker.validator.isEnabled = false)
    (drain : Drain (begun.cleared guard) turns run) : run.inHand? ≠ some .validationSync := by
  induction drain with
  | start => intro held; cases held
  | @turn turns run next trial exchange past shown stride ih =>
      intro held
      have off : run.worker.validator.isEnabled = false := by
        rw [past.kin.validator]
        exact silent
      cases hand : trial.hand with
      | none =>
          obtain ⟨_, rfl⟩ := Run.next_of_free shown hand stride
          rw [Run.enabled_of_choose held] at off
          cases off
      | some operation =>
          have other : trial.hand ≠ some .validationSync := by
            rw [Run.inHand?, shown] at ih
            exact ih
          cases Run.tried shown stride with
          | finish free | defer free | take free | pass free =>
              rw [hand] at free
              cases free
          | wait sync => exact other sync
          | serve | collapse => cases held
          | abort =>
              rw [Run.inHand?, (Run.resting_abort ..).idle] at held
              cases held

end Drain

namespace Reckoning

/-- A backward in hand is counted as pending. -/
theorem completes (solitary : plan.Solitary operations)
    (reckoning : Reckoning plan 0 operations turns behind limiter trial)
    (held : trial.hand = some (.backward stage microbatch)) :
    ∃ completed, limiter.complete 0 = .ok completed := by
  have split := reckoning.ahead
  have waits : Way.backward.pass stage microbatch ∈ trial.ahead := by
    rw [Trial.ahead, held]
    exact List.mem_cons_self
  have known := (solitary.holds_of_mem (split.subset (List.mem_append_right _ waits))).1
  obtain ⟨before, earlier, tally, time, same⟩ := reckoning.time held
  obtain rfl := same rfl
  obtain ⟨count, _, pending, balance⟩ := tally.pending
  -- Its forward is behind and it is not, while all backwards behind have their forwards there.
  have unsettled : (stage.logical, microbatch) ∉ behind.filterMap Way.backward.key? := by
    rw [solitary.mem_behind_keys split known]
    exact solitary.not_behind split waits
  have covered : (stage.logical, microbatch) :: behind.filterMap Way.backward.key? ⊆
      behind.filterMap Way.forward.key? := by
    refine List.cons_subset.mpr ⟨?_, fun key keyed => ?_⟩
    · have entered := (tally.entered .forward).contains.mp (Bool.and_eq_true_iff.mp time).1
      exact List.mem_toFinset.mp entered
    · exact List.mem_toFinset.mp (reckoning.fore (List.mem_toFinset.mpr keyed))
  have once := List.nodup_cons.mpr ⟨unsettled, solitary.behind_keys_nodup split .backward⟩
  have fewer := once.length_le_of_subset covered
  rw [List.length_cons] at fewer
  obtain ⟨rest, rfl⟩ : ∃ rest, count = rest + 1 := ⟨count - 1, by omega⟩
  obtain ⟨completed, completes, _⟩ := Limiter.complete_of_pending pending
  exact ⟨completed, completes⟩

end Reckoning

structure Drained (plan : Plan) (operations : List Operation)
    (turns : List (Run α × Option (Exchange α))) (behind : List Operation) (run : Run α)
    (trial : Trial α) (exchange : Option (Exchange α)) (next : Run α) : Prop where
  reckoning : Reckoning plan 0 operations turns behind run.worker.limiter trial
  hand : trial.hand = none
  picks : run.picks? = none
  whole : behind.Perm operations
  silent : exchange = none
  finishes : next = run.finish trial.guard trial.attempt

namespace Drain

/-- Where calls do not fail, an attempt on a single rank ends only when all is done. -/
theorem drained (fitted : Fitted plan 0 operations begun.worker)
    (solitary : plan.Solitary operations)
    (room : plan.layout.chunks = 1 ∨ plan.passesPerRank ≤ plan.memoryLimit)
    (silent : begun.worker.validator.isEnabled = false)
    (drain : Drain (begun.cleared guard) turns run) (shown : run.phase.trial? = some trial)
    (stride : Stride run exchange next)
    (succeeds : ∀ made ∈ exchange, made.request.calls = true → made.fails = false)
    (ended : next.phase.trial? = none) :
    ∃ behind, Drained plan operations turns behind run trial exchange next := by
  obtain ⟨behind, reckoning⟩ := drain.reckoning fitted shown
  obtain ⟨placed, planned, _⟩ := drain.fitted fitted
  have ahead := reckoning.ahead
  cases held : trial.hand with
  | none =>
      obtain ⟨rfl, looked⟩ := Run.looked shown held stride
      cases looked with
      | finish picks waited through =>
          refine ⟨behind, reckoning, held, picks, ?_, rfl, rfl⟩
          simpa [Trial.ahead, held, waited, through] using ahead
      | stuck _ some through late =>
          rw [Trial.ahead, held, through, List.append_nil] at ahead
          cases reckoning.tallied with
          | free tally =>
              obtain ⟨operation, waits, ready⟩ := solitary.onward ahead tally room some
              rw [← planned, ← placed, late operation waits] at ready
              cases ready
          | busy => cases held
      | defer => cases ended
      | @start operation picked _ _ _ picks starts =>
          cases starts with
          | take _ known => cases known.symm.trans ended
          | pass => cases ended
          | refuse moves =>
              have homely := solitary.homely operation (reckoning.mem_of_picked picks)
              cases operation with
              | send | receive => exact homely.elim
              | forward | backward | backwardWeights | optimizerStep | validationSync => cases moves
  | some operation =>
      have listed := reckoning.mem_of_held held
      have unsynced := drain.unsynced silent
      rw [Run.inHand?, shown, Option.bind_some, held] at unsynced
      cases Run.tried shown stride with
      | finish free | defer free | take free | pass free =>
          rw [held] at free
          cases free
      | wait _ _ known => cases known.symm.trans ended
      | serve => cases ended
      | abort halted =>
          cases halted with
          | stuck free | refuse free =>
              rw [held] at free
              cases free
          | uncounted backward missing =>
              obtain ⟨completed, completes⟩ := reckoning.completes solitary backward
              rw [placed, completes] at missing
              cases missing
          | fail holds asked failed =>
              obtain rfl := Option.some.inj (held.symm.trans holds)
              obtain ⟨calls, moves⟩ := asked.calls (solitary.homely _ listed)
                fun sync => unsynced (congrArg some sync)
              rw [succeeds _ rfl calls, moves] at failed
              simp at failed
      | collapse _ unplaced =>
          rw [planned, Layout.places_of_sound solitary.sound] at unplaced
          cases unplaced

end Drain

end PipelineTraining
