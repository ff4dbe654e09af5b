import Mathlib.Data.Finset.Option
import PipelineTraining.Proofs.Engine.Advance

/-!
What an attempt has behind it, in whatever order and on whatever plan. It has entered
the passes of those operations, counted the others, and keeps for a pass what they left
for it; the limiter has counted as well and never beyond its limit.
-/

namespace PipelineTraining

variable {α : Type}

namespace Way

def entries (way : Way) (operations : List Operation) : Finset (Nat × Nat) :=
  (operations.filterMap way.key?).toFinset

def entered : Way → Attempt α → List (Nat × Nat)
  | .forward => Attempt.forwarded
  | .backward => Attempt.backwarded

variable {way : Way} {operations : List Operation} {operation : Operation} {key : Nat × Nat}

theorem entries_snoc : way.entries (operations ++ [operation]) =
    way.entries operations ∪ (way.key? operation).toFinset := by
  ext key
  simp [entries, List.filterMap_append, List.filterMap_cons]
  cases way.key? operation <;> simp [eq_comm]

structure Lists (way : Way) (operations : List Operation) (passes : List (Nat × Nat)) : Prop where
  once : passes.Nodup
  all : passes.toFinset = way.entries operations

namespace Lists

variable {passes : List (Nat × Nat)} {stage : StageId} {microbatch : Nat}

theorem length (lists : way.Lists operations passes) :
    passes.length = (way.entries operations).card := by
  rw [← lists.all, List.toFinset_card_of_nodup lists.once]

theorem contains (lists : way.Lists operations passes) :
    passes.contains key = true ↔ key ∈ way.entries operations := by
  rw [← lists.all, List.mem_toFinset, List.contains_iff_mem]

theorem skip (lists : way.Lists operations passes) (other : way.key? operation = none) :
    way.Lists (operations ++ [operation]) passes :=
  ⟨lists.once, by rw [entries_snoc, other, lists.all]; simp⟩

theorem pass (lists : way.Lists operations passes) :
    way.Lists (operations ++ [way.pass stage microbatch])
      (Attempt.insertOnce (stage.logical, microbatch) passes) := by
  have all := lists.all
  unfold Attempt.insertOnce
  split
  · next known =>
    have present := lists.contains.mp known
    refine ⟨lists.once, ?_⟩
    rw [entries_snoc, key?_pass, all]
    exact (Finset.union_eq_left.mpr (by simpa using present)).symm
  · next fresh =>
    have absent : (stage.logical, microbatch) ∉ passes :=
      fun member => fresh (List.contains_iff_mem.mpr member)
    refine ⟨List.nodup_cons.mpr ⟨absent, lists.once⟩, ?_⟩
    rw [entries_snoc, key?_pass, List.toFinset_cons, all]
    ext key
    simp

end Lists
end Way

structure Tally (plan : Plan) (rank : Nat) (behind : List Operation) (limiter : Limiter)
    (attempt : Attempt α) : Prop where
  entered : ∀ way : Way, way.Lists behind (way.entered attempt)
  weighted : attempt.weighted = (behind.filterMap Operation.weightKey?).length
  signed : attempt.fingerprint.isSome = true ↔ .optimizerStep ∈ behind
  inbox : Stocked (Operation.fills? plan.layout rank) (Operation.drains? plan.layout) behind
    attempt.inbox
  limit : limiter.limit = plan.memoryLimit
  pending : ∃ count ≤ limiter.limit, limiter.pending[rank]? = some count ∧
    count + (behind.filterMap Way.backward.key?).length =
      (behind.filterMap Way.forward.key?).length
  peak : limiter.peakOn rank ≤ limiter.limit
  executed : attempt.executed = behind.length

structure Plan.Completed (plan : Plan) (done : List Operation) : Prop where
  passes : ∀ way : Way, (way.entries done).card = plan.passesPerRank
  weights : plan.split = true →
    (done.filterMap Operation.weightKey?).length = plan.passesPerRank
  drained : (done.filterMap Way.forward.key?).length = (done.filterMap Way.backward.key?).length

variable {plan : Plan} {rank : Nat} {behind : List Operation} {operation : Operation}
  {limiter taking after : Limiter} {attempt taken served : Attempt α}
  {exchange : Option (Exchange α)}

namespace Limiter

variable {count : Nat}

theorem peakOn_admit (admits : limiter.admit? rank = some after)
    (peak : limiter.peakOn rank ≤ limiter.limit) : after.peakOn rank ≤ after.limit := by
  obtain ⟨count, _, room, rfl⟩ := admit?_eq_some.mp admits
  have raised : max (limiter.peakOn rank) (count + 1) ≤ limiter.limit :=
    Nat.max_le.mpr ⟨peak, room⟩
  simp only [peakOn, List.getElem?_set_self'] at raised ⊢
  cases found : limiter.peaks[rank]? with
  | none => exact Nat.zero_le _
  | some high =>
      rw [found] at raised
      exact raised

end Limiter

namespace Taken

theorem pending (takes : Taken plan rank limiter attempt operation taking taken) {count : Nat}
    (found : limiter.pending[rank]? = some count) (inside : count ≤ limiter.limit) :
    ∃ count' ≤ taking.limit, taking.pending[rank]? = some count' ∧
      count' = count + (Way.forward.key? operation).toList.length := by
  cases takes with
  | forward _ admits =>
      obtain ⟨_, same, room, rfl⟩ := Limiter.admit?_eq_some.mp admits
      obtain rfl := Option.some.inj (same.symm.trans found)
      exact ⟨_, room, Limiter.pending_admit found admits, rfl⟩
  | backward | weights | send | receive | optimizer | sync => exact ⟨count, inside, found, rfl⟩

theorem peak (takes : Taken plan rank limiter attempt operation taking taken)
    (peak : limiter.peakOn rank ≤ limiter.limit) : taking.peakOn rank ≤ taking.limit := by
  cases takes with
  | forward _ admits => exact Limiter.peakOn_admit admits peak
  | backward | weights | send | receive | optimizer | sync => exact peak

theorem inbox (takes : Taken plan rank limiter attempt operation taking taken) :
    taken.inbox = attempt.inbox.withoutAt (operation.drains? plan.layout) := by
  cases takes with
  | @forward stage microbatch _ _ _ found _ =>
      unfold Attempt.forwardInput at found
      by_cases first : plan.layout.isFirst stage = true
      · rw [if_pos first] at found
        obtain ⟨_, rfl⟩ := Prod.mk.inj (Except.ok.inj found)
        simp [Operation.drains?, Way.drains?, Way.source, Layout.prev, first, Shelf.withoutAt]
      · rw [if_neg first] at found
        split at found
        · next payload rest laid =>
          obtain ⟨_, rfl⟩ := Prod.mk.inj (Except.ok.inj found)
          simp [Operation.drains?, Way.drains?, Way.source, Layout.prev, first, Shelf.withoutAt,
            Shelf.take?_rest laid, Way.kind]
        · cases found
  | @backward stage microbatch _ _ found =>
      unfold Attempt.backwardInput at found
      by_cases last : plan.layout.isLast stage = true
      · rw [if_pos last] at found
        obtain ⟨_, rfl⟩ := Prod.mk.inj (Except.ok.inj found)
        simp [Operation.drains?, Way.drains?, Way.source, Layout.next, last, Shelf.withoutAt]
      · rw [if_neg last] at found
        split at found
        · next payload rest laid =>
          obtain ⟨_, rfl⟩ := Prod.mk.inj (Except.ok.inj found)
          simp [Operation.drains?, Way.drains?, Way.source, Layout.next, last, Shelf.withoutAt,
            Shelf.take?_rest laid, Way.kind]
        · cases found
  | weights | send | receive | optimizer | sync => rfl

end Taken

namespace Served

theorem entered (serves : Served plan.layout rank limiter attempt operation exchange after served)
    {way : Way} (lists : way.Lists behind (way.entered attempt)) :
    way.Lists (behind ++ [operation]) (way.entered served) := by
  cases serves with
  | forward =>
      rw [Attempt.passOn_eq]
      cases way with
      | forward => exact lists.pass
      | backward => exact lists.skip rfl
  | backward =>
      rw [Attempt.passBack_eq]
      cases way with
      | forward => exact lists.skip rfl
      | backward => exact lists.pass
  | weights | send | receive | optimizer | sync | gather => cases way <;> exact lists.skip rfl

theorem weighted
    (serves : Served plan.layout rank limiter attempt operation exchange after served) :
    served.weighted = attempt.weighted + operation.weightKey?.toList.length := by
  cases serves with
  | forward => rw [Attempt.passOn_eq]; rfl
  | backward => rw [Attempt.passBack_eq]; rfl
  | weights | send | receive | optimizer | sync | gather => rfl

theorem signed (serves : Served plan.layout rank limiter attempt operation exchange after served) :
    served.fingerprint.isSome = true ↔
      attempt.fingerprint.isSome = true ∨ operation = .optimizerStep := by
  by_cases optimizes : operation = .optimizerStep
  · subst optimizes
    cases serves with
    | optimizer => simp
  · simp [serves.marks.1 optimizes, optimizes]

theorem pending (serves : Served plan.layout rank limiter attempt operation exchange after served)
    {count : Nat} (found : limiter.pending[rank]? = some count) :
    ∃ count', after.pending[rank]? = some count' ∧
      count' + (Way.backward.key? operation).toList.length = count := by
  cases serves with
  | backward completes =>
      obtain ⟨rest, before, now⟩ := Limiter.pending_complete completes
      exact ⟨rest, now, Option.some.inj (before.symm.trans found)⟩
  | forward | weights | send | receive | optimizer | sync | gather => exact ⟨count, found, rfl⟩

theorem peak (serves : Served plan.layout rank limiter attempt operation exchange after served) :
    after.peakOn rank = limiter.peakOn rank := by
  cases serves with
  | backward completes => exact Limiter.peakOn_complete completes
  | forward | weights | send | receive | optimizer | sync | gather => rfl

theorem inbox_kept
    (serves : Served plan.layout rank limiter attempt operation exchange after served)
    {slot : Slot} (present : attempt.inbox.has slot = true) : served.inbox.has slot = true := by
  cases serves with
  | forward => rw [Attempt.passOn_eq]; exact Shelf.has_putAt_of_has _ present
  | backward => rw [Attempt.passBack_eq]; exact Shelf.has_putAt_of_has _ present
  | receive => exact Shelf.has_put_of_has _ present
  | weights | send | optimizer | sync | gather => exact present

theorem inbox_filled
    (serves : Served plan.layout rank limiter attempt operation exchange after served)
    {slot : Slot} (filled : operation.fills? plan.layout rank = some slot) :
    served.inbox.has slot = true := by
  cases serves with
  | forward => rw [Attempt.passOn_eq]; exact Shelf.has_putAt_self _ _ filled
  | backward => rw [Attempt.passBack_eq]; exact Shelf.has_putAt_self _ _ filled
  | receive =>
      obtain rfl := Option.some.inj filled
      exact Shelf.has_put_self _ _ _
  | weights | send | optimizer | sync | gather => cases filled

end Served

namespace Tally

theorem start {run : Run α} {guard : Option Guard}
    (limit : run.worker.limiter.limit = plan.memoryLimit)
    (tracked : rank < run.worker.limiter.pending.length) (operations : List Operation) :
    Tally plan rank [] run.worker.limiter.reset
      (.start (run.epoch guard) run.attemptInputs operations) := by
  constructor
  · intro way
    cases way <;> exact ⟨List.nodup_nil, rfl⟩
  · rfl
  · simp [Attempt.start]
  · exact Stocked.empty _ _
  · exact limit
  · exact ⟨0, Nat.zero_le _, Limiter.pending_reset tracked, rfl⟩
  · exact (Limiter.peakOn_reset _).trans_le (Nat.zero_le _)
  · rfl

/-- Which operations are put off and which are to come makes no difference. -/
theorem reorder (tally : Tally plan rank behind limiter attempt)
    (same : taken = { attempt with
      waiting := taken.waiting, remaining := taken.remaining, deferred := taken.deferred }) :
    Tally plan rank behind limiter taken := by
  obtain ⟨entered, weighted, signed, inbox, limit, pending, peak, executed⟩ := tally
  rw [same]
  refine ⟨fun way => ?_, weighted, signed, inbox, limit, pending, peak, executed⟩
  cases way
  · exact entered .forward
  · exact entered .backward

/-- An operation more behind the attempt, once it was taken up and served. -/
theorem advance (tally : Tally plan rank behind limiter attempt)
    (takes : Taken plan rank limiter attempt operation taking taken)
    (serves : Served plan.layout rank taking taken operation exchange after served) :
    Tally plan rank (behind ++ [operation]) after served.counted := by
  have same := takes.same
  have limited : after.limit = limiter.limit := (takes.alike.trans serves.alike).limit
  constructor
  · intro way
    have lists : way.Lists behind (way.entered taken) := by
      rw [same]
      cases way
      · exact tally.entered .forward
      · exact tally.entered .backward
    have entered := serves.entered lists
    cases way <;> exact entered
  · have weighted : taken.weighted = attempt.weighted := by rw [same]
    rw [length_filterMap_snoc, ← tally.weighted, ← weighted]
    exact serves.weighted
  · have signed : taken.fingerprint = attempt.fingerprint := by rw [same]
    refine serves.signed.trans ?_
    rw [signed, tally.signed, List.mem_append, List.mem_singleton, eq_comm (a := operation)]
  · refine tally.inbox.snoc (fun slot undrained present => ?_) fun slot => serves.inbox_filled
    refine serves.inbox_kept ?_
    rw [takes.inbox]
    exact Shelf.has_withoutAt undrained present
  · exact limited.trans tally.limit
  · obtain ⟨count, inside, found, balance⟩ := tally.pending
    obtain ⟨more, room, counted, added⟩ := takes.pending found inside
    obtain ⟨fewer, remains, subtracted⟩ := serves.pending counted
    have limits := serves.alike.limit
    refine ⟨fewer, by omega, remains, ?_⟩
    rw [length_filterMap_snoc, length_filterMap_snoc]
    omega
  · rw [serves.peak, serves.alike.limit]
    exact takes.peak tally.peak
  · have executed : served.executed = attempt.executed := by
      rw [serves.executed, same]
    rw [Attempt.counted, executed, tally.executed, List.length_append, List.length_singleton]

/-- By the time of an optimizer step all that it waits for is behind, and nothing is pending. -/
theorem completed (tally : Tally plan rank behind limiter attempt)
    (time : attempt.isReady plan rank limiter .optimizerStep = true) :
    plan.Completed behind ∧ limiter.pendingOn rank = 0 := by
  simp only [Attempt.isReady, Bool.and_eq_true, beq_iff_eq, Bool.or_eq_true, Bool.not_eq_true']
    at time
  obtain ⟨⟨⟨forwarded, backwarded⟩, weighted⟩, idle⟩ := time
  obtain ⟨count, _, pending, balance⟩ := tally.pending
  refine ⟨⟨fun way => ?_, fun split => ?_, ?_⟩, idle⟩
  · rw [← (tally.entered way).length]
    cases way
    · exact forwarded
    · exact backwarded
  · rw [← tally.weighted]
    exact weighted.resolve_left (by simp [split])
  · rw [Limiter.pendingOn, pending] at idle
    have none : count = 0 := idle
    omega

end Tally
end PipelineTraining
