import Mathlib.Data.List.Perm.Basic
import PipelineTraining.Proofs.Clock.History

/-!
What a clock that ran to its end has committed: every pass of every stage once,
forward and backward, and a weight pass behind every backward if they are split.
-/

namespace PipelineTraining

namespace WorkOrder

variable {layout : Layout}

theorem order_length {microbatches rank : Nat} {order : List Pass} (noDup : order.Nodup)
    (members : ∀ pass, pass ∈ order ↔ ∃ chunk < layout.chunks, ∃ microbatch < microbatches,
      pass = (layout.stage rank chunk, microbatch)) :
    order.length = microbatches * layout.chunks := by
  let grid := (List.range layout.chunks).flatMap fun chunk =>
    (List.range microbatches).map fun microbatch => (layout.stage rank chunk, microbatch)
  have gridNodup : grid.Nodup := by
    refine List.nodup_flatMap.mpr ⟨fun chunk _ => ?_, ?_⟩
    · exact List.nodup_range.map fun first second same => (Prod.ext_iff.mp same).2
    · refine List.nodup_range.imp fun different => ?_
      simp only [Function.onFun, List.disjoint_left, List.mem_map]
      rintro _ ⟨_, _, rfl⟩ ⟨_, _, same⟩
      exact different (congrArg (fun pass => pass.1.chunk) same).symm
  have same : order.Perm grid := by
    refine (List.perm_ext_iff_of_nodup noDup gridNodup).mpr fun pass => ?_
    rw [members]
    simp only [grid, List.mem_flatMap, List.mem_range, List.mem_map, eq_comm]
  rw [same.length_eq]
  simp only [grid, List.length_flatMap, List.length_map, List.length_range, List.map_const',
    List.sum_replicate_nat]
  exact Nat.mul_comm _ _

theorem forward_length (layout : Layout) (rank microbatches : Nat) :
    (forward layout rank microbatches).length = microbatches * layout.chunks :=
  order_length (forward_nodup layout rank microbatches) fun _ => mem_forward

theorem backward_length (layout : Layout) (rank microbatches : Nat) :
    (backward layout rank microbatches).length = microbatches * layout.chunks :=
  order_length (backward_nodup layout rank microbatches) fun _ => mem_backward

end WorkOrder

namespace Simulation
open Course

variable {work : Workload} {state : Simulation} {log : List Commit}

namespace History

theorem unseen (history : History work log state) {rank : Nat} {clock : RankClock}
    {choice : Candidate} (present : state.ranks[rank]? = some clock)
    (granted : Granted work state rank clock choice) : (rank, choice.action) ∉ taken log := by
  have tracked := history.tracked present
  have inside := history.inside present
  intro member
  cases granted with
  | @forward pass rest tick next room arrived =>
      have noDup := WorkOrder.forward_nodup work.layout rank work.microbatches
      rw [← tracked.forwards, next, List.nodup_append] at noDup
      exact noDup.2.2 pass (mem_forwards.mpr member) pass List.mem_cons_self rfl
  | @backward pass rest tick next arrived =>
      have noDup := WorkOrder.backward_nodup work.layout rank work.microbatches
      rw [← tracked.backwards, next, List.nodup_append] at noDup
      exact noDup.2.2 pass (mem_backwards.mpr member) pass List.mem_cons_self rfl
  | @weights pass rest next =>
      have noDup : (if work.split then passesOf Action.backward? rank (taken log)
          else []).Nodup := by
        split
        · exact history.backwards_nodup inside
        · exact List.nodup_nil
      rw [← tracked.weights, next, List.nodup_append] at noDup
      exact noDup.2.2 pass (mem_weights.mpr member) pass List.mem_cons_self rfl

theorem nodup (history : History work log state) : (taken log).Nodup := by
  induction history with
  | initial => exact List.nodup_nil
  | commit past chosen ih =>
      obtain ⟨clock, present, granted⟩ := granted_of_earliest chosen
      rw [taken_snoc, List.nodup_append_comm, List.singleton_append, List.nodup_cons]
      exact ⟨past.unseen present granted, ih⟩

theorem split_of_weights (history : History work log state) {rank : Nat} {pass : Pass}
    (member : (rank, .weights pass) ∈ taken log) : work.split = true := by
  obtain ⟨clock, present⟩ := history.clock_of_rank (history.rank_lt member)
  have tracked := (history.tracked present).weights
  by_contra fused
  rw [if_neg fused] at tracked
  have listed := mem_weights.mpr member
  rw [(List.append_eq_nil_iff.mp tracked).1] at listed
  cases listed

theorem placed_pass (sound : work.layout.Sound) (history : History work log state) {way : Way}
    {rank : Nat} {stage : StageId} {microbatch : Nat}
    (member : (rank, way.action (stage, microbatch)) ∈ taken log) :
    work.layout.IsStage stage ∧ work.layout.rankOf stage = rank ∧
      microbatch < work.microbatches := by
  cases way with
  | forward => exact history.placed sound rank stage microbatch (Or.inl member)
  | backward => exact history.placed sound rank stage microbatch (Or.inr member)

theorem own_forward (sound : work.layout.Sound) (history : History work log state)
    {before after : List (Nat × Action)} {rank : Nat} {pass : Pass}
    (split : taken log = before ++ (rank, .backward pass) :: after) :
    (rank, .forward pass) ∈ before := by
  have whole : taken log = (before ++ [(rank, .backward pass)]) ++ after := by
    rw [split, List.append_assoc, List.singleton_append]
  have ordered := history.ordered sound
  have placed := history.placed sound
  rw [whole] at ordered placed
  have member := forward_of_backward ordered.front placed.front
    (List.mem_append_right before List.mem_cons_self)
  simpa using member

theorem finished (history : History work log state) (done : state.done = true) {rank : Nat}
    (inside : rank < work.layout.depth) :
    passesOf Action.forward? rank (taken log) =
        WorkOrder.forward work.layout rank work.microbatches ∧
      passesOf Action.backward? rank (taken log) =
        WorkOrder.backward work.layout rank work.microbatches ∧
      passesOf Action.weights? rank (taken log) =
        if work.split then WorkOrder.backward work.layout rank work.microbatches else [] := by
  obtain ⟨clock, present⟩ := history.clock_of_rank inside
  have emptied := List.all_eq_true.mp done clock (List.mem_of_getElem? present)
  simp only [RankClock.done, Bool.and_eq_true, List.isEmpty_iff] at emptied
  obtain ⟨⟨forwards, backwards⟩, weights⟩ := emptied
  have tracked := history.tracked present
  have allForwards := tracked.forwards
  have allBackwards := tracked.backwards
  have allWeights := tracked.weights
  rw [forwards, List.append_nil] at allForwards
  rw [backwards, List.append_nil] at allBackwards
  rw [weights, List.append_nil, allBackwards] at allWeights
  exact ⟨allForwards, allBackwards, allWeights⟩

end History
end Simulation
end PipelineTraining
