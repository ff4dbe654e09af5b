import Mathlib.Data.List.Induction
import PipelineTraining.Proofs.Clock.Choice
import PipelineTraining.Proofs.Clock.WorkOrder
import PipelineTraining.Proofs.Layout.Way

/-!
Courses: actions of all ranks in one order. In an ordered course every action
stands behind what it waits for, its neighbour's pass or its own earlier one, and
so every backward stands behind its forward.
-/

namespace PipelineTraining

namespace Course

variable {β : Type}

def partOf (rank : Nat) (course : List (Nat × β)) : List β :=
  course.filterMap fun entry => if entry.1 = rank then some entry.2 else none

def passesOf (select : Action → Option Pass) (rank : Nat) (course : List (Nat × Action)) :
    List Pass :=
  (partOf rank course).filterMap select

theorem mem_partOf {rank : Nat} {course : List (Nat × β)} {deed : β} :
    deed ∈ partOf rank course ↔ (rank, deed) ∈ course := by
  simp only [partOf, List.mem_filterMap, Option.ite_none_right_eq_some, Option.some.injEq]
  constructor
  · rintro ⟨entry, member, rfl, rfl⟩
    exact member
  · intro member
    exact ⟨_, member, rfl, rfl⟩

theorem partOf_nodup {course : List (Nat × β)} (rank : Nat) (noDup : course.Nodup) :
    (partOf rank course).Nodup := by
  refine noDup.filterMap fun first second deed here there => ?_
  simp only [Option.mem_def, Option.ite_none_right_eq_some, Option.some.injEq] at here there
  exact Prod.ext (here.1.trans there.1.symm) (here.2.trans there.2.symm)

theorem mem_forwards {rank : Nat} {course : List (Nat × Action)} {pass : Pass} :
    pass ∈ passesOf Action.forward? rank course ↔ (rank, .forward pass) ∈ course := by
  simp [passesOf, mem_partOf]

theorem mem_backwards {rank : Nat} {course : List (Nat × Action)} {pass : Pass} :
    pass ∈ passesOf Action.backward? rank course ↔ (rank, .backward pass) ∈ course := by
  simp [passesOf, mem_partOf]

theorem mem_weights {rank : Nat} {course : List (Nat × Action)} {pass : Pass} :
    pass ∈ passesOf Action.weights? rank course ↔ (rank, .weights pass) ∈ course := by
  simp [passesOf, mem_partOf]

theorem partOf_append (rank : Nat) (first second : List (Nat × β)) :
    partOf rank (first ++ second) = partOf rank first ++ partOf rank second :=
  List.filterMap_append

theorem partOf_snoc_self (rank : Nat) (course : List (Nat × β)) (deed : β) :
    partOf rank (course ++ [(rank, deed)]) = partOf rank course ++ [deed] := by
  simp [partOf]

theorem partOf_snoc_other {rank other : Nat} (different : other ≠ rank)
    (course : List (Nat × β)) (deed : β) :
    partOf rank (course ++ [(other, deed)]) = partOf rank course := by
  simp [partOf, different]

theorem partOf_split {rank : Nat} {course : List (Nat × β)} {before after : List β} {deed : β}
    (split : partOf rank course = before ++ deed :: after) :
    ∃ front back, course = front ++ (rank, deed) :: back ∧ partOf rank front = before := by
  obtain ⟨front, later, rfl, rfl, found⟩ := List.filterMap_eq_append_iff.mp split
  obtain ⟨skipped, ⟨owner, entry⟩, back, rfl, none, here, _⟩ := List.filterMap_eq_cons_iff.mp found
  simp only [Option.ite_none_right_eq_some, Option.some.injEq] at here
  obtain ⟨rfl, rfl⟩ := here
  refine ⟨front ++ skipped, back, by simp, ?_⟩
  have empty : partOf owner skipped = [] := List.filterMap_eq_nil_iff.mpr none
  rw [partOf_append, empty, List.append_nil]
  rfl

theorem passesOf_snoc_self (select : Action → Option Pass) (rank : Nat)
    (course : List (Nat × Action)) (action : Action) :
    passesOf select rank (course ++ [(rank, action)]) =
      passesOf select rank course ++ (select action).toList := by
  rw [passesOf, partOf_snoc_self, List.filterMap_append]
  cases found : select action <;> simp [passesOf, found]

theorem passesOf_snoc_other (select : Action → Option Pass) {rank other : Nat}
    (different : other ≠ rank) (course : List (Nat × Action)) (action : Action) :
    passesOf select rank (course ++ [(other, action)]) = passesOf select rank course := by
  rw [passesOf, partOf_snoc_other different, passesOf]

def Fed (layout : Layout) (before : List (Nat × Action)) (rank : Nat) : Action → Prop
  | .forward (stage, microbatch) => ∀ source, layout.prev stage = some source →
      (layout.rankOf source, .forward (source, microbatch)) ∈ before
  | .backward (stage, microbatch) =>
      match layout.next stage with
      | none => (rank, .forward (stage, microbatch)) ∈ before
      | some source => (layout.rankOf source, .backward (source, microbatch)) ∈ before
  | .weights pass => (rank, .backward pass) ∈ before

def Ordered (layout : Layout) (course : List (Nat × Action)) : Prop :=
  ∀ before rank action after, course = before ++ (rank, action) :: after →
    Fed layout before rank action

def Placed (layout : Layout) (microbatches : Nat) (course : List (Nat × Action)) : Prop :=
  ∀ rank stage microbatch,
    ((rank, .forward (stage, microbatch)) ∈ course ∨
      (rank, .backward (stage, microbatch)) ∈ course) →
    layout.IsStage stage ∧ layout.rankOf stage = rank ∧ microbatch < microbatches

theorem snoc_split {α : Type} {course before after : List α} {last entry : α}
    (split : course ++ [last] = before ++ entry :: after) :
    (course = before ∧ last = entry ∧ after = []) ∨
      ∃ rest, after = rest ++ [last] ∧ course = before ++ entry :: rest := by
  rcases List.eq_nil_or_concat after with rfl | ⟨rest, final, rfl⟩
  · obtain ⟨same, last⟩ := List.append_inj' split rfl
    exact Or.inl ⟨same, by simpa using last, rfl⟩
  · rw [List.concat_eq_append, ← List.cons_append, ← List.append_assoc] at split
    obtain ⟨same, last⟩ := List.append_inj' split rfl
    refine Or.inr ⟨rest, ?_, same⟩
    rw [List.concat_eq_append, last]

theorem Ordered.snoc {layout : Layout} {course : List (Nat × Action)} {rank : Nat}
    {action : Action} (ordered : Ordered layout course)
    (fed : Fed layout course rank action) : Ordered layout (course ++ [(rank, action)]) := by
  intro before other next after split
  rcases snoc_split split with ⟨rfl, last, _⟩ | ⟨rest, _, same⟩
  · obtain ⟨rfl, rfl⟩ := Prod.mk.inj last
    exact fed
  · exact ordered before other next rest same

theorem Ordered.front {layout : Layout} {course rest : List (Nat × Action)}
    (ordered : Ordered layout (course ++ rest)) : Ordered layout course := by
  rintro before rank action after rfl
  exact ordered before rank action (after ++ rest) (by simp)

theorem Placed.front {layout : Layout} {microbatches : Nat} {course rest : List (Nat × Action)}
    (placed : Placed layout microbatches (course ++ rest)) :
    Placed layout microbatches course := by
  intro rank stage microbatch member
  exact placed rank stage microbatch
    (member.imp (List.mem_append_left _) (List.mem_append_left _))

/-- In an ordered course a backward comes behind its own forward: its gradient came down from
the end of the pipeline, where the forward had come through this stage. -/
theorem forward_of_backward {layout : Layout} {microbatches : Nat} {course : List (Nat × Action)}
    (ordered : Ordered layout course) (placed : Placed layout microbatches course) {rank : Nat}
    {pass : Pass} (member : (rank, .backward pass) ∈ course) : (rank, .forward pass) ∈ course := by
  induction course using List.reverseRecOn generalizing rank pass with
  | nil => simp at member
  | append_singleton course last ih =>
      have earlier : ∀ {rank pass}, (rank, .backward pass) ∈ course →
          (rank, .forward pass) ∈ course :=
        fun member => ih ordered.front placed.front member
      rcases List.mem_append.mp member with old | new
      · exact List.mem_append_left _ (earlier old)
      · obtain rfl := List.mem_singleton.mp new
        apply List.mem_append_left _
        obtain ⟨stage, microbatch⟩ := pass
        obtain ⟨known, owned, _⟩ := placed rank stage microbatch (Or.inr member)
        have fed := ordered course rank _ [] rfl
        simp only [Fed] at fed
        cases found : layout.next stage with
        | none => simpa [found] using fed
        | some source =>
            simp only [found] at fed
            obtain ⟨before, after, split⟩ := List.append_of_mem (earlier fed)
            have passed := ordered.front before _ _ after split stage
              (Layout.prev_of_next known found)
            rw [owned] at passed
            rw [split]
            exact List.mem_append_left _ passed

end Course

namespace Way
open Course

def select : Way → Action → Option Pass
  | .forward => Action.forward?
  | .backward => Action.backward?

def action : Way → Pass → Action
  | .forward => .forward
  | .backward => .backward

theorem action_cases (action : Action) :
    (∃ (way : Way) (stage : StageId) (microbatch : Nat), action = way.action (stage, microbatch)) ∨
      ∃ pass, action = .weights pass := by
  cases action with
  | forward pass => exact Or.inl ⟨.forward, pass.1, pass.2, rfl⟩
  | backward pass => exact Or.inl ⟨.backward, pass.1, pass.2, rfl⟩
  | weights pass => exact Or.inr ⟨pass, rfl⟩

theorem mem_passesOf (way : Way) {rank : Nat} {course : List (Nat × Action)} {pass : Pass} :
    pass ∈ passesOf way.select rank course ↔ (rank, way.action pass) ∈ course := by
  cases way
  · exact mem_forwards
  · exact mem_backwards

/-- An ordered pass of either way stands behind the pass of the stage before it on that way. -/
theorem fed_source (way : Way) {layout : Layout} {before : List (Nat × Action)} {rank : Nat}
    {stage source : StageId} {microbatch : Nat}
    (fed : Fed layout before rank (way.action (stage, microbatch)))
    (found : way.source layout stage = some source) :
    (layout.rankOf source, way.action (source, microbatch)) ∈ before := by
  cases way with
  | forward => exact fed source found
  | backward =>
      change layout.next stage = some source at found
      simpa [action, Fed, found] using fed

end Way
end PipelineTraining
