import PipelineTraining.Proofs.Plan.Script

/-!
A plan that was built follows a course. The clock's commits, wrapped into
operations, are the course; what a rank executes is its part of it.
-/

namespace PipelineTraining

open Course

namespace Plan

def acted (layout : Layout) (course : List (Nat × Action)) : List (Nat × Operation) :=
  course.flatMap fun entry => (Blueprint.wrap layout entry.1 entry.2).map (entry.1, ·)

def ended (validates : Bool) (depth : Nat) : List (Nat × Operation) :=
  (List.range depth).flatMap fun rank => (closing validates).map (rank, ·)

def score (validates : Bool) (layout : Layout) (course : List (Nat × Action)) :
    List (Nat × Operation) :=
  acted layout course ++ ended validates layout.depth

variable {layout : Layout} {rank : Nat} {validates : Bool} {course : List (Nat × Action)}

theorem partOf_map_self (rank : Nat) (operations : List Operation) :
    partOf rank (operations.map (rank, ·)) = operations := by
  simp [partOf, List.filterMap_map]

theorem partOf_map_other {rank other : Nat} (different : other ≠ rank)
    (operations : List Operation) : partOf rank (operations.map (other, ·)) = [] := by
  simp [partOf, List.filterMap_map, different]

theorem partOf_acted (layout : Layout) (rank : Nat) (course : List (Nat × Action)) :
    partOf rank (acted layout course) =
      (partOf rank course).flatMap (Blueprint.wrap layout rank) := by
  induction course with
  | nil => rfl
  | cons entry rest ih =>
      obtain ⟨owner, action⟩ := entry
      have unfolded : acted layout ((owner, action) :: rest) =
          (Blueprint.wrap layout owner action).map (owner, ·) ++ acted layout rest := rfl
      rw [unfolded, partOf_append, ih]
      by_cases same : owner = rank
      · subst same
        simp [partOf]
      · simp [partOf, same]

theorem mem_ended {operation : Operation} :
    (rank, operation) ∈ ended validates layout.depth ↔
      rank < layout.depth ∧ operation ∈ closing validates := by
  simp [ended]

theorem partOf_ended {rank depth : Nat} (validates : Bool) (inside : rank < depth) :
    partOf rank (ended validates depth) = closing validates := by
  induction depth with
  | zero => exact absurd inside (Nat.not_lt_zero _)
  | succ depth ih =>
      have unfolded : ended validates (depth + 1) =
          ended validates depth ++ (closing validates).map (depth, ·) := by
        simp [ended, List.range_succ]
      rw [unfolded, partOf_append]
      by_cases last : rank = depth
      · subst last
        have earlier : partOf rank (ended validates rank) = [] := by
          refine List.eq_nil_iff_forall_not_mem.mpr fun operation member => ?_
          have entry := mem_partOf.mp member
          simp [ended] at entry
        rw [earlier, partOf_map_self, List.nil_append]
      · have below : rank < depth := by omega
        rw [ih below, partOf_map_other fun same => last same.symm, List.append_nil]

theorem partOf_score (validates : Bool) (course : List (Nat × Action))
    (inside : rank < layout.depth) :
    partOf rank (score validates layout course) =
      (partOf rank course).flatMap (Blueprint.wrap layout rank) ++ closing validates := by
  rw [score, partOf_append, partOf_acted, partOf_ended validates inside]

theorem flatMap_split {α β : Type} {f : α → List β} {items : List α} {before after : List β}
    {entry : β} (split : items.flatMap f = before ++ entry :: after) :
    ∃ front item back inner rest, items = front ++ item :: back ∧
      f item = inner ++ entry :: rest ∧ before = front.flatMap f ++ inner := by
  induction items generalizing before with
  | nil => simp at split
  | cons head items ih =>
      rw [List.flatMap_cons, List.append_eq_append_iff] at split
      rcases split with ⟨inner, rfl, later⟩ | ⟨inner, whole, later⟩
      · obtain ⟨front, item, back, found, rest, rfl, inside, rfl⟩ := ih later
        exact ⟨head :: front, item, back, found, rest, rfl, inside, by simp⟩
      · cases inner with
        | nil =>
            have within : items.flatMap f = [] ++ entry :: after := later.symm
            obtain ⟨front, item, back, found, rest, rfl, inside, same⟩ := ih within
            refine ⟨head :: front, item, back, found, rest, rfl, inside, ?_⟩
            rw [List.append_nil] at whole
            simp [whole, ← same]
        | cons first inner =>
            obtain ⟨rfl, _⟩ := List.cons.inj later
            exact ⟨[], head, items, before, inner, rfl, whole, by simp⟩

theorem keys_of_actions {κ : Type} {key : Operation → Option κ} {select : Action → Option κ}
    (agree : ∀ action, (Blueprint.wrap layout rank action).filterMap key = (select action).toList)
    (actions : List Action) :
    (actions.flatMap (Blueprint.wrap layout rank)).filterMap key = actions.filterMap select := by
  induction actions with
  | nil => rfl
  | cons action rest ih =>
      rw [List.flatMap_cons, List.filterMap_append, agree, ih]
      cases found : select action <;> simp [found]

theorem receiveFrom_keys {κ : Type} {key : Operation → Option κ}
    (receives : ∀ peer transfer, key (.receive peer transfer) = none) (neighbour : Option StageId)
    (transfer : StageId → Transfer) :
    (Blueprint.receiveFrom layout rank neighbour transfer).filterMap key = [] := by
  rcases Blueprint.receiveFrom_cases layout rank neighbour transfer with
    none | ⟨_, _, _, one⟩
  · rw [none, List.filterMap_nil]
  · rw [one]
    simp [receives]

theorem sendTo_keys {κ : Type} {key : Operation → Option κ}
    (sends : ∀ peer transfer, key (.send peer transfer) = none) (neighbour : Option StageId)
    (transfer : StageId → Transfer) :
    (Blueprint.sendTo layout rank neighbour transfer).filterMap key = [] := by
  rcases Blueprint.sendTo_cases layout rank neighbour transfer with none | ⟨_, _, _, one⟩
  · rw [none, List.filterMap_nil]
  · rw [one]
    simp [sends]

theorem wrap_keys {κ : Type} {key : Operation → Option κ}
    (receives : ∀ peer transfer, key (.receive peer transfer) = none)
    (sends : ∀ peer transfer, key (.send peer transfer) = none) (way : Way) (stage : StageId)
    (microbatch : Nat) :
    (Blueprint.wrap layout rank (way.action (stage, microbatch))).filterMap key =
      (key (way.pass stage microbatch)).toList := by
  rw [Blueprint.wrap_pass, List.filterMap_append, List.filterMap_append,
    receiveFrom_keys receives, sendTo_keys sends, List.nil_append, List.append_nil]
  cases found : key (way.pass stage microbatch) <;> simp [found]

theorem pass_keys (way : Way) (actions : List Action) :
    (actions.flatMap (Blueprint.wrap layout rank)).filterMap way.key? =
      (actions.filterMap way.select).map Pass.key := by
  have receives : ∀ peer transfer, way.key? (.receive peer transfer) = none := by
    cases way <;> exact fun _ _ => rfl
  have sends : ∀ peer transfer, way.key? (.send peer transfer) = none := by
    cases way <;> exact fun _ _ => rfl
  rw [List.map_filterMap]
  refine keys_of_actions (fun action => ?_) actions
  cases action with
  | forward pass =>
      apply (wrap_keys receives sends .forward pass.1 pass.2).trans
      cases way <;> rfl
  | backward pass =>
      apply (wrap_keys receives sends .backward pass.1 pass.2).trans
      cases way <;> rfl
  | weights pass => cases way <;> rfl

theorem weight_keys (actions : List Action) :
    (actions.flatMap (Blueprint.wrap layout rank)).filterMap Operation.weightKey? =
      (actions.filterMap Action.weights?).map Pass.key := by
  rw [List.map_filterMap]
  refine keys_of_actions (fun action => ?_) actions
  have unweighed : ∀ (way : Way) (pass : Pass),
      (Blueprint.wrap layout rank (way.action pass)).filterMap Operation.weightKey? = [] := by
    intro way pass
    refine (wrap_keys (fun _ _ => rfl) (fun _ _ => rfl) way pass.1 pass.2).trans ?_
    cases way <;> rfl
  cases action with
  | forward pass => exact unweighed .forward pass
  | backward pass => exact unweighed .backward pass
  | weights pass => rfl

theorem acted_nodup (noDup : course.Nodup) : (acted layout course).Nodup := by
  refine List.nodup_flatMap.mpr ⟨fun entry _ => ?_, noDup.imp fun different => ?_⟩
  · exact (Blueprint.wrap_nodup entry.2).map fun first second same => (Prod.ext_iff.mp same).2
  · simp only [Function.onFun, List.disjoint_left, List.mem_map]
    rintro _ ⟨first, member, rfl⟩ ⟨second, other, same⟩
    obtain ⟨owner, rfl⟩ := Prod.mk.inj same
    have actions := (Blueprint.action?_of_wrap member).symm.trans (Blueprint.action?_of_wrap other)
    exact different (Prod.ext owner.symm (Option.some.inj actions))

theorem closing_action? {operation : Operation} (member : operation ∈ closing validates) :
    operation.action? = none := by
  unfold closing at member
  split at member
  · rcases List.mem_cons.mp member with rfl | later
    · rfl
    · obtain rfl := List.mem_singleton.mp later
      rfl
  · obtain rfl := List.mem_singleton.mp member
    rfl

theorem ended_nodup (validates : Bool) (depth : Nat) : (ended validates depth).Nodup := by
  refine List.nodup_flatMap.mpr ⟨fun rank _ => ?_, List.nodup_range.imp fun different => ?_⟩
  · cases validates <;> simp [closing]
  · simp only [Function.onFun, List.disjoint_left, List.mem_map]
    rintro _ ⟨_, _, rfl⟩ ⟨_, _, same⟩
    exact different (Prod.ext_iff.mp same).1.symm

theorem score_nodup (validates : Bool) (noDup : course.Nodup) :
    (score validates layout course).Nodup := by
  refine List.nodup_append.mpr ⟨acted_nodup noDup, ended_nodup _ _, ?_⟩
  rintro ⟨rank, operation⟩ acting _ closing rfl
  obtain ⟨entry, _, tagged⟩ := List.mem_flatMap.mp acting
  obtain ⟨_, wrapped, same⟩ := List.mem_map.mp tagged
  obtain ⟨_, rfl⟩ := Prod.mk.inj same
  have none := closing_action? (mem_ended.mp closing).2
  rw [Blueprint.action?_of_wrap wrapped] at none
  cases none

theorem acted_split {before after : List (Nat × Operation)} {operation : Operation}
    (split : acted layout course = before ++ (rank, operation) :: after) :
    ∃ front action back inner rest, course = front ++ (rank, action) :: back ∧
      Blueprint.wrap layout rank action = inner ++ operation :: rest ∧
      before = acted layout front ++ inner.map (rank, ·) := by
  obtain ⟨front, ⟨owner, action⟩, back, inner, rest, rfl, wrapped, rfl⟩ := flatMap_split split
  obtain ⟨inner, tail, whole, rfl, others⟩ := List.map_eq_append_iff.mp wrapped
  obtain ⟨operation, rest, rfl, same, _⟩ := List.map_eq_cons_iff.mp others
  obtain ⟨rfl, rfl⟩ := Prod.mk.inj same
  exact ⟨front, action, back, inner, rest, rfl, whole, rfl⟩

theorem mem_acted {operation : Operation} {action : Action} (member : (rank, action) ∈ course)
    (wrapped : operation ∈ Blueprint.wrap layout rank action) :
    (rank, operation) ∈ acted layout course :=
  List.mem_flatMap.mpr ⟨_, member, List.mem_map.mpr ⟨_, wrapped, rfl⟩⟩

end Plan
end PipelineTraining
