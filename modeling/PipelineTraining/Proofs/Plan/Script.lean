import PipelineTraining.Plan.Blueprint
import PipelineTraining.Proofs.Clock.Course

/-!
What the ranks execute, as one course of operations: the order in which the clock
committed its actions, each with the receive in front of it and the send behind
it, and then the closing steps. Every operation finds what it needs before it,
on its own rank or, for a receive, as the send of the other rank.
-/

namespace PipelineTraining

open Course

theorem length_filterMap_snoc {β γ : Type} (f : β → Option γ) (items : List β) (item : β) :
    ((items ++ [item]).filterMap f).length =
      (items.filterMap f).length + (f item).toList.length := by
  rw [List.filterMap_append, List.length_append]
  cases found : f item <;> simp [found]

theorem reverse_filterMap_snoc {β γ : Type} (f : β → Option γ) (items : List β) (item : β) :
    ((items ++ [item]).filterMap f).reverse = (f item).toList ++ (items.filterMap f).reverse := by
  rw [List.filterMap_append, List.reverse_append]
  cases found : f item <;> simp [found]

namespace TransferKind

def action? : TransferKind → Pass → Option Action
  | .activation, pass => some (.forward pass)
  | .gradient, pass => some (.backward pass)
  | .fingerprint, _ => none

end TransferKind

namespace Operation

def action? : Operation → Option Action
  | .forward stage microbatch => some (.forward (stage, microbatch))
  | .backward stage microbatch => some (.backward (stage, microbatch))
  | .backwardWeights stage microbatch => some (.weights (stage, microbatch))
  | .send _ transfer => transfer.kind.action? (transfer.source, transfer.microbatch)
  | .receive _ transfer => transfer.kind.action? (transfer.target, transfer.microbatch)
  | .optimizerStep => none
  | .validationSync => none

def weightKey? : Operation → Option (Nat × Nat)
  | .backwardWeights stage microbatch => some (stage.logical, microbatch)
  | _ => none

end Operation

def Pass.key (pass : Pass) : Nat × Nat :=
  (pass.1.logical, pass.2)

namespace Way

def key? : Way → Operation → Option (Nat × Nat)
  | .forward, .forward stage microbatch => some (stage.logical, microbatch)
  | .backward, .backward stage microbatch => some (stage.logical, microbatch)
  | _, _ => none

/-- How a rank comes by what the stage before hands on: by its own pass or by a receive. -/
def inflow (way : Way) (layout : Layout) (rank : Nat) (source stage : StageId)
    (microbatch : Nat) : Operation :=
  if layout.rankOf source = rank then way.pass source microbatch
  else .receive (layout.rankOf source) (way.transfer source stage microbatch)

@[simp] theorem key?_pass (way : Way) (stage : StageId) (microbatch : Nat) :
    way.key? (way.pass stage microbatch) = some (stage.logical, microbatch) := by
  cases way <;> rfl

theorem key?_eq_some {way : Way} {operation : Operation} {key : Nat × Nat}
    (keyed : way.key? operation = some key) : ∃ stage microbatch,
      operation = way.pass stage microbatch ∧ key = (stage.logical, microbatch) := by
  cases way with
  | forward =>
      cases operation with
      | forward stage microbatch => exact ⟨stage, microbatch, rfl, (Option.some.inj keyed).symm⟩
      | backward | backwardWeights | send | receive | optimizerStep | validationSync => cases keyed
  | backward =>
      cases operation with
      | backward stage microbatch => exact ⟨stage, microbatch, rfl, (Option.some.inj keyed).symm⟩
      | forward | backwardWeights | send | receive | optimizerStep | validationSync => cases keyed

theorem action?_pass (way : Way) (stage : StageId) (microbatch : Nat) :
    (way.pass stage microbatch).action? = some (way.action (stage, microbatch)) := by
  cases way <;> rfl

theorem action?_kind (way : Way) (pass : Pass) :
    way.kind.action? pass = some (way.action pass) := by
  cases way <;> rfl

end Way

inductive Supplied (plan : Plan) (rank : Nat) (before : List Operation) : Operation → Prop
  | pass (way : Way) (stage : StageId) (microbatch : Nat) (known : plan.layout.IsStage stage)
      (owned : plan.layout.rankOf stage = rank) (inside : microbatch < plan.microbatches)
      (fed : ∀ source, way.source plan.layout stage = some source →
        way.inflow plan.layout rank source stage microbatch ∈ before)
      (room : way = .forward → (before.filterMap Way.forward.key?).length <
        (before.filterMap Way.backward.key?).length + plan.memoryLimit)
      (own : way = .backward → .forward stage microbatch ∈ before) :
      Supplied plan rank before (way.pass stage microbatch)
  | weights (stage : StageId) (microbatch : Nat) (known : plan.layout.IsStage stage)
      (owned : plan.layout.rankOf stage = rank) (inside : microbatch < plan.microbatches)
      (fed : .backward stage microbatch ∈ before) (split : plan.split = true) :
      Supplied plan rank before (.backwardWeights stage microbatch)
  | receive (way : Way) (source stage : StageId) (microbatch : Nat)
      (known : plan.layout.IsStage stage) (owned : plan.layout.rankOf stage = rank)
      (inside : microbatch < plan.microbatches)
      (found : way.source plan.layout stage = some source)
      (away : plan.layout.rankOf source ≠ rank) :
      Supplied plan rank before
        (.receive (plan.layout.rankOf source) (way.transfer source stage microbatch))
  | send (way : Way) (stage target : StageId) (microbatch : Nat)
      (known : plan.layout.IsStage stage) (owned : plan.layout.rankOf stage = rank)
      (inside : microbatch < plan.microbatches)
      (found : way.target plan.layout stage = some target)
      (away : plan.layout.rankOf target ≠ rank) (fed : way.pass stage microbatch ∈ before) :
      Supplied plan rank before
        (.send (plan.layout.rankOf target) (way.transfer stage target microbatch))
  | optimizer (all : ∀ way : Way, (before.filterMap way.key?).length = plan.passesPerRank)
      (weights : plan.split = true →
        (before.filterMap Operation.weightKey?).length = plan.passesPerRank) :
      Supplied plan rank before .optimizerStep
  | sync (fed : .optimizerStep ∈ before) : Supplied plan rank before .validationSync

theorem Supplied.receives {plan : Plan} {rank : Nat} {operation : Operation}
    (supplied : Supplied plan rank [] operation) (busy : plan.passesPerRank ≠ 0)
    (away : ∀ stage, plan.layout.IsStage stage → plan.layout.rankOf stage = rank →
      stage.logical ≠ 0) :
    ∃ (way : Way) (source stage : StageId) (microbatch : Nat), plan.layout.IsStage stage ∧
      plan.layout.rankOf stage = rank ∧
      operation = .receive (plan.layout.rankOf source) (way.transfer source stage microbatch) := by
  cases supplied with
  | pass way stage microbatch known owned inside fed room own =>
      cases way with
      | backward => cases own rfl
      | forward =>
          cases found : Way.forward.source plan.layout stage with
          | none => exact absurd (Layout.prev_eq_none.mp found) (away stage known owned)
          | some source => cases fed source found
  | receive way source stage microbatch known owned =>
      exact ⟨way, source, stage, microbatch, known, owned, rfl⟩
  | optimizer all => exact absurd (all .forward).symm busy
  | weights stage microbatch known owned inside fed => cases fed
  | send way stage target microbatch known owned inside found away fed => cases fed
  | sync fed => cases fed

structure Scored (plan : Plan) (course : List (Nat × Operation)) : Prop where
  sound : plan.layout.Sound
  busy : 0 < plan.microbatches
  limit : 0 < plan.memoryLimit
  ranks : plan.ranks.length = plan.layout.depth
  script : ∀ rank rankPlan, plan.rankPlan? rank = some rankPlan →
    rankPlan.operations = partOf rank course
  noDup : course.Nodup
  inside : ∀ rank operation, (rank, operation) ∈ course → rank < plan.layout.depth
  supplied : ∀ before rank operation after, course = before ++ (rank, operation) :: after →
    Supplied plan rank (partOf rank before) operation
  sent : ∀ before rank peer transfer after,
    course = before ++ (rank, .receive peer transfer) :: after →
    (peer, .send rank transfer) ∈ before
  passes : ∀ (way : Way) stage microbatch, plan.layout.IsStage stage →
    microbatch < plan.microbatches →
    (plan.layout.rankOf stage, way.pass stage microbatch) ∈ course
  weights : plan.split = true → ∀ stage microbatch, plan.layout.IsStage stage →
    microbatch < plan.microbatches →
    (plan.layout.rankOf stage, .backwardWeights stage microbatch) ∈ course

structure Playable (plan : Plan) (rank : Nat) (script : List Operation) : Prop where
  noDup : script.Nodup
  supplied : ∀ before operation after, script = before ++ operation :: after →
    Supplied plan rank before operation

theorem Scored.playable {plan : Plan} {course : List (Nat × Operation)}
    (scored : Scored plan course)
    (rank : Nat) : Playable plan rank (partOf rank course) := by
  refine ⟨partOf_nodup rank scored.noDup, ?_⟩
  intro before operation after split
  obtain ⟨front, back, rfl, rfl⟩ := partOf_split split
  exact scored.supplied front rank operation back rfl

namespace Playable

variable {plan : Plan} {rank : Nat} {script before after : List Operation} {operation : Operation}

theorem supplied_of_mem (playable : Playable plan rank script) (member : operation ∈ script) :
    ∃ before, Supplied plan rank before operation := by
  obtain ⟨before, after, split⟩ := List.append_of_mem member
  exact ⟨before, playable.supplied before operation after split⟩

theorem not_before (playable : Playable plan rank script)
    (split : script = before ++ operation :: after) : operation ∉ before := by
  have noDup := playable.noDup
  rw [split, List.nodup_append] at noDup
  exact fun member => noDup.2.2 operation member operation List.mem_cons_self rfl

theorem known_pass (playable : Playable plan rank script) {way : Way} {stage : StageId}
    {microbatch : Nat} (member : way.pass stage microbatch ∈ script) :
    plan.layout.IsStage stage ∧ plan.layout.rankOf stage = rank ∧
      microbatch < plan.microbatches := by
  obtain ⟨before, supplied⟩ := playable.supplied_of_mem member
  generalize same : way.pass stage microbatch = operation at supplied
  cases supplied with
  | pass other stage microbatch known owned inside =>
      obtain ⟨_, rfl, rfl⟩ := Way.pass_inj same
      exact ⟨known, owned, inside⟩
  | weights | receive | send | optimizer | sync => cases way <;> cases same

/-- A send is the one of a pass to the stage that it feeds. -/
theorem send_cases (playable : Playable plan rank script) {peer : Nat} {transfer : Transfer}
    (member : .send peer transfer ∈ script) :
    ∃ (way : Way) (stage target : StageId) (microbatch : Nat),
      transfer = way.transfer stage target microbatch ∧ plan.layout.IsStage stage ∧
      plan.layout.IsStage target ∧ plan.layout.rankOf stage = rank ∧
      plan.layout.rankOf target = peer ∧ peer ≠ rank ∧ microbatch < plan.microbatches ∧
      way.target plan.layout stage = some target := by
  obtain ⟨before, supplied⟩ := playable.supplied_of_mem member
  generalize same : Operation.send peer transfer = operation at supplied
  cases supplied with
  | send way stage target microbatch known owned inside found away =>
      obtain ⟨rfl, rfl⟩ := Operation.send.inj same
      exact ⟨way, stage, target, microbatch, rfl, known, way.isStage_target known found, owned, rfl,
        away, inside, found⟩
  | pass way => cases way <;> cases same
  | weights | receive | optimizer | sync => cases same

theorem receive_cases (playable : Playable plan rank script) {peer : Nat} {transfer : Transfer}
    (member : .receive peer transfer ∈ script) :
    ∃ (way : Way) (source stage : StageId) (microbatch : Nat),
      transfer = way.transfer source stage microbatch ∧ plan.layout.IsStage source ∧
      plan.layout.IsStage stage ∧ plan.layout.rankOf stage = rank ∧
      plan.layout.rankOf source = peer ∧ peer ≠ rank ∧ microbatch < plan.microbatches ∧
      way.source plan.layout stage = some source := by
  obtain ⟨before, supplied⟩ := playable.supplied_of_mem member
  generalize same : Operation.receive peer transfer = operation at supplied
  cases supplied with
  | receive way source stage microbatch known owned inside found away =>
      obtain ⟨rfl, rfl⟩ := Operation.receive.inj same
      exact ⟨way, source, stage, microbatch, rfl, way.isStage_source known found, known, owned, rfl,
        away, inside, found⟩
  | pass way => cases way <;> cases same
  | weights | send | optimizer | sync => cases same

theorem fed_of_weights (playable : Playable plan rank script) {stage : StageId} {microbatch : Nat}
    (split : script = before ++ .backwardWeights stage microbatch :: after) :
    .backward stage microbatch ∈ before := by
  have supplied := playable.supplied before (.backwardWeights stage microbatch) after split
  generalize same : Operation.backwardWeights stage microbatch = operation at supplied
  cases supplied with
  | weights other micro known owned inside fed =>
      obtain ⟨rfl, rfl⟩ := Operation.backwardWeights.inj same
      exact fed
  | pass way => cases way <;> cases same
  | send | receive | optimizer | sync => cases same

theorem entered_iff (playable : Playable plan rank script) (split : script = before ++ after)
    {way : Way} {stage : StageId} {microbatch : Nat} (known : plan.layout.IsStage stage) :
    (stage.logical, microbatch) ∈ before.filterMap way.key? ↔
      way.pass stage microbatch ∈ before := by
  rw [List.mem_filterMap]
  constructor
  · rintro ⟨operation, member, keyed⟩
    obtain ⟨other, another, rfl, same⟩ := Way.key?_eq_some keyed
    obtain ⟨logical, rfl⟩ := Prod.mk.inj same
    have listed : way.pass other microbatch ∈ script := split ▸ List.mem_append_left _ member
    rwa [known.eq_of_logical (playable.known_pass listed).1 logical]
  · exact fun member => ⟨_, member, way.key?_pass _ _⟩

theorem keys_nodup (playable : Playable plan rank script) (way : Way) :
    (script.filterMap way.key?).Nodup := by
  refine List.pairwise_filterMap.mpr (playable.noDup.imp_of_mem ?_)
  intro first second firstListed secondListed different key keyed other otherKeyed same
  subst same
  obtain ⟨stage, microbatch, rfl, rfl⟩ := Way.key?_eq_some keyed
  obtain ⟨another, micro, rfl, same⟩ := Way.key?_eq_some otherKeyed
  obtain ⟨logical, rfl⟩ := Prod.mk.inj same
  have known := (playable.known_pass firstListed).1
  exact different (by rw [known.eq_of_logical (playable.known_pass secondListed).1 logical])

theorem forward_of_backward (playable : Playable plan rank script)
    (split : script = before ++ after) {stage : StageId} {microbatch : Nat}
    (member : .backward stage microbatch ∈ before) : .forward stage microbatch ∈ before := by
  obtain ⟨front, back, rfl⟩ := List.append_of_mem member
  have supplied := playable.supplied front (.backward stage microbatch) (back ++ after)
    (by rw [split, List.append_assoc, List.cons_append])
  generalize same : Operation.backward stage microbatch = operation at supplied
  cases supplied with
  | pass way other micro known owned inside fed room own =>
      have passes : Way.backward.pass stage microbatch = way.pass other micro := same
      obtain ⟨rfl, rfl, rfl⟩ := Way.pass_inj passes
      exact List.mem_append_left _ (own rfl)
  | weights | receive | send | optimizer | sync => cases same

/-- In front of a backward, a forward is pending. -/
theorem backwards_lt (playable : Playable plan rank script) {stage : StageId} {microbatch : Nat}
    (split : script = before ++ .backward stage microbatch :: after) :
    (before.filterMap Way.backward.key?).length < (before.filterMap Way.forward.key?).length := by
  have whole : script = (before ++ [.backward stage microbatch]) ++ after := by
    rw [split, List.append_assoc, List.singleton_append]
  have noDup := playable.keys_nodup .backward
  rw [whole, List.filterMap_append, List.nodup_append] at noDup
  have covered : (before ++ [Operation.backward stage microbatch]).filterMap Way.backward.key? ⊆
      before.filterMap Way.forward.key? := by
    intro key keyed
    obtain ⟨operation, member, found⟩ := List.mem_filterMap.mp keyed
    obtain ⟨other, micro, rfl, rfl⟩ := Way.key?_eq_some found
    have forward := playable.forward_of_backward whole member
    refine List.mem_filterMap.mpr ⟨.forward other micro, ?_, rfl⟩
    simpa using forward
  have counted := noDup.1.length_le_of_subset covered
  rw [List.filterMap_append, List.length_append] at counted
  exact counted

end Playable

namespace Scored

variable {plan : Plan} {course : List (Nat × Operation)} {rank peer : Nat} {transfer : Transfer}

theorem mem_of_pass (scored : Scored plan course) (way : Way) {stage : StageId} {microbatch : Nat}
    (known : plan.layout.IsStage stage) (inside : microbatch < plan.microbatches) :
    way.pass stage microbatch ∈ partOf (plan.layout.rankOf stage) course :=
  mem_partOf.mpr (scored.passes way stage microbatch known inside)

theorem receive_of_send (scored : Scored plan course)
    (member : .send peer transfer ∈ partOf rank course) :
    .receive rank transfer ∈ partOf peer course := by
  obtain ⟨way, stage, target, microbatch, rfl, known, targetKnown, rfl, rfl, away, inside, found⟩ :=
    (scored.playable rank).send_cases member
  obtain ⟨before, after, split⟩ := List.append_of_mem (scored.mem_of_pass way targetKnown inside)
  have supplied := (scored.playable _).supplied before _ after split
  generalize same : way.pass target microbatch = operation at supplied
  cases supplied with
  | pass other another micro anotherKnown owned within fed =>
      obtain ⟨rfl, rfl, rfl⟩ := Way.pass_inj same
      have inflow := fed stage (way.source_of_target known found)
      rw [Way.inflow, if_neg (Ne.symm away)] at inflow
      rw [split]
      exact List.mem_append_left _ inflow
  | weights | send | receive | optimizer | sync => cases way <;> cases same

theorem send_of_receive (scored : Scored plan course)
    (member : .receive peer transfer ∈ partOf rank course) :
    .send rank transfer ∈ partOf peer course := by
  obtain ⟨before, after, split⟩ := List.append_of_mem (mem_partOf.mp member)
  rw [mem_partOf, split]
  exact List.mem_append_left _ (scored.sent before rank peer transfer after split)

theorem inside_of_part (scored : Scored plan course) {operation : Operation}
    (member : operation ∈ partOf rank course) : rank < plan.layout.depth :=
  scored.inside rank operation (mem_partOf.mp member)

end Scored

namespace Blueprint

variable {layout : Layout} {rank : Nat}

theorem wrap_pass (way : Way) (stage : StageId) (microbatch : Nat) :
    wrap layout rank (way.action (stage, microbatch)) =
      receiveFrom layout rank (way.source layout stage) (way.transfer · stage microbatch) ++
        [way.pass stage microbatch] ++
        sendTo layout rank (way.target layout stage) (way.transfer stage · microbatch) := by
  cases way <;> rfl

theorem receiveFrom_cases (layout : Layout) (rank : Nat) (neighbour : Option StageId)
    (transfer : StageId → Transfer) :
    receiveFrom layout rank neighbour transfer = [] ∨
      ∃ stage, neighbour = some stage ∧ layout.rankOf stage ≠ rank ∧
        receiveFrom layout rank neighbour transfer =
          [.receive (layout.rankOf stage) (transfer stage)] := by
  unfold receiveFrom
  cases neighbour with
  | none => exact Or.inl rfl
  | some stage =>
      by_cases here : layout.rankOf stage = rank
      · exact Or.inl (by simp [here])
      · exact Or.inr ⟨stage, rfl, here, by simp [here]⟩

theorem sendTo_cases (layout : Layout) (rank : Nat) (neighbour : Option StageId)
    (transfer : StageId → Transfer) :
    sendTo layout rank neighbour transfer = [] ∨
      ∃ stage, neighbour = some stage ∧ layout.rankOf stage ≠ rank ∧
        sendTo layout rank neighbour transfer =
          [.send (layout.rankOf stage) (transfer stage)] := by
  unfold sendTo
  cases neighbour with
  | none => exact Or.inl rfl
  | some stage =>
      by_cases here : layout.rankOf stage = rank
      · exact Or.inl (by simp [here])
      · exact Or.inr ⟨stage, rfl, here, by simp [here]⟩

theorem wrap_split {way : Way} {stage : StageId} {microbatch : Nat} {before after : List Operation}
    {operation : Operation}
    (split : wrap layout rank (way.action (stage, microbatch)) = before ++ operation :: after) :
    (∃ source, way.source layout stage = some source ∧ layout.rankOf source ≠ rank ∧
        operation = .receive (layout.rankOf source) (way.transfer source stage microbatch)) ∨
      (operation = way.pass stage microbatch ∧ before =
        receiveFrom layout rank (way.source layout stage) (way.transfer · stage microbatch)) ∨
      ∃ target, way.target layout stage = some target ∧ layout.rankOf target ≠ rank ∧
        operation = .send (layout.rankOf target) (way.transfer stage target microbatch) ∧
        way.pass stage microbatch ∈ before := by
  -- The operation is a receive, or what comes behind the receives: the pass itself or a send.
  rw [wrap_pass, List.append_assoc, List.append_eq_append_iff] at split
  rcases split with ⟨front, rfl, later⟩ | ⟨back, received, later⟩
  · apply Or.inr
    cases front with
    | nil =>
        simp only [List.nil_append, List.singleton_append, List.cons.injEq] at later
        exact Or.inl ⟨later.1.symm, List.append_nil _⟩
    | cons first rest =>
        simp only [List.cons_append, List.cons.injEq] at later
        obtain ⟨rfl, sent⟩ := later
        rcases sendTo_cases layout rank (way.target layout stage)
          (way.transfer stage · microbatch) with
          none | ⟨target, found, away, one⟩
        · rw [none] at sent
          simp at sent
        · rw [one] at sent
          cases rest with
          | cons second rest => simp at sent
          | nil =>
              obtain ⟨rfl, _⟩ := List.cons.inj sent
              exact Or.inr ⟨target, found, away, rfl, by simp⟩
  · rcases receiveFrom_cases layout rank (way.source layout stage)
        (way.transfer · stage microbatch) with
      none | ⟨source, found, away, one⟩
    · rw [none] at received
      obtain ⟨rfl, rfl⟩ := List.append_eq_nil_iff.mp received.symm
      simp only [List.nil_append, List.singleton_append, List.cons.injEq] at later
      exact Or.inr (Or.inl ⟨later.1, none.symm⟩)
    · rw [one] at received
      cases back with
      | nil =>
          simp only [List.nil_append, List.singleton_append, List.cons.injEq] at later
          rw [List.append_nil] at received
          exact Or.inr (Or.inl ⟨later.1, one.trans received |>.symm⟩)
      | cons first rest =>
          cases before with
          | cons second before => simp at received
          | nil =>
              obtain ⟨rfl, _⟩ := List.cons.inj received
              obtain ⟨rfl, _⟩ := List.cons.inj later
              exact Or.inl ⟨source, found, away, rfl⟩

theorem mem_wrap_pass (way : Way) (stage : StageId) (microbatch : Nat) :
    way.pass stage microbatch ∈ wrap layout rank (way.action (stage, microbatch)) := by
  simp [wrap_pass]

theorem mem_wrap_send {way : Way} {stage target : StageId} (microbatch : Nat)
    (found : way.target layout stage = some target) (away : layout.rankOf target ≠ rank) :
    .send (layout.rankOf target) (way.transfer stage target microbatch) ∈
      wrap layout rank (way.action (stage, microbatch)) := by
  simp [wrap_pass, sendTo, found, away]

theorem wrap_weights (pass : Pass) :
    wrap layout rank (.weights pass) = [.backwardWeights pass.1 pass.2] := rfl

theorem wrap_weights_split {pass : Pass} {before after : List Operation} {operation : Operation}
    (split : wrap layout rank (.weights pass) = before ++ operation :: after) :
    operation = .backwardWeights pass.1 pass.2 ∧ before = [] := by
  rw [wrap_weights] at split
  cases before with
  | nil =>
      obtain ⟨rfl, _⟩ := List.cons.inj split
      exact ⟨rfl, rfl⟩
  | cons first rest => simp at split

theorem action?_of_wrap {action : Action} {operation : Operation}
    (member : operation ∈ wrap layout rank action) : operation.action? = some action := by
  obtain ⟨before, after, split⟩ := List.append_of_mem member
  rcases Way.action_cases action with ⟨way, stage, microbatch, rfl⟩ | ⟨pass, rfl⟩
  · rcases wrap_split split with ⟨_, _, _, rfl⟩ | ⟨rfl, _⟩ | ⟨_, _, _, rfl, _⟩
    · exact way.action?_kind _
    · exact way.action?_pass _ _
    · exact way.action?_kind _
  · obtain ⟨rfl, _⟩ := wrap_weights_split split
    rfl

theorem wrap_nodup (action : Action) : (wrap layout rank action).Nodup := by
  rcases Way.action_cases action with ⟨way, stage, microbatch, rfl⟩ | ⟨pass, rfl⟩
  · rw [wrap_pass]
    rcases receiveFrom_cases layout rank (way.source layout stage)
        (way.transfer · stage microbatch) with received | ⟨_, _, _, received⟩ <;>
    rcases sendTo_cases layout rank (way.target layout stage)
        (way.transfer stage · microbatch) with sent | ⟨_, _, _, sent⟩ <;>
    rw [received, sent] <;> cases way <;> simp [Way.pass]
  · exact List.nodup_singleton _

end Blueprint
end PipelineTraining
