import PipelineTraining.Proofs.Engine.SeenCalls

/-!
What an attempt holds. A slot is filled by a receive or by the rank's own pass and
emptied by the pass it is meant for; a transfer is laid out by a pass and shipped
by its send. What was put there and not taken yet is still there.
-/

namespace PipelineTraining

namespace Shelf

variable {κ α : Type} [DecidableEq κ] {shelf : Shelf κ α} {key other : κ} {value : α}

theorem has_iff : shelf.has key = true ↔ ∃ value, (key, value) ∈ shelf := by
  simp only [has, List.any_eq_true, beq_iff_eq]
  constructor
  · rintro ⟨⟨_, value⟩, member, rfl⟩
    exact ⟨value, member⟩
  · rintro ⟨value, member⟩
    exact ⟨_, member, rfl⟩

theorem mem_without {entry : κ × α} :
    entry ∈ shelf.without key ↔ entry ∈ shelf ∧ entry.1 ≠ key := by
  simp [without]

theorem mem_put {entry : κ × α} :
    entry ∈ shelf.put key value ↔ entry = (key, value) ∨ entry ∈ shelf ∧ entry.1 ≠ key := by
  rw [put, List.mem_cons, mem_without]

theorem has_without (different : other ≠ key) (present : shelf.has other = true) :
    (shelf.without key).has other = true := by
  obtain ⟨value, member⟩ := has_iff.mp present
  exact has_iff.mpr ⟨value, mem_without.mpr ⟨member, different⟩⟩

theorem has_put_self (shelf : Shelf κ α) (key : κ) (value : α) :
    (shelf.put key value).has key = true :=
  has_iff.mpr ⟨value, List.mem_cons_self⟩

theorem has_put_of_has (value : α) (present : shelf.has other = true) :
    (shelf.put key value).has other = true := by
  by_cases same : other = key
  · subst same
    exact has_put_self shelf other value
  · exact has_iff.mpr ((has_iff.mp (has_without same present)).imp
      fun value member => List.mem_cons_of_mem _ member)

theorem take?_of_has (present : shelf.has key = true) :
    ∃ value, shelf.take? key = some (value, shelf.without key) ∧ (key, value) ∈ shelf := by
  induction shelf with
  | nil => simp [has] at present
  | cons entry rest ih =>
      obtain ⟨label, stored⟩ := entry
      by_cases same : key = label
      · subst same
        refine ⟨stored, ?_, List.mem_cons_self⟩
        simp [take?]
      · have later : Shelf.has rest key = true := by
          simpa [has, Ne.symm same] using present
        obtain ⟨value, taken, member⟩ := ih later
        simp only [take?, Option.map_eq_some_iff, Prod.mk.injEq] at taken
        obtain ⟨_, found, rfl, _⟩ := taken
        refine ⟨_, ?_, List.mem_cons_of_mem _ member⟩
        simp [take?, List.lookup_cons, beq_false_of_ne same, found]

theorem take?_rest {rest : Shelf κ α} (taken : shelf.take? key = some (value, rest)) :
    rest = shelf.without key := by
  obtain ⟨_, _, same⟩ := Option.map_eq_some_iff.mp taken
  exact (Prod.mk.inj same).2.symm

def putAt (shelf : Shelf κ α) (key : Option κ) (value : α) : Shelf κ α :=
  key.elim shelf fun key => shelf.put key value

def withoutAt (shelf : Shelf κ α) (key : Option κ) : Shelf κ α :=
  key.elim shelf shelf.without

theorem has_putAt_of_has {at? : Option κ} (value : α) (present : shelf.has other = true) :
    (shelf.putAt at? value).has other = true := by
  cases at? with
  | none => exact present
  | some key => exact has_put_of_has value present

theorem has_putAt_self (shelf : Shelf κ α) {at? : Option κ} (value : α) (here : at? = some key) :
    (shelf.putAt at? value).has key = true := by
  subst here
  exact has_put_self shelf key value

theorem mem_putAt {at? : Option κ} {stored : α} (member : (other, stored) ∈ shelf.putAt at? value) :
    (other, stored) ∈ shelf ∨ at? = some other ∧ stored = value := by
  cases at? with
  | none => exact Or.inl member
  | some key =>
      rcases mem_put.mp member with same | ⟨old, _⟩
      · obtain ⟨rfl, rfl⟩ := Prod.mk.inj same
        exact Or.inr ⟨rfl, rfl⟩
      · exact Or.inl old

theorem has_withoutAt {at? : Option κ} (different : at? ≠ some other)
    (present : shelf.has other = true) : (shelf.withoutAt at?).has other = true := by
  cases at? with
  | none => exact present
  | some key => exact has_without (fun same => different (congrArg some same.symm)) present

theorem mem_of_mem_withoutAt {at? : Option κ} {entry : κ × α}
    (member : entry ∈ shelf.withoutAt at?) : entry ∈ shelf := by
  cases at? with
  | none => exact member
  | some key => exact (mem_without.mp member).1

end Shelf

namespace Way

def fills? (way : Way) (layout : Layout) (rank : Nat) (stage : StageId) (microbatch : Nat) :
    Option Slot :=
  (way.target layout stage).bind fun target =>
    if layout.rankOf target = rank then some ⟨way.kind, target.logical, microbatch⟩ else none

def drains? (way : Way) (layout : Layout) (stage : StageId) (microbatch : Nat) : Option Slot :=
  (way.source layout stage).map fun _ => ⟨way.kind, stage.logical, microbatch⟩

def exports? (way : Way) (layout : Layout) (rank : Nat) (stage : StageId) (microbatch : Nat) :
    Option Transfer :=
  (way.target layout stage).bind fun target =>
    if layout.rankOf target = rank then none else some (way.transfer stage target microbatch)

def leaves? (way : Way) (layout : Layout) (stage : StageId) (microbatch : Nat) : Option Nat :=
  match way.target layout stage with
  | none => some microbatch
  | some _ => none

end Way

namespace Operation

variable (layout : Layout) (rank : Nat)

def fills? : Operation → Option Slot
  | .forward stage microbatch => Way.forward.fills? layout rank stage microbatch
  | .backward stage microbatch => Way.backward.fills? layout rank stage microbatch
  | .receive _ transfer => some transfer.entry
  | _ => none

def drains? : Operation → Option Slot
  | .forward stage microbatch => Way.forward.drains? layout stage microbatch
  | .backward stage microbatch => Way.backward.drains? layout stage microbatch
  | _ => none

def exports? : Operation → Option Transfer
  | .forward stage microbatch => Way.forward.exports? layout rank stage microbatch
  | .backward stage microbatch => Way.backward.exports? layout rank stage microbatch
  | _ => none

def ships? : Operation → Option Transfer
  | .send _ transfer => some transfer
  | _ => none

def leaves? (way : Way) (operation : Operation) : Option Nat :=
  match way, operation with
  | .forward, .forward stage microbatch => Way.forward.leaves? layout stage microbatch
  | .backward, .backward stage microbatch => Way.backward.leaves? layout stage microbatch
  | _, _ => none

theorem fills?_pass (way : Way) (stage : StageId) (microbatch : Nat) :
    (way.pass stage microbatch).fills? layout rank = way.fills? layout rank stage microbatch := by
  cases way <;> rfl

theorem drains?_pass (way : Way) (stage : StageId) (microbatch : Nat) :
    (way.pass stage microbatch).drains? layout = way.drains? layout stage microbatch := by
  cases way <;> rfl

theorem exports?_pass (way : Way) (stage : StageId) (microbatch : Nat) :
    (way.pass stage microbatch).exports? layout rank =
      way.exports? layout rank stage microbatch := by
  cases way <;> rfl

variable {layout rank}

theorem fills?_inflow {way : Way} {stage source : StageId} (microbatch : Nat)
    (known : layout.IsStage stage) (owned : layout.rankOf stage = rank)
    (found : way.source layout stage = some source) :
    (way.inflow layout rank source stage microbatch).fills? layout rank =
      some ⟨way.kind, stage.logical, microbatch⟩ := by
  unfold Way.inflow
  split
  · rw [fills?_pass, Way.fills?, way.target_of_source known found, Option.bind_some, if_pos owned]
  · rfl

theorem drains?_eq_some {operation : Operation} {slot : Slot}
    (drained : operation.drains? layout = some slot) :
    ∃ (way : Way) (stage : StageId) (microbatch : Nat), operation = way.pass stage microbatch ∧
      slot = ⟨way.kind, stage.logical, microbatch⟩ := by
  cases operation with
  | forward stage microbatch =>
      obtain ⟨_, _, rfl⟩ := Option.map_eq_some_iff.mp drained
      exact ⟨.forward, stage, microbatch, rfl, rfl⟩
  | backward stage microbatch =>
      obtain ⟨_, _, rfl⟩ := Option.map_eq_some_iff.mp drained
      exact ⟨.backward, stage, microbatch, rfl, rfl⟩
  | backwardWeights | send | receive | optimizerStep | validationSync => cases drained

theorem leaves?_pass {way other : Way} {stage : StageId} {microbatch left : Nat}
    (leaves : (way.pass stage microbatch).leaves? layout other = some left) :
    other = way ∧ way.target layout stage = none ∧ left = microbatch := by
  have last : ∀ way : Way, way.leaves? layout stage microbatch = some left →
      way.target layout stage = none ∧ left = microbatch := by
    intro way leaves
    unfold Way.leaves? at leaves
    split at leaves
    · exact ⟨‹_›, (Option.some.inj leaves).symm⟩
    · cases leaves
  cases way with
  | forward =>
      cases other with
      | forward => exact ⟨rfl, last .forward leaves⟩
      | backward => cases leaves
  | backward =>
      cases other with
      | forward => cases leaves
      | backward => exact ⟨rfl, last .backward leaves⟩

theorem ships?_eq_some {operation : Operation} {transfer : Transfer}
    (shipped : operation.ships? = some transfer) : ∃ peer, operation = .send peer transfer := by
  cases operation with
  | send peer other =>
      obtain rfl := Option.some.inj shipped
      exact ⟨peer, rfl⟩
  | forward | backward | backwardWeights | receive | optimizerStep | validationSync => cases shipped

end Operation

namespace Playable

variable {plan : Plan} {rank : Nat} {script before after : List Operation}

/-- Only its pass takes what waits in a slot. -/
theorem undrained (playable : Playable plan rank script) {way : Way} {stage : StageId}
    {microbatch : Nat} (split : script = before ++ way.pass stage microbatch :: after)
    (known : plan.layout.IsStage stage) :
    ∀ operation ∈ before,
      operation.drains? plan.layout ≠ some ⟨way.kind, stage.logical, microbatch⟩ := by
  intro operation member drained
  obtain ⟨other, another, micro, rfl, same⟩ := Operation.drains?_eq_some drained
  obtain ⟨kind, logical, rfl⟩ := Slot.mk.inj same
  obtain rfl := Way.kind_inj kind
  have listed : way.pass another microbatch ∈ script := by
    rw [split]
    exact List.mem_append_left _ member
  obtain rfl := known.eq_of_logical (playable.known_pass listed).1 logical
  exact playable.not_before split member

theorem peer_of_send (playable : Playable plan rank script) {peer : Nat} {transfer : Transfer}
    (member : .send peer transfer ∈ script) : peer = plan.layout.rankOf transfer.target := by
  obtain ⟨before, supplied⟩ := playable.supplied_of_mem member
  generalize same : Operation.send peer transfer = operation at supplied
  cases supplied with
  | send way stage target microbatch =>
      obtain ⟨rfl, rfl⟩ := Operation.send.inj same
      rfl
  | pass way => cases way <;> cases same
  | weights | receive | optimizer | sync => cases same

theorem unshipped (playable : Playable plan rank script) {peer : Nat} {transfer : Transfer}
    (split : script = before ++ .send peer transfer :: after) :
    ∀ operation ∈ before, operation.ships? ≠ some transfer := by
  intro operation member shipped
  obtain ⟨other, rfl⟩ := Operation.ships?_eq_some shipped
  have sent : .send other transfer ∈ script := split ▸ List.mem_append_left _ member
  have sentNow : .send peer transfer ∈ script :=
    split ▸ List.mem_append_right _ List.mem_cons_self
  obtain rfl := (playable.peer_of_send sent).trans (playable.peer_of_send sentNow).symm
  exact playable.not_before split member

end Playable

def Stocked {κ α : Type} [DecidableEq κ] (puts takes : Operation → Option κ)
    (behind : List Operation) (shelf : Shelf κ α) : Prop :=
  ∀ key, (∃ operation ∈ behind, puts operation = some key) →
    (∀ operation ∈ behind, takes operation ≠ some key) → shelf.has key = true

namespace Stocked

variable {κ α : Type} [DecidableEq κ] {puts takes : Operation → Option κ}
  {behind : List Operation} {operation : Operation} {shelf after : Shelf κ α}

theorem empty (puts takes : Operation → Option κ) :
    Stocked puts takes [] ([] : Shelf κ α) := by
  rintro key ⟨_, member, _⟩
  cases member

theorem snoc (stocked : Stocked puts takes behind shelf)
    (kept : ∀ key, takes operation ≠ some key → shelf.has key = true → after.has key = true)
    (added : ∀ key, puts operation = some key → after.has key = true) :
    Stocked puts takes (behind ++ [operation]) after := by
  rintro key ⟨other, member, put⟩ untaken
  have untakenBefore : ∀ operation ∈ behind, takes operation ≠ some key :=
    fun operation member => untaken operation (List.mem_append_left _ member)
  have untakenNow := untaken operation (List.mem_append_right _ List.mem_cons_self)
  rcases List.mem_append.mp member with earlier | now
  · exact kept key untakenNow (stocked key ⟨other, earlier, put⟩ untakenBefore)
  · obtain rfl := List.mem_singleton.mp now
    exact added key put

end Stocked
end PipelineTraining
