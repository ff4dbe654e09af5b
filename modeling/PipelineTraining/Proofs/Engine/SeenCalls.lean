import PipelineTraining.Engine.Run
import PipelineTraining.Proofs.Plan.Script

/-!
What members are seen doing: the calls of the model's passes, with what went in
and what came back, and the ends of iterations. What a pass is handed must have
been seen coming back from the pass before it.
-/

namespace PipelineTraining

variable {α : Type}

inductive Deed (α : Type) where
  | forward (stage : StageId) (microbatch : Nat) (input : Option α) (answer : Except String α)
  | backward (stage : StageId) (microbatch : Nat) (gradient : Option α) (answer : Except String α)
  | backwardWeights (stage : StageId) (microbatch : Nat) (answer : Except String Unit)
  | finish (result : Except Fault (StepReport α))

structure Sighting (α : Type) where
  who : Nat
  iteration : Nat
  deed : Deed α

namespace Deed

def operation? : Deed α → Option Operation
  | .forward stage microbatch _ _ => some (.forward stage microbatch)
  | .backward stage microbatch _ _ => some (.backward stage microbatch)
  | .backwardWeights stage microbatch _ => some (.backwardWeights stage microbatch)
  | .finish _ => none

end Deed

def Way.deed : Way → StageId → Nat → Option α → Except String α → Deed α
  | .forward => .forward
  | .backward => .backward

theorem Way.operation?_deed (way : Way) (stage : StageId) (microbatch : Nat) (input : Option α)
    (answer : Except String α) :
    (way.deed stage microbatch input answer).operation? = some (way.pass stage microbatch) := by
  cases way <;> rfl

def Transfer.entry (transfer : Transfer) : Slot :=
  ⟨transfer.kind, transfer.target.logical, transfer.microbatch⟩

def Returned (layout : Layout) (seen : List (Sighting α)) (iteration : Nat) (way : Way)
    (stage : StageId) (microbatch : Nat) (value : α) : Prop :=
  ∃ input, ⟨layout.rankOf stage, iteration, way.deed stage microbatch input (.ok value)⟩ ∈ seen

/-- A value came back from the pass that a slot is meant to hold the result of. -/
def Meant (layout : Layout) (seen : List (Sighting α)) (iteration : Nat) (slot : Slot)
    (value : α) : Prop :=
  ∃ (way : Way) (source stage : StageId), slot.kind = way.kind ∧ slot.stage = stage.logical ∧
    layout.IsStage stage ∧ way.source layout stage = some source ∧
    Returned layout seen iteration way source slot.microbatch value

theorem Returned.mono {layout : Layout} {seen later : List (Sighting α)} {iteration : Nat}
    {way : Way} {stage : StageId} {microbatch : Nat} {value : α} (more : seen ⊆ later)
    (returned : Returned layout seen iteration way stage microbatch value) :
    Returned layout later iteration way stage microbatch value := by
  obtain ⟨input, member⟩ := returned
  exact ⟨input, more member⟩

theorem Meant.mono {layout : Layout} {seen later : List (Sighting α)} {iteration : Nat}
    {slot : Slot} {value : α} (more : seen ⊆ later)
    (meant : Meant layout seen iteration slot value) :
    Meant layout later iteration slot value := by
  obtain ⟨way, source, stage, kind, place, known, found, returned⟩ := meant
  exact ⟨way, source, stage, kind, place, known, found, returned.mono more⟩

theorem Meant.returned {layout : Layout} {seen : List (Sighting α)} {iteration : Nat} {way : Way}
    {stage source : StageId} {microbatch : Nat} {value : α} (known : layout.IsStage stage)
    (found : way.source layout stage = some source)
    (meant : Meant layout seen iteration ⟨way.kind, stage.logical, microbatch⟩ value) :
    Returned layout seen iteration way source microbatch value := by
  obtain ⟨other, another, place, kind, logical, placeKnown, placeFound, returned⟩ := meant
  obtain rfl := Way.kind_inj kind
  obtain rfl := known.eq_of_logical placeKnown logical
  obtain rfl := Option.some.inj (found.symm.trans placeFound)
  exact returned

def given (inputs : Option (List α)) (microbatch : Nat) : Option α :=
  inputs.bind (·[microbatch]?)

def Fitting (layout : Layout) (seen : List (Sighting α)) (iteration : Nat)
    (inputs : Option (List α)) (way : Way) (stage : StageId) (microbatch : Nat)
    (input : Option α) : Prop :=
  match way.source layout stage with
  | some source => ∃ value, input = some value ∧
      Returned layout seen iteration way source microbatch value
  | none => input = match way with
      | .forward => given inputs microbatch
      | .backward => none

theorem Fitting.mono {layout : Layout} {seen later : List (Sighting α)} {iteration : Nat}
    {inputs : Option (List α)} {way : Way} {stage : StageId} {microbatch : Nat} {input : Option α}
    (more : seen ⊆ later)
    (fitting : Fitting layout seen iteration inputs way stage microbatch input) :
    Fitting layout later iteration inputs way stage microbatch input := by
  unfold Fitting at fitting ⊢
  cases found : way.source layout stage with
  | none => simpa [found] using fitting
  | some source =>
      simp only [found] at fitting
      obtain ⟨value, same, returned⟩ := fitting
      exact ⟨value, same, returned.mono more⟩

end PipelineTraining
