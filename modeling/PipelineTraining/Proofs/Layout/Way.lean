import PipelineTraining.Operation
import PipelineTraining.Proofs.Layout.Stages

/-!
The two ways through the pipeline. Forwards go down the stages with activations,
backwards come up again with gradients; apart from that they are alike.
-/

namespace PipelineTraining

inductive Way where
  | forward
  | backward
deriving DecidableEq

namespace Way

def source : Way → Layout → StageId → Option StageId
  | .forward => Layout.prev
  | .backward => Layout.next

def target : Way → Layout → StageId → Option StageId
  | .forward => Layout.next
  | .backward => Layout.prev

def level : Way → Layout → StageId → Nat
  | .forward => fun _ stage => stage.logical
  | .backward => fun layout stage => layout.stageCount - stage.logical

def kind : Way → TransferKind
  | .forward => .activation
  | .backward => .gradient

def pass : Way → StageId → Nat → Operation
  | .forward => .forward
  | .backward => .backward

def transfer (way : Way) (source target : StageId) (microbatch : Nat) : Transfer :=
  ⟨way.kind, source, target, microbatch⟩

variable {layout : Layout} {stage source target : StageId}

theorem isStage_source (way : Way) (known : layout.IsStage stage)
    (found : way.source layout stage = some source) : layout.IsStage source := by
  cases way
  · exact Layout.isStage_prev known found
  · exact Layout.isStage_next known found

theorem isStage_target (way : Way) (known : layout.IsStage stage)
    (found : way.target layout stage = some target) : layout.IsStage target := by
  cases way
  · exact Layout.isStage_next known found
  · exact Layout.isStage_prev known found

theorem target_of_source (way : Way) (known : layout.IsStage stage)
    (found : way.source layout stage = some source) : way.target layout source = some stage := by
  cases way
  · exact Layout.next_of_prev known found
  · exact Layout.prev_of_next known found

theorem source_of_target (way : Way) (known : layout.IsStage stage)
    (found : way.target layout stage = some target) : way.source layout target = some stage := by
  cases way
  · exact Layout.prev_of_next known found
  · exact Layout.next_of_prev known found

theorem level_source (way : Way) (known : layout.IsStage stage)
    (found : way.source layout stage = some source) :
    way.level layout source < way.level layout stage := by
  cases way
  · have step := Layout.logical_of_prev found
    simp only [level]
    omega
  · have step := Layout.logical_of_next found
    have inside := known.inside
    simp only [level]
    omega

theorem pass_inj {way other : Way} {microbatch another : Nat}
    (same : way.pass stage microbatch = other.pass source another) :
    way = other ∧ stage = source ∧ microbatch = another := by
  cases way <;> cases other <;> simp_all [pass]

theorem kind_inj {way other : Way} (same : way.kind = other.kind) : way = other := by
  cases way <;> cases other <;> simp_all [kind]

end Way
end PipelineTraining
