import PipelineTraining.Proofs.Cluster.Progress

/-!
One iteration that all ranks have been through. Every pass of every stage was
called once, by the rank that owns the stage, with what came back from the pass
before it.
-/

namespace PipelineTraining

variable {σ α : Type} {drill : Drill σ α} {chart : Chart drill} {seen : List (Sighting α)}
  {who iteration : Nat} {operation : Operation} {way : Way}

def Sighting.isCall (iteration : Nat) (operation : Operation) (sighting : Sighting α) : Bool :=
  sighting.iteration == iteration && decide (sighting.deed.operation? = some operation)

namespace Sighting

variable {sighting : Sighting α}

theorem isCall_iff : sighting.isCall iteration operation = true ↔
    sighting.iteration = iteration ∧ sighting.deed.operation? = some operation := by
  simp [isCall]

theorem call?_eq_some : sighting.call? = some (who, iteration, operation) ↔
    sighting.who = who ∧ sighting.iteration = iteration ∧
      sighting.deed.operation? = some operation := by
  unfold call?
  cases sighting.deed.operation? <;> simp

theorem call?_of_isCall (called : sighting.isCall iteration operation = true) :
    sighting.call? = some (sighting.who, iteration, operation) :=
  call?_eq_some.mpr ⟨rfl, isCall_iff.mp called⟩

end Sighting

theorem eq_singleton_of_key {β γ : Type} {key : β → Option γ} {items : List β} {item : β} {same : γ}
    (once : (items.filterMap key).Nodup) (keyed : ∀ other ∈ items, key other = some same)
    (member : item ∈ items) : items = [item] := by
  cases items with
  | nil => cases member
  | cons first rest =>
      cases rest with
      | nil => rw [List.mem_singleton.mp member]
      | cons second others =>
          have one := keyed first List.mem_cons_self
          have two := keyed second (List.mem_cons_of_mem _ List.mem_cons_self)
          simp [one, two] at once

theorem Way.deed_of_operation? {deed : Deed α} {stage : StageId} {microbatch : Nat}
    (shown : deed.operation? = some (way.pass stage microbatch)) :
    ∃ input answer, deed = way.deed stage microbatch input answer := by
  cases way with
  | forward =>
      cases deed with
      | forward other micro input answer =>
          obtain ⟨rfl, rfl⟩ := Operation.forward.inj (Option.some.inj shown)
          exact ⟨input, answer, rfl⟩
      | backward | backwardWeights | finish => cases shown
  | backward =>
      cases deed with
      | backward other micro input answer =>
          obtain ⟨rfl, rfl⟩ := Operation.backward.inj (Option.some.inj shown)
          exact ⟨input, answer, rfl⟩
      | forward | backwardWeights | finish => cases shown

theorem Way.deed_inj {stage : StageId} {microbatch : Nat} {input other : Option α}
    {value result : α}
    (same : way.deed stage microbatch input (.ok value) =
      way.deed stage microbatch other (.ok result)) : value = result := by
  cases way with
  | forward => exact Except.ok.inj (Deed.forward.inj same).2.2.2
  | backward => exact Except.ok.inj (Deed.backward.inj same).2.2.2

theorem Way.isCompute_pass (way : Way) (stage : StageId) (microbatch : Nat) :
    (way.pass stage microbatch).isCompute = true := by
  cases way <;> rfl

structure Closed (chart : Chart drill) (seen : List (Sighting α)) (iteration : Nat) : Prop where
  sound : chart.Sound
  witnessed : Witnessed chart seen
  done : ∀ who, chart.done who iteration = chart.script who

namespace Closed

theorem call (closed : Closed chart seen iteration) (listed : operation ∈ chart.script who)
    (compute : operation.isCompute = true)
    (owned : ∀ other, operation ∈ chart.script other → other = who) :
    ∃ deed, deed.operation? = some operation ∧
      seen.filter (·.isCall iteration operation) = [⟨who, iteration, deed⟩] := by
  have called := closed.witnessed.watched who iteration operation
    ((closed.done who).symm ▸ listed) compute
  obtain ⟨⟨caller, during, deed⟩, member, key⟩ := List.mem_filterMap.mp called
  obtain ⟨rfl, rfl, shown⟩ : caller = who ∧ during = iteration ∧
      deed.operation? = some operation := Sighting.call?_eq_some.mp key
  have once : ((seen.filter (·.isCall during operation)).filterMap Sighting.call?).Nodup :=
    List.Nodup.sublist (List.filter_sublist.filterMap _) closed.witnessed.once
  have keyed : ∀ other ∈ seen.filter (·.isCall during operation),
      other.call? = some (caller, during, operation) := by
    intro other kept
    obtain ⟨kept, isCall⟩ := List.mem_filter.mp kept
    have otherKey := Sighting.call?_of_isCall isCall
    have entered := closed.witnessed.entered _ _ _ (List.mem_filterMap.mpr ⟨other, kept, otherKey⟩)
    rw [closed.done] at entered
    rw [otherKey, owned other.who entered]
  refine ⟨deed, shown, eq_singleton_of_key once keyed ?_⟩
  exact List.mem_filter.mpr ⟨member, Sighting.isCall_iff.mpr ⟨rfl, shown⟩⟩

theorem listed_of_call (closed : Closed chart seen iteration) {sighting : Sighting α}
    (member : sighting ∈ seen) (called : sighting.isCall iteration operation = true) :
    operation ∈ chart.script sighting.who := by
  have entered := closed.witnessed.entered _ _ _
    (List.mem_filterMap.mpr ⟨sighting, member, Sighting.call?_of_isCall called⟩)
  rwa [closed.done] at entered

theorem pass (closed : Closed chart seen iteration) (way : Way) {stage : StageId} {microbatch : Nat}
    (known : drill.plan.layout.IsStage stage) (inside : microbatch < drill.plan.microbatches) :
    ∃ input value, seen.filter (·.isCall iteration (way.pass stage microbatch)) =
        [⟨drill.plan.layout.rankOf stage, iteration, way.deed stage microbatch input (.ok value)⟩] ∧
      Fitting drill.plan.layout seen iteration
        (drill.inputs (drill.plan.layout.rankOf stage) iteration) way stage microbatch input := by
  obtain ⟨deed, shown, once⟩ := closed.call
    (closed.sound.mem_script_of_pass way known inside) (way.isCompute_pass stage microbatch)
    fun other member => ((closed.sound.scored.playable other).known_pass member).2.1.symm
  obtain ⟨input, answer, rfl⟩ := Way.deed_of_operation? shown
  have member := List.mem_of_mem_filter (once ▸ List.mem_singleton.mpr rfl :
    (⟨drill.plan.layout.rankOf stage, iteration, way.deed stage microbatch input answer⟩ :
      Sighting α) ∈ seen.filter (·.isCall iteration (way.pass stage microbatch)))
  obtain ⟨⟨value, rfl⟩, fitting⟩ := closed.witnessed.proper _ member way _ _ _ _ rfl
  exact ⟨input, value, once, fitting⟩

end Closed
end PipelineTraining
