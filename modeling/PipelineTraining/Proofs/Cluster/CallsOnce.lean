import PipelineTraining.Proofs.Cluster.RankDistance

/-!
What has been seen, against what is done. The calls seen are the passes that the
ranks have behind them, each seen once, each with the input it must have and a
good answer; whoever has been through an iteration was seen finishing it.
-/

namespace PipelineTraining

variable {σ α : Type}

namespace Sighting

def call? (sighting : Sighting α) : Option (Nat × Nat × Operation) :=
  sighting.deed.operation?.map fun operation => (sighting.who, sighting.iteration, operation)

end Sighting

def callsOf (seen : List (Sighting α)) : List (Nat × Nat × Operation) :=
  seen.filterMap Sighting.call?

def Chart.task {drill : Drill σ α} (chart : Chart drill) (who iteration : Nat) : Task α where
  plan := drill.plan
  rank := who
  script := chart.script who
  iteration := iteration
  retry := 0
  inputs := drill.inputs who iteration

def Proper (drill : Drill σ α) (seen : List (Sighting α)) (who iteration : Nat)
    (deed : Deed α) : Prop :=
  ∀ (way : Way) stage microbatch input answer, deed = way.deed stage microbatch input answer →
    (∃ value, answer = .ok value) ∧ Fitting drill.plan.layout seen iteration
      (drill.inputs who iteration) way stage microbatch input

structure Witnessed {drill : Drill σ α} (chart : Chart drill) (seen : List (Sighting α)) :
    Prop where
  entered : ∀ who iteration operation, (who, iteration, operation) ∈ callsOf seen →
    operation ∈ chart.done who iteration
  watched : ∀ who iteration operation, operation ∈ chart.done who iteration →
    operation.isCompute = true → (who, iteration, operation) ∈ callsOf seen
  once : (callsOf seen).Nodup
  proper : ∀ sighting ∈ seen, Proper drill seen sighting.who sighting.iteration sighting.deed
  ordered : ∀ before who iteration stage microbatch answer after,
    seen = before ++ ⟨who, iteration, .backwardWeights stage microbatch answer⟩ :: after →
    (who, iteration, .backward stage microbatch) ∈ callsOf before
  finished : ∀ who iteration result, ⟨who, iteration, .finish result⟩ ∈ seen →
    drill.first ≤ iteration ∧ iteration < (chart.spots who).iteration ∧
      ∃ report, result = .ok report ∧ Finished (chart.task who iteration) seen report
  reported : ∀ who iteration, who < drill.plan.layout.depth → drill.first ≤ iteration →
    iteration < (chart.spots who).iteration →
    ∃ report, ⟨who, iteration, .finish (.ok report)⟩ ∈ seen

theorem callsOf_append (seen more : List (Sighting α)) :
    callsOf (seen ++ more) = callsOf seen ++ callsOf more :=
  List.filterMap_append

theorem Proper.mono {drill : Drill σ α} {seen later : List (Sighting α)} {who iteration : Nat}
    {deed : Deed α} (more : seen ⊆ later) (proper : Proper drill seen who iteration deed) :
    Proper drill later who iteration deed := by
  intro way stage microbatch input answer same
  obtain ⟨good, fitting⟩ := proper way stage microbatch input answer same
  exact ⟨good, fitting.mono more⟩

theorem Proper.finish (drill : Drill σ α) (seen : List (Sighting α)) (who iteration : Nat)
    (result : Except Fault (StepReport α)) : Proper drill seen who iteration (.finish result) := by
  intro way stage microbatch input answer same
  cases way <;> cases same

theorem Proper.pass {drill : Drill σ α} {seen : List (Sighting α)} {who iteration : Nat} {way : Way}
    {stage : StageId} {microbatch : Nat} {input : Option α}
    (fitting : Fitting drill.plan.layout seen iteration (drill.inputs who iteration) way stage
      microbatch input) (value : α) :
    Proper drill seen who iteration (way.deed stage microbatch input (.ok value)) := by
  intro other another micro handed answer same
  cases way <;> cases other <;> cases same
  · exact ⟨⟨value, rfl⟩, fitting⟩
  · exact ⟨⟨value, rfl⟩, fitting⟩

theorem Proper.weights (drill : Drill σ α) (seen : List (Sighting α)) (who iteration : Nat)
    (stage : StageId) (microbatch : Nat) (answer : Except String Unit) :
    Proper drill seen who iteration (.backwardWeights stage microbatch answer) := by
  intro way other micro handed returned same
  cases way <;> cases same

namespace Witnessed

variable {drill : Drill σ α} {chart chart' : Chart drill} {seen : List (Sighting α)}
  {who : Nat} {operation : Operation} {spot : Spot} {deed : Deed α}

theorem unchanged (witnessed : Witnessed chart seen)
    (same : ∀ other iteration, chart'.done other iteration = chart.done other iteration)
    (iterations : ∀ other, (chart'.spots other).iteration = (chart.spots other).iteration)
    (course : chart'.course = chart.course) : Witnessed chart' seen := by
  have tasks : ∀ who iteration, chart'.task who iteration = chart.task who iteration := by
    intro who iteration
    unfold Chart.task Chart.script
    rw [course]
  constructor
  · intro who iteration operation call
    rw [same]
    exact witnessed.entered who iteration operation call
  · intro who iteration operation member compute
    rw [same] at member
    exact witnessed.watched who iteration operation member compute
  · exact witnessed.once
  · exact witnessed.proper
  · exact witnessed.ordered
  · intro who iteration result member
    rw [iterations, tasks]
    exact witnessed.finished who iteration result member
  · intro who iteration inside begun past
    rw [iterations] at past
    exact witnessed.reported who iteration inside begun past

theorem advanced (witnessed : Witnessed chart seen)
    (begun : drill.first ≤ (chart.spots who).iteration)
    (iterations : spot.iteration = (chart.spots who).iteration)
    (longer : spot.behind = (chart.spots who).behind ++ [operation])
    (unseen : operation.isCompute = false) : Witnessed (chart.put who spot) seen := by
  have members := Chart.mem_done_put begun iterations longer
  have kept : ∀ other, ((chart.put who spot).spots other).iteration =
      (chart.spots other).iteration := Chart.iteration_put iterations
  constructor
  · intro other iteration another call
    exact (members ..).mpr (Or.inl (witnessed.entered other iteration another call))
  · intro other iteration another member compute
    rcases (members ..).mp member with old | ⟨_, _, same⟩
    · exact witnessed.watched other iteration another old compute
    · rw [same, unseen] at compute
      cases compute
  · exact witnessed.once
  · exact witnessed.proper
  · exact witnessed.ordered
  · intro other iteration result member
    rw [kept]
    exact witnessed.finished other iteration result member
  · intro other iteration inside begun past
    rw [kept] at past
    exact witnessed.reported other iteration inside begun past

theorem ordered_snoc (witnessed : Witnessed chart seen) {last : Sighting α}
    (fed : ∀ stage microbatch answer, last.deed = .backwardWeights stage microbatch answer →
      (last.who, last.iteration, .backward stage microbatch) ∈ callsOf seen)
    {before after : List (Sighting α)} {who iteration : Nat} {stage : StageId} {microbatch : Nat}
    {answer : Except String Unit} (split : seen ++ [last] =
      before ++ ⟨who, iteration, .backwardWeights stage microbatch answer⟩ :: after) :
    (who, iteration, .backward stage microbatch) ∈ callsOf before := by
  rcases Course.snoc_split split with ⟨rfl, rfl, _⟩ | ⟨rest, _, old⟩
  · exact fed stage microbatch answer rfl
  · exact witnessed.ordered before who iteration stage microbatch answer rest old

theorem called (witnessed : Witnessed chart seen)
    (begun : drill.first ≤ (chart.spots who).iteration)
    (iterations : spot.iteration = (chart.spots who).iteration)
    (longer : spot.behind = (chart.spots who).behind ++ [operation])
    (shown : deed.operation? = some operation)
    (new : operation ∉ chart.done who (chart.spots who).iteration)
    (proper : Proper drill seen who (chart.spots who).iteration deed)
    (fed : ∀ stage microbatch answer, deed = .backwardWeights stage microbatch answer →
      .backward stage microbatch ∈ chart.done who (chart.spots who).iteration) :
    Witnessed (chart.put who spot) (seen ++ [⟨who, (chart.spots who).iteration, deed⟩]) := by
  have members := Chart.mem_done_put begun iterations longer
  have kept : ∀ other, ((chart.put who spot).spots other).iteration =
      (chart.spots other).iteration := Chart.iteration_put iterations
  have more : seen ⊆ seen ++ [⟨who, (chart.spots who).iteration, deed⟩] :=
    List.subset_append_left ..
  have calls : callsOf (seen ++ [⟨who, (chart.spots who).iteration, deed⟩]) =
      callsOf seen ++ [(who, (chart.spots who).iteration, operation)] := by
    rw [callsOf_append]
    simp [callsOf, Sighting.call?, shown]
  -- A call ends no iteration, so what is known of ends stays as it is.
  have unfinished : ∀ result, deed ≠ .finish result := by
    rintro result rfl
    cases shown
  constructor
  · intro other iteration another call
    rw [calls] at call
    rcases List.mem_append.mp call with old | now
    · exact (members ..).mpr (Or.inl (witnessed.entered other iteration another old))
    · obtain ⟨rfl, rfl, rfl⟩ := List.mem_singleton.mp now
      exact (members ..).mpr (Or.inr ⟨rfl, rfl, rfl⟩)
  · intro other iteration another member compute
    rw [calls]
    rcases (members ..).mp member with old | ⟨rfl, rfl, rfl⟩
    · exact List.mem_append_left _ (witnessed.watched other iteration another old compute)
    · exact List.mem_append_right _ List.mem_cons_self
  · rw [calls, List.nodup_append]
    refine ⟨witnessed.once, List.nodup_singleton _, ?_⟩
    rintro call old _ now rfl
    obtain rfl := List.mem_singleton.mp now
    exact new (witnessed.entered _ _ _ old)
  · intro sighting member
    rcases List.mem_append.mp member with old | now
    · exact (witnessed.proper sighting old).mono more
    · obtain rfl := List.mem_singleton.mp now
      exact proper.mono more
  · intro before other iteration stage microbatch answer after split
    refine witnessed.ordered_snoc (fun stage microbatch answer same => ?_) split
    exact witnessed.watched _ _ _ (fed stage microbatch answer same) rfl
  · intro other iteration result member
    rw [kept]
    rcases List.mem_append.mp member with old | now
    · obtain ⟨begun, past, report, same, finished⟩ :=
        witnessed.finished other iteration result old
      exact ⟨begun, past, report, same, finished.mono more⟩
    · have same := Sighting.mk.inj (List.mem_singleton.mp now)
      exact absurd same.2.2.symm (unfinished result)
  · intro other iteration inside begun past
    rw [kept] at past
    obtain ⟨report, member⟩ := witnessed.reported other iteration inside begun past
    exact ⟨report, more member⟩

theorem ended (witnessed : Witnessed chart seen)
    (begun : drill.first ≤ (chart.spots who).iteration)
    (iterations : spot.iteration = (chart.spots who).iteration + 1)
    (same : ∀ other iteration, (chart.put who spot).done other iteration =
      chart.done other iteration) {report : StepReport α}
    (finished : Finished (chart.task who (chart.spots who).iteration) seen report) :
    Witnessed (chart.put who spot)
      (seen ++ [⟨who, (chart.spots who).iteration, .finish (.ok report)⟩]) := by
  have more : seen ⊆ seen ++ [⟨who, (chart.spots who).iteration, .finish (.ok report)⟩] :=
    List.subset_append_left ..
  have calls : callsOf (seen ++ [⟨who, (chart.spots who).iteration, .finish (.ok report)⟩]) =
      callsOf seen := by
    rw [callsOf_append]
    simp [callsOf, Sighting.call?, Deed.operation?]
  have onward : ∀ other, (chart.spots other).iteration ≤
      ((chart.put who spot).spots other).iteration :=
    Chart.forall_put (P := fun other spot => (chart.spots other).iteration ≤ spot.iteration)
      (iterations ▸ Nat.le_succ _) fun _ => Nat.le_refl _
  constructor
  · intro other iteration operation call
    rw [calls] at call
    rw [same]
    exact witnessed.entered other iteration operation call
  · intro other iteration operation member compute
    rw [same] at member
    rw [calls]
    exact witnessed.watched other iteration operation member compute
  · rw [calls]
    exact witnessed.once
  · intro sighting member
    rcases List.mem_append.mp member with old | now
    · exact (witnessed.proper sighting old).mono more
    · obtain rfl := List.mem_singleton.mp now
      exact Proper.finish drill _ who _ _
  · intro before other iteration stage microbatch answer after split
    refine witnessed.ordered_snoc (fun stage microbatch answer same => ?_) split
    cases same
  · intro other iteration result member
    rcases List.mem_append.mp member with old | now
    · obtain ⟨begun, past, report, same, finished⟩ := witnessed.finished other iteration result old
      exact ⟨begun, Nat.lt_of_lt_of_le past (onward other), report, same, finished.mono more⟩
    · obtain ⟨rfl, rfl, rfl⟩ := List.mem_singleton.mp now
      rw [Chart.put_self, iterations]
      exact ⟨begun, Nat.lt_succ_self _, report, rfl, finished.mono more⟩
  · intro other iteration inside early past
    -- The one iteration that is newly left was seen ending just now.
    by_cases now : other = who ∧ iteration = (chart.spots who).iteration
    · obtain ⟨rfl, rfl⟩ := now
      exact ⟨report, List.mem_append_right _ List.mem_cons_self⟩
    · have before : iteration < (chart.spots other).iteration := by
        by_cases here : other = who
        · subst here
          rw [Chart.put_self, iterations] at past
          have apart : iteration ≠ (chart.spots other).iteration := fun equal => now ⟨rfl, equal⟩
          omega
        · rwa [Chart.put_other here] at past
      obtain ⟨old, member⟩ := witnessed.reported other iteration inside early before
      exact ⟨old, more member⟩

end Witnessed
end PipelineTraining
