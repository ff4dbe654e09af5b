import Mathlib.Algebra.Order.BigOperators.Group.List
import PipelineTraining.Proofs.Clock.TickRange
import PipelineTraining.Proofs.Engine.Recording
import PipelineTraining.Proofs.Plan.Acceptance

/-!
What costs are measured. Totals do not depend on the order in which records come in or on the
batches they come in, since any two records may change places. A total is made of records of one
kind, so its mean lies between their durations, and so does the median of the means; as a pass
costs a tick at least, whatever could be built can be built anew with measured costs, if the
clock can count the ticks.
-/

namespace PipelineTraining

namespace OperationKind

theorem eq_of_index {kind other : OperationKind} (same : kind.index = other.index) :
    kind = other := by
  revert same
  cases kind <;> cases other <;> decide

end OperationKind

namespace Summary

variable {rank time shortest longest mean : Nat} {kind another : OperationKind} {total : Total}
  {totals : List Total} {records : List TimingRecord} {summary : Summary}

theorem precedes_iff : precedes rank kind total = true ↔
    rank < total.rank ∨ rank = total.rank ∧ kind.index < total.kind.index := by
  simp [precedes]

/-- Two records may change places: they go into one total, or into two that stand in the order
of their ranks and kinds, whichever is there first. -/
theorem addTo_comm (rank other : Nat) (kind another : OperationKind) (time more : Nat)
    (totals : List Total) : addTo rank kind time (addTo other another more totals) =
      addTo other another more (addTo rank kind time totals) := by
  induction totals with
  | nil => grind [addTo, precedes_iff, OperationKind.eq_of_index]
  | cons total rest ih => grind [addTo, precedes_iff, OperationKind.eq_of_index]

theorem add_comm (summary : Summary) (record other : TimingRecord) :
    (summary.add record).add other = (summary.add other).add record :=
  congrArg Summary.mk (addTo_comm other.rank record.rank _ _ _ _ summary.totals)

/-- Neither the order of records nor the batches they are handed over in show in their summary. -/
theorem fed_perm {batches : List (List TimingRecord)} (same : batches.flatten.Perm records) :
    (Sink.summary .empty).fed batches = .summary (empty.addAll records) := by
  have unfailing : (Sink.summary .empty).Unfailing := fun _ => rfl
  rw [unfailing.fed]
  exact congrArg Sink.summary
    (same.foldl_eq' (fun first _ second _ summary => summary.add_comm first second) empty)

def durations (kind : OperationKind) (records : List TimingRecord) : List Nat :=
  (records.filter fun record => record.operation.kind == kind).map TimingRecord.duration

theorem durations_append (records more : List TimingRecord) :
    durations kind (records ++ more) = durations kind records ++ durations kind more := by
  simp [durations]

theorem durations_singleton (record : TimingRecord) :
    durations kind [record] = if record.operation.kind = kind then [record.duration] else [] := by
  by_cases same : record.operation.kind = kind <;> simp [durations, same]

def Made (records : List TimingRecord) (total : Total) : Prop :=
  ∃ part ⊆ durations total.kind records, part ≠ [] ∧
    total.count = part.length ∧ total.time = part.sum

theorem Made.append (made : Made records total) (more : List TimingRecord) :
    Made (records ++ more) total := by
  obtain ⟨part, inside, rest⟩ := made
  refine ⟨part, fun duration member => ?_, rest⟩
  rw [durations_append]
  exact List.mem_append_left _ (inside member)

theorem Made.mean_mem (made : Made records total)
    (least : ∀ duration ∈ durations total.kind records, shortest ≤ duration)
    (most : ∀ duration ∈ durations total.kind records, duration ≤ longest) :
    shortest ≤ total.time / total.count ∧ total.time / total.count ≤ longest := by
  obtain ⟨part, inside, busy, count, time⟩ := made
  have positive : 0 < part.length := List.length_pos_iff.mpr busy
  have above : part.length * shortest ≤ part.sum := by
    simpa using List.card_nsmul_le_sum part shortest fun _ member => least _ (inside member)
  have below : part.sum ≤ part.length * longest := by
    simpa using List.sum_le_card_nsmul part longest fun _ member => most _ (inside member)
  rw [count, time]
  exact ⟨(Nat.le_div_iff_mul_le positive).mpr (by rwa [Nat.mul_comm]),
    Nat.div_le_of_le_mul below⟩

theorem mem_addTo (member : total ∈ addTo rank kind time totals) :
    total ∈ totals ∨ total = ⟨rank, kind, 1, time⟩ ∨
      ∃ old ∈ totals, old.kind = kind ∧
        total = { old with count := old.count + 1, time := old.time + time } := by
  induction totals with
  | nil => exact .inr (.inl (List.mem_singleton.mp member))
  | cons first rest ih => grind [addTo]

theorem kind_mem_addTo :
    another ∈ (addTo rank kind time totals).map Total.kind ↔
      another = kind ∨ another ∈ totals.map Total.kind := by
  induction totals with
  | nil => simp [addTo]
  | cons first rest ih => grind [addTo]

structure Sums (records : List TimingRecord) (summary : Summary) : Prop where
  made : ∀ total ∈ summary.totals, Made records total
  kinds : ∀ record ∈ records, record.operation.kind ∈ summary.totals.map Total.kind

theorem Sums.add (sums : Sums records summary) (record : TimingRecord) :
    Sums (records ++ [record]) (summary.add record) := by
  have last : durations record.operation.kind [record] = [record.duration] := by
    simp [durations_singleton]
  constructor
  · intro total member
    rcases mem_addTo member with old | rfl | ⟨old, inside, same, rfl⟩
    · exact (sums.made total old).append _
    · refine ⟨[record.duration], ?_, by simp⟩
      rw [durations_append, last]
      exact List.subset_append_right _ _
    · obtain ⟨part, part_mem, _, count, time⟩ := sums.made old inside
      refine ⟨part ++ [record.duration], ?_, by simp [count, time]⟩
      simp only [same] at part_mem ⊢
      rw [durations_append, last]
      exact List.append_subset.mpr
        ⟨List.subset_append_of_subset_left _ part_mem, List.subset_append_right _ _⟩
  · intro other member
    apply kind_mem_addTo.mpr
    rcases List.mem_append.mp member with old | new
    · exact .inr (sums.kinds other old)
    · exact .inl (by rw [List.mem_singleton.mp new])

theorem sums_addAll (records : List TimingRecord) : Sums records (empty.addAll records) := by
  induction records using List.reverseRecOn with
  | nil =>
      constructor
      · intro total member
        cases member
      · intro record member
        cases member
  | append_singleton records record ih =>
      simpa [addAll, List.foldl_append] using ih.add record

theorem Sums.means_eq_nil (sums : Sums records summary) (idle : durations kind records = []) :
    summary.means kind = [] := by
  refine List.map_eq_nil_iff.mpr (List.filter_eq_nil_iff.mpr fun total member same => ?_)
  obtain ⟨part, inside, busy, _⟩ := sums.made total member
  rw [beq_iff_eq.mp same, idle] at inside
  exact busy (List.subset_nil.mp inside)

theorem Sums.means_ne_nil (sums : Sums records summary) (busy : durations kind records ≠ []) :
    summary.means kind ≠ [] := by
  obtain ⟨duration, member⟩ := List.exists_mem_of_ne_nil _ busy
  obtain ⟨record, found, rfl⟩ := List.mem_map.mp member
  obtain ⟨inside, same⟩ := List.mem_filter.mp found
  obtain ⟨total, present, matched⟩ := List.mem_map.mp (sums.kinds record inside)
  rw [beq_iff_eq] at same
  exact List.ne_nil_of_mem (List.mem_map_of_mem
    (List.mem_filter.mpr ⟨present, beq_iff_eq.mpr (matched.trans same)⟩))

theorem Sums.mem_means (sums : Sums records summary) (member : mean ∈ summary.means kind)
    (least : ∀ duration ∈ durations kind records, shortest ≤ duration)
    (most : ∀ duration ∈ durations kind records, duration ≤ longest) :
    shortest ≤ mean ∧ mean ≤ longest := by
  obtain ⟨total, found, rfl⟩ := List.mem_map.mp member
  obtain ⟨inside, same⟩ := List.mem_filter.mp found
  obtain rfl := beq_iff_eq.mp same
  exact (sums.made total inside).mean_mem least most

theorem median?_eq_none (idle : summary.means kind = []) : summary.median? kind = none := by
  simp [median?, idle]

/-- The median is one of the means. -/
theorem exists_median? (busy : summary.means kind ≠ []) :
    ∃ mean ∈ summary.means kind, summary.median? kind = some mean := by
  have inside : (summary.means kind).length / 2 < (summary.means kind).length :=
    Nat.div_lt_self (List.length_pos_iff.mpr busy) (by decide)
  have sorted : (summary.means kind).length / 2 <
      ((summary.means kind).mergeSort fun left right => left ≤ right).length := by
    rwa [List.length_mergeSort]
  refine ⟨_, List.mem_mergeSort.mp (List.getElem_mem sorted), ?_⟩
  simp only [median?, List.length_mergeSort]
  exact List.getElem?_eq_getElem sorted

/-- A cost as measured: the usual one if nothing was, and otherwise between the shortest and the
longest duration, each of them raised to the least cost. -/
structure Measured (usual least : Nat) (durations : List Nat) (cost : Nat) : Prop where
  never : durations = [] → cost = usual
  between : ∀ shortest longest, durations.min? = some shortest → durations.max? = some longest →
    max least shortest ≤ cost ∧ cost ≤ max least longest

theorem Sums.measured (sums : Sums records summary) (kind : OperationKind) (usual least : Nat) :
    Measured usual least (durations kind records)
      (((summary.median? kind).map (max least)).getD usual) := by
  constructor
  · intro idle
    rw [median?_eq_none (sums.means_eq_nil idle)]
    rfl
  · intro shortest longest smallest largest
    rw [List.min?_eq_some_iff] at smallest
    rw [List.max?_eq_some_iff] at largest
    obtain ⟨mean, member, median⟩ :=
      exists_median? (sums.means_ne_nil (List.ne_nil_of_mem smallest.1))
    obtain ⟨above, below⟩ := sums.mem_means member smallest.2 largest.2
    rw [median]
    exact ⟨max_le_max_left least above, max_le_max_left least below⟩

theorem passCost_pos {usual : Nat} (positive : 0 < usual) (summary : Summary)
    (kind : OperationKind) : 0 < summary.passCost kind usual := by
  unfold passCost
  cases summary.median? kind with
  | none => exact positive
  | some mean => exact le_max_left 1 mean

theorem costModel_check (summary : Summary) : summary.costModel.check = .ok () := by
  have forward : 0 < summary.costModel.forward := passCost_pos (by decide) summary .forward
  have backward : 0 < summary.costModel.backward := passCost_pos (by decide) summary .backward
  have weight : 0 < summary.costModel.weight := passCost_pos (by decide) summary .backwardWeights
  unfold CostModel.check
  rw [if_neg forward.ne', if_neg backward.ne', if_neg weight.ne']

end Summary

theorem Blueprint.rebuild {blueprint : Blueprint} {plan : Plan} {costs : CostModel}
    (built : blueprint.build = .ok plan) (fair : costs.check = .ok ()) :
    ∃ rebuilt, { blueprint with cost := costs }.build = .ok rebuilt := by
  obtain ⟨busy, limit, layout, timelines, laid, timed, -⟩ := build_ok built
  have counted : blueprint.checkCounts = .ok () := checkCounts_eq_ok.mpr ⟨limit, busy⟩
  let other : Blueprint := { blueprint with cost := costs }
  by_cases ranks : 0 < blueprint.topology.depth
  · obtain ⟨sound, -⟩ := Topology.layout_ok ranks laid
    have room := (Workload.simulate_ok sound busy).mp ⟨timelines, timed⟩
    obtain ⟨timelines, rebuilt⟩ : ∃ timelines, other.build = .ok (other.assemble layout timelines) :=
      exists_build ranks counted fair laid room
    exact ⟨_, rebuilt⟩
  · -- Without ranks the clock has come to its end before it starts.
    have depth := Topology.layout_depth laid
    rcases (other.workload layout).simulate_ends with
      ⟨log, final, timed, -⟩ | ⟨log, final, -, history, undone, -⟩
    · exact ⟨_, build_of_simulate counted fair laid timed⟩
    · have none : final.ranks = [] := by
        have count : final.ranks.length = layout.depth := history.rank_count
        exact List.eq_nil_of_length_eq_zero (by omega)
      simp [Simulation.done, none] at undone

/-- A plan with the layout of another one, and with a makespan that is a word if the ticks of its
clock are words. -/
theorem Blueprint.makespan_lt {blueprint : Blueprint} {costs : CostModel} {plan rebuilt : Plan}
    {bound : Nat} (built : blueprint.build = .ok plan)
    (again : { blueprint with cost := costs }.build = .ok rebuilt) (positive : 0 < bound)
    (fits : ({ blueprint with cost := costs }.workload plan.layout).Fits bound) :
    rebuilt.statistics.makespan < bound := by
  obtain ⟨-, -, layout, timelines, laid, -, rfl⟩ := build_ok built
  obtain ⟨-, -, other, rebuilt, relaid, timed, rfl⟩ := build_ok again
  obtain rfl : layout = other := Except.ok.inj (laid.symm.trans relaid)
  exact fits.makespan_lt positive timed

namespace Summary

/-- In whatever order and in whatever batches records come in, the costs measured from them are
the same. A kind that was never timed keeps its usual cost; any other costs no less than its
shortest and no more than its longest operation, but a pass at least a tick. The costs are in
order, and a plan that was built can be built anew with them as long as no tick of the new clock
goes beyond a word. -/
theorem measures {batches : List (List TimingRecord)} {records : List TimingRecord}
    (same : batches.flatten.Perm records) :
    let summary := empty.addAll records
    let costs := summary.costModel
    (Sink.summary .empty).fed batches = .summary summary ∧
      Measured CostModel.uniform.forward 1 (durations .forward records) costs.forward ∧
      Measured CostModel.uniform.backward 1 (durations .backward records) costs.backward ∧
      Measured CostModel.uniform.weight 1 (durations .backwardWeights records) costs.weight ∧
      Measured CostModel.uniform.transfer 0 (durations .send records) costs.transfer ∧
      costs.check = .ok () ∧
      ∀ (blueprint : Blueprint) (plan : Plan), blueprint.build = .ok plan →
        ({ blueprint with cost := costs }.workload plan.layout).Fits (2 ^ 64) →
        ∃ rebuilt, { blueprint with cost := costs }.build = .ok rebuilt ∧
          rebuilt.statistics.makespan < 2 ^ 64 := by
  intro summary costs
  have sums : Sums records summary := sums_addAll records
  have transfer := sums.measured .send CostModel.uniform.transfer 0
  have unbounded : max 0 = (id : Nat → Nat) := funext Nat.zero_max
  rw [unbounded, Option.map_id] at transfer
  refine ⟨fed_perm same, sums.measured .forward _ 1, sums.measured .backward _ 1,
    sums.measured .backwardWeights _ 1, transfer, costModel_check summary, ?_⟩
  intro blueprint plan built fits
  obtain ⟨rebuilt, again⟩ := Blueprint.rebuild built (costModel_check summary)
  exact ⟨rebuilt, again, Blueprint.makespan_lt built again (by decide) fits⟩

/-- Forwards on two ranks and one backward that ends before it starts, handed over in two batches
with an empty one between them: the backward costs a tick, and so do weights that were not timed. -/
theorem measures_reversed :
    let forward (rank start finish : Nat) : TimingRecord :=
      ⟨7, rank, .forward ⟨0, rank⟩ 0, start, finish⟩
    let backward : TimingRecord := ⟨7, 1, .backward ⟨0, 1⟩ 0, 9, 5⟩
    let records := [forward 0 0 4, forward 0 4 10, forward 1 1 3, backward]
    let batches := [[backward, forward 1 1 3], [], [forward 0 4 10, forward 0 0 4]]
    let costs := (empty.addAll records).costModel
    let blueprint : Blueprint := ⟨⟨2, 4, none⟩, 2, 3, 2, .vShape, true, true, .uniform⟩
    batches.flatten.Perm records ∧
      (Sink.summary .empty).fed batches = .summary (empty.addAll records) ∧
      (2 ≤ costs.forward ∧ costs.forward ≤ 6) ∧ costs.backward = 1 ∧ costs.weight = 1 ∧
      costs.transfer = 0 ∧ costs.check = .ok () ∧
      (∃ plan, blueprint.build = .ok plan ∧
        ({ blueprint with cost := costs }.workload plan.layout).Fits (2 ^ 64)) ∧
      ∃ rebuilt, { blueprint with cost := costs }.build = .ok rebuilt ∧
        rebuilt.statistics.makespan < 2 ^ 64 := by
  intro forward backward records batches costs blueprint
  have same : batches.flatten.Perm records := by decide
  obtain ⟨fed, forwards, backwards, weights, sends, fair, rebuilds⟩ := measures same
  have laid : (Topology.mk 2 4 none).layout 2 .vShape = .ok ⟨2, 2, 1, .vShape⟩ := rfl
  obtain ⟨timelines, plan⟩ : ∃ timelines, blueprint.build = .ok (blueprint.assemble _ timelines) :=
    Blueprint.exists_build (by decide) rfl rfl laid (by decide)
  have forward := forwards.between 2 6 rfl rfl
  have backward := backwards.between 0 0 rfl rfl
  have once : costs.backward = 1 := Nat.le_antisymm backward.2 backward.1
  have weight : costs.weight = 1 := weights.never rfl
  have send : costs.transfer = 0 := sends.never rfl
  have fits : ({ blueprint with cost := costs }.workload ⟨2, 2, 1, .vShape⟩).Fits (2 ^ 64) := by
    refine Workload.fits_of_reach (Nat.lt_of_le_of_lt (Nat.mul_le_mul_left _ (?_ : _ ≤ 6)) ?_)
    · have most : costs.forward ≤ 6 := forward.2
      change costs.transfer + max (max costs.forward costs.backward) costs.weight ≤ 6
      omega
    · decide
  exact ⟨same, fed, forward, once, weight, send, fair, ⟨_, plan, fits⟩,
    rebuilds blueprint _ plan fits⟩

end Summary
end PipelineTraining
