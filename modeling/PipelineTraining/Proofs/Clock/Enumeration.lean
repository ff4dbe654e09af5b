import Mathlib.Data.List.ProdSigma
import PipelineTraining.Proofs.Clock.Outcome
import PipelineTraining.Proofs.Plan.Coverage

/-!
What a rank's work orders list. The groups cut the micro-batches into runs without a gap, so
either order has every pass of the rank once, at a place that its chunk, its group and its
offset in the group tell; a chunk meets its micro-batches one after the other, and a
micro-batch meets the chunks along the pipeline or against it.
-/

namespace PipelineTraining

theorem Layout.stagesOf_downstream {layout : Layout} (sound : layout.Sound) {rank : Nat}
    (inside : rank < layout.depth) :
    (layout.stagesOf rank).Pairwise fun first second => first.logical < second.logical := by
  rw [stagesOf, List.pairwise_map]
  refine List.Pairwise.imp_of_mem ?_ List.pairwise_lt_range
  intro chunk later _ held before
  simp only [stage]
  cases placed : layout.placement with
  | interleaved =>
      exact Nat.add_lt_add_left (Nat.mul_lt_mul_of_pos_right before sound.ranks) rank
  | vShape =>
      have two := sound.folded placed
      have bound := List.mem_range.mp held
      obtain rfl : chunk = 0 := by omega
      obtain rfl : later = 1 := by omega
      simp only [if_true, Nat.one_ne_zero, if_false]
      omega

namespace WorkOrder

/-- An order with every pass of a rank, group by group. Within a group the chunk numbered `chunk`
is visited behind `turn chunk` others, so that a micro-batch goes through the given stages. -/
structure Enumerates (layout : Layout) (rank microbatches : Nat) (turn : Nat → Nat)
    (stages : List StageId) (order : List Pass) : Prop where
  length : order.length = microbatches * layout.chunks
  place : ∀ chunk < layout.chunks, ∀ group, group * layout.depth < microbatches →
    ∀ offset < min layout.depth (microbatches - group * layout.depth), ∀ index,
      order[index]? = some (layout.stage rank chunk, group * layout.depth + offset) ↔
        index = group * layout.depth * layout.chunks +
          turn chunk * min layout.depth (microbatches - group * layout.depth) + offset
  whole : order.Perm (layout.stagesOf rank ×ˢ List.range microbatches)
  chunkwise : ∀ stage ∈ layout.stagesOf rank,
    (order.filter fun pass => pass.1 = stage).map Prod.snd = List.range microbatches
  batchwise : ∀ microbatch < microbatches,
    (order.filter fun pass => pass.2 = microbatch).map Prod.fst = stages

variable {layout : Layout} {rank microbatches : Nat} {chunks : List Nat}

theorem flatMap_only {α β : Type} [DecidableEq α] {items : List α} {item : α}
    (noDup : items.Nodup) (member : item ∈ items) (part : List β) :
    (items.flatMap fun other => if other = item then part else []) = part := by
  obtain ⟨before, after, rfl⟩ := List.append_of_mem member
  have apart := List.nodup_middle.mp noDup
  have others : ∀ rest : List α, (∀ other ∈ rest, other ≠ item) →
      (rest.flatMap fun other => if other = item then part else []) = [] := by
    intro rest different
    exact List.flatMap_eq_nil_iff.mpr fun other listed => if_neg (different other listed)
  have missing := (List.nodup_cons.mp apart).1
  rw [List.mem_append, not_or] at missing
  rw [List.flatMap_append, List.flatMap_cons, if_pos rfl,
    others before fun other listed same => missing.1 (same ▸ listed),
    others after fun other listed same => missing.2 (same ▸ listed), List.nil_append,
    List.append_nil]

theorem groups_range (layout : Layout) (microbatches groups : Nat) :
    (List.range groups).flatMap (group layout microbatches) =
      List.range (min (groups * groupSize layout) microbatches) := by
  induction groups with
  | zero => simp
  | succ groups ih =>
      rw [List.range_succ, List.flatMap_append, ih, List.flatMap_singleton, group,
        Nat.add_mul, Nat.one_mul]
      rcases Nat.le_total (groups * groupSize layout) microbatches with short | long
      · rw [Nat.min_eq_left short, List.range'_eq_map_range, ← List.range_add]
        congr 1
        omega
      · rw [Nat.min_eq_right long, Nat.sub_eq_zero_of_le long, Nat.min_zero, List.range'_zero,
          List.append_nil, Nat.min_eq_right (Nat.le_add_right_of_le long)]

theorem groups_whole (layout : Layout) (microbatches : Nat) :
    (List.range (groupCount layout microbatches)).flatMap (group layout microbatches) =
      List.range microbatches := by
  have size := groupSize_pos layout
  have reach := Nat.div_add_mod' (microbatches + groupSize layout - 1) (groupSize layout)
  have short := Nat.mod_lt (microbatches + groupSize layout - 1) size
  rw [groups_range, groupCount, Nat.min_eq_right (by omega)]

theorem visit_chunk {chunk : Nat} (noDup : chunks.Nodup) (visited : chunk ∈ chunks) :
    ((visit layout rank microbatches chunks).filter fun pass =>
      pass.1 = layout.stage rank chunk).map Prod.snd = List.range microbatches := by
  -- In every group the passes of other chunks drop out.
  have kept : ∀ index other, ((group layout microbatches index).map fun microbatch =>
      (layout.stage rank other, microbatch)).filter (fun pass => pass.1 = layout.stage rank chunk) =
        if other = chunk then
          (group layout microbatches index).map fun microbatch =>
            (layout.stage rank chunk, microbatch)
        else [] := by
    intro index other
    split
    case isTrue same => simp [same]
    case isFalse different =>
      refine List.filter_eq_nil_iff.mpr fun pass member => ?_
      obtain ⟨_, _, rfl⟩ := List.mem_map.mp member
      simpa using fun same => different (congrArg StageId.chunk same)
  simp only [visit, List.filter_flatMap, kept, flatMap_only noDup visited, List.map_flatMap,
    List.map_map, Function.comp_def, List.map_id']
  exact groups_whole layout microbatches

theorem visit_microbatch {microbatch : Nat} (inside : microbatch < microbatches) :
    ((visit layout rank microbatches chunks).filter fun pass => pass.2 = microbatch).map Prod.fst =
      chunks.map (layout.stage rank) := by
  -- Its own group has it once, and no other group has it.
  have kept : ∀ index chunk, ((group layout microbatches index).map fun other =>
      (layout.stage rank chunk, other)).filter (fun pass => pass.2 = microbatch) =
        if index = microbatch / groupSize layout then [(layout.stage rank chunk, microbatch)]
        else [] := by
    intro index chunk
    have noDup : (group layout microbatches index).Nodup := List.nodup_range'
    rw [List.filter_map, Function.comp_def, List.filter_eq, noDup.count,
      if_congr (mem_group layout microbatches index microbatch) rfl rfl]
    by_cases own : microbatch / groupSize layout = index
    · rw [if_pos ⟨inside, own⟩, if_pos own.symm]
      rfl
    · rw [if_neg fun both => own both.2, if_neg fun same => own same.symm]
      rfl
  have merged : ∀ index, (chunks.flatMap fun chunk =>
      if index = microbatch / groupSize layout then [(layout.stage rank chunk, microbatch)]
      else []) = if index = microbatch / groupSize layout then
        chunks.map fun chunk => (layout.stage rank chunk, microbatch) else [] := by
    intro index
    split
    · exact List.flatMap_pure_eq_map _ _
    · exact List.flatMap_eq_nil_iff.mpr fun _ _ => rfl
  simp only [visit, List.filter_flatMap, kept, merged]
  rw [flatMap_only List.nodup_range (List.mem_range.mpr (index_lt_groupCount inside)),
    List.map_map, Function.comp_def]

theorem visit_enumerates {turn : Nat → Nat} (visits : chunks.Perm (List.range layout.chunks))
    (turns : ∀ chunk < layout.chunks, chunks[turn chunk]? = some chunk)
    (ranks : 0 < layout.depth) : Enumerates layout rank microbatches turn
      (chunks.map (layout.stage rank)) (visit layout rank microbatches chunks) := by
  have noDup : chunks.Nodup := visits.nodup_iff.mpr List.nodup_range
  have members : ∀ pass : Pass, pass ∈ visit layout rank microbatches chunks ↔
      ∃ chunk < layout.chunks, ∃ microbatch < microbatches,
        pass = (layout.stage rank chunk, microbatch) := by
    intro pass
    simp only [mem_visit, visits.mem_iff, List.mem_range]
  constructor
  case length => exact order_length (visit_nodup noDup) members
  case place =>
    intro chunk held index begun offset short place
    have place_eq : WorkOrder.place layout microbatches chunks.length (turn chunk)
        (index * layout.depth + offset) = index * layout.depth * layout.chunks +
          turn chunk * min layout.depth (microbatches - index * layout.depth) + offset := by
      have within : offset < layout.depth := by omega
      have quotient : (index * layout.depth + offset) / layout.depth = index := by
        rw [Nat.mul_comm, Nat.mul_add_div ranks, Nat.div_eq_of_lt within, Nat.add_zero]
      have remainder : (index * layout.depth + offset) % layout.depth = offset := by
        rw [Nat.mul_comm, Nat.mul_add_mod, Nat.mod_eq_of_lt within]
      rw [WorkOrder.place, groupLength, groupSize_eq ranks, quotient, remainder,
        visits.length_eq, List.length_range, Nat.mul_assoc]
    rw [visit_index noDup (turns chunk held), place_eq]
    exact and_iff_right (by omega)
  case whole =>
    have flat : (layout.stagesOf rank).Nodup :=
      List.nodup_range.map fun first second same => congrArg StageId.chunk same
    refine (List.perm_ext_iff_of_nodup (visit_nodup noDup)
      (flat.product List.nodup_range)).mpr fun pass => ?_
    obtain ⟨stage, microbatch⟩ := pass
    rw [members, List.mem_product, Layout.stagesOf, List.mem_map, List.mem_range]
    constructor
    · rintro ⟨chunk, held, other, below, same⟩
      obtain ⟨rfl, rfl⟩ := Prod.mk.inj same
      exact ⟨⟨chunk, List.mem_range.mpr held, rfl⟩, below⟩
    · rintro ⟨⟨chunk, held, rfl⟩, below⟩
      exact ⟨chunk, List.mem_range.mp held, microbatch, below, rfl⟩
  case chunkwise =>
    intro stage listed
    obtain ⟨chunk, held, rfl⟩ := List.mem_map.mp listed
    exact visit_chunk noDup (visits.mem_iff.mpr held)
  case batchwise => exact fun microbatch inside => visit_microbatch inside

theorem forward_enumerates (ranks : 0 < layout.depth) (rank microbatches : Nat) :
    Enumerates layout rank microbatches id (layout.stagesOf rank)
      (forward layout rank microbatches) :=
  visit_enumerates (List.Perm.refl _) (fun chunk held => by simp [held]) ranks

theorem backward_enumerates (ranks : 0 < layout.depth) (rank microbatches : Nat) :
    Enumerates layout rank microbatches (layout.chunks - 1 - ·) (layout.stagesOf rank).reverse
      (backward layout rank microbatches) := by
  rw [Layout.stagesOf, ← List.map_reverse]
  refine visit_enumerates (List.reverse_perm _) (fun chunk held => ?_) ranks
  have mirrored : layout.chunks - 1 - chunk + chunk + 1 = (List.range layout.chunks).length := by
    rw [List.length_range]
    omega
  rw [List.getElem?_reverse' mirrored]
  simp [held]

end WorkOrder

/-- Both orders of a rank enumerate its passes: a micro-batch goes through the stages of the rank
down the pipeline in the one and up in the other. -/
theorem Topology.orders_enumerate {topology : Topology} {chunks rank : Nat} {placement : Placement}
    {layout : Layout} (laid : topology.layout chunks placement = .ok layout)
    (inside : rank < layout.depth) (microbatches : Nat) :
    layout.depth = topology.depth ∧ layout.chunks = chunks ∧
      WorkOrder.Enumerates layout rank microbatches id (layout.stagesOf rank)
        (WorkOrder.forward layout rank microbatches) ∧
      WorkOrder.Enumerates layout rank microbatches (layout.chunks - 1 - ·)
        (layout.stagesOf rank).reverse (WorkOrder.backward layout rank microbatches) ∧
      (layout.stagesOf rank).Pairwise (fun first second => first.logical < second.logical) ∧
      ∀ stage, stage ∈ layout.stagesOf rank ↔
        layout.IsStage stage ∧ layout.rankOf stage = rank := by
  have ranks : 0 < layout.depth := Nat.zero_lt_of_lt inside
  have depth : layout.depth = topology.depth := by
    rw [(Topology.layout_shares laid).2.2]
  obtain ⟨sound, _, sameChunks, _⟩ := Topology.layout_ok (depth ▸ ranks) laid
  exact ⟨depth, sameChunks, WorkOrder.forward_enumerates ranks rank microbatches,
    WorkOrder.backward_enumerates ranks rank microbatches, Layout.stagesOf_downstream sound inside,
    fun _ => Layout.mem_stagesOf sound inside⟩

/-- The second of three folded ranks takes up five micro-batches, the last group one short. -/
theorem Topology.orders_enumerate_folded :
    let layout : Layout := ⟨3, 2, 1, .vShape⟩
    (Topology.mk 3 6 none).layout 2 .vShape = .ok layout ∧ 1 < layout.depth ∧
      WorkOrder.Enumerates layout 1 5 id [⟨0, 1⟩, ⟨1, 4⟩] (WorkOrder.forward layout 1 5) ∧
      WorkOrder.Enumerates layout 1 5 (2 - 1 - ·) [⟨1, 4⟩, ⟨0, 1⟩]
        (WorkOrder.backward layout 1 5) := by
  intro layout
  have laid : (Topology.mk 3 6 none).layout 2 .vShape = .ok layout := rfl
  have inside : 1 < layout.depth := by decide
  obtain ⟨_, _, forward, backward, _⟩ := Topology.orders_enumerate laid inside 5
  exact ⟨laid, inside, forward, backward⟩

/-- The last chunk takes up the fourth micro-batch behind the whole first group and the other chunk
of its own, which is one micro-batch short. -/
example : (WorkOrder.forward ⟨3, 2, 1, .vShape⟩ 1 5)[1 * 3 * 2 + 1 * 2 + 0]? =
    some (⟨1, 4⟩, 3) := by decide

end PipelineTraining
