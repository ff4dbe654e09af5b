import Mathlib.Data.List.Nodup
import PipelineTraining.Clock.WorkOrder
import PipelineTraining.Proofs.Layout.Stages

/-!
Where a work order holds a pass. Every group in front is full, so the place of a
pass is a number that depends on its chunk and its micro-batch and not on the
rank. On the last chunk the forward order runs behind the backward order by the
other chunks of one group.
-/

namespace PipelineTraining.WorkOrder

variable {layout : Layout}

def groupLength (layout : Layout) (microbatches index : Nat) : Nat :=
  min (groupSize layout) (microbatches - index * groupSize layout)

def place (layout : Layout) (microbatches chunks position microbatch : Nat) : Nat :=
  microbatch / groupSize layout * (groupSize layout * chunks) +
    position * groupLength layout microbatches (microbatch / groupSize layout) +
    microbatch % groupSize layout

def forwardPlace (layout : Layout) (microbatches chunk microbatch : Nat) : Nat :=
  place layout microbatches layout.chunks chunk microbatch

def backwardPlace (layout : Layout) (microbatches chunk microbatch : Nat) : Nat :=
  place layout microbatches layout.chunks (layout.chunks - 1 - chunk) microbatch

theorem groupSize_pos (layout : Layout) : 0 < groupSize layout :=
  Nat.lt_of_lt_of_le Nat.one_pos (Nat.le_max_right _ _)

theorem groupSize_eq (ranks : 0 < layout.depth) : groupSize layout = layout.depth :=
  Nat.max_eq_left ranks

theorem group_length (layout : Layout) (microbatches index : Nat) :
    (group layout microbatches index).length = groupLength layout microbatches index := by
  simp [group, groupLength]

theorem mem_group (layout : Layout) (microbatches index microbatch : Nat) :
    microbatch ∈ group layout microbatches index ↔
      microbatch < microbatches ∧ microbatch / groupSize layout = index := by
  have size := groupSize_pos layout
  rw [Nat.div_eq_iff size]
  simp only [group, List.mem_range'_1]
  generalize index * groupSize layout = start
  omega

theorem groupLength_full {microbatches index : Nat}
    (before : (index + 1) * groupSize layout ≤ microbatches) :
    groupLength layout microbatches index = groupSize layout := by
  unfold groupLength
  rw [Nat.add_mul, Nat.one_mul] at before
  omega

theorem offset_lt (layout : Layout) {microbatches microbatch : Nat}
    (inside : microbatch < microbatches) :
    microbatch % groupSize layout <
      groupLength layout microbatches (microbatch / groupSize layout) := by
  have split := Nat.div_add_mod' microbatch (groupSize layout)
  have short := Nat.mod_lt microbatch (groupSize_pos layout)
  unfold groupLength
  omega

theorem groupLength_le (layout : Layout) (microbatches index : Nat) :
    groupLength layout microbatches index ≤ min (groupSize layout) microbatches := by
  unfold groupLength
  omega

theorem index_lt_groupCount {microbatches microbatch : Nat} (inside : microbatch < microbatches) :
    microbatch / groupSize layout < groupCount layout microbatches := by
  have size := groupSize_pos layout
  unfold groupCount
  rw [Nat.div_lt_iff_lt_mul size]
  have split := Nat.div_add_mod' (microbatches + groupSize layout - 1) (groupSize layout)
  have short := Nat.mod_lt (microbatches + groupSize layout - 1) size
  omega

theorem getElem?_flatMap {α β : Type} (f : α → List β) (length : Nat) (items : List α) :
    ∀ (index : Nat) (item : α) (offset : Nat), items[index]? = some item →
      (∀ before ∈ items.take index, (f before).length = length) → offset < (f item).length →
      (items.flatMap f)[index * length + offset]? = (f item)[offset]? := by
  induction items with
  | nil => simp
  | cons head rest ih =>
      intro index item offset found even short
      rw [List.flatMap_cons]
      cases index with
      | zero =>
          obtain rfl : head = item := by simpa using found
          rw [Nat.zero_mul, Nat.zero_add, List.getElem?_append_left short]
      | succ index =>
          have front : (f head).length = length := even head (by simp)
          have past : (index + 1) * length + offset =
              (f head).length + (index * length + offset) := by
            rw [front, Nat.add_mul]
            omega
          rw [past, List.getElem?_append_right (Nat.le_add_right _ _), Nat.add_sub_cancel_left]
          refine ih index item offset (by simpa using found) ?_ short
          intro before member
          exact even before (by simp [member])

theorem visit_getElem? {rank microbatches microbatch position chunk : Nat} {chunks : List Nat}
    (inside : microbatch < microbatches) (visited : chunks[position]? = some chunk) :
    (visit layout rank microbatches chunks)[place layout microbatches chunks.length position
      microbatch]? = some (layout.stage rank chunk, microbatch) := by
  let passes := fun index chunk =>
    (group layout microbatches index).map fun microbatch => (layout.stage rank chunk, microbatch)
  have passesLength : ∀ index chunk,
      (passes index chunk).length = groupLength layout microbatches index := by
    intro index chunk
    simp [passes, group_length]
  let index := microbatch / groupSize layout
  let offset := microbatch % groupSize layout
  have short : offset < (passes index chunk).length := by
    rw [passesLength]
    exact offset_lt layout inside
  -- The place within the passes of one chunk, then within the group, then among all groups.
  have inPasses : (passes index chunk)[offset]? = some (layout.stage rank chunk, microbatch) := by
    have bound := offset_lt layout inside
    unfold groupLength at bound
    simp only [passes, group, List.getElem?_map]
    rw [List.getElem?_range' bound, Option.map_some, Nat.one_mul, Nat.div_add_mod']
  have inGroup := getElem?_flatMap (passes index) (groupLength layout microbatches index) chunks
    position chunk offset visited (fun before _ => passesLength index before) short
  have groupPasses : ∀ index, (chunks.flatMap (passes index)).length =
      chunks.length * groupLength layout microbatches index := by
    intro index
    simp [List.length_flatMap, passesLength]
  have inVisit := getElem?_flatMap (fun index => chunks.flatMap (passes index))
    (groupSize layout * chunks.length) (List.range (groupCount layout microbatches)) index index
    (position * groupLength layout microbatches index + offset)
    (by simp [index, index_lt_groupCount inside]) ?full ?bound
  case full =>
    intro before member
    have earlier : before < index := by
      have taken := List.mem_take_iff_getElem.mp member
      obtain ⟨_, bound, rfl⟩ := taken
      simp only [List.getElem_range]
      omega
    -- A micro-batch behind the end of a group leaves the group full.
    rw [groupPasses, groupLength_full, Nat.mul_comm]
    calc (before + 1) * groupSize layout
      _ ≤ index * groupSize layout := Nat.mul_le_mul_right _ earlier
      _ ≤ microbatch := Nat.div_mul_le_self _ _
      _ ≤ microbatches := Nat.le_of_lt inside
  case bound =>
    have counted : position < chunks.length := (List.getElem?_eq_some_iff.mp visited).1
    rw [groupPasses]
    rw [passesLength] at short
    calc position * groupLength layout microbatches index + offset
      _ < position * groupLength layout microbatches index +
            groupLength layout microbatches index := Nat.add_lt_add_left short _
      _ = (position + 1) * groupLength layout microbatches index := by ring
      _ ≤ chunks.length * groupLength layout microbatches index := Nat.mul_le_mul_right _ counted
  rw [inGroup, inPasses] at inVisit
  rw [← Nat.add_assoc] at inVisit
  exact inVisit

theorem mem_visit {rank microbatches : Nat} {chunks : List Nat} {pass : Pass} :
    pass ∈ visit layout rank microbatches chunks ↔
      ∃ chunk ∈ chunks, ∃ microbatch < microbatches,
        pass = (layout.stage rank chunk, microbatch) := by
  constructor
  · intro member
    simp only [visit, List.mem_flatMap, List.mem_map] at member
    obtain ⟨index, _, chunk, visited, microbatch, grouped, rfl⟩ := member
    exact ⟨chunk, visited, microbatch, ((mem_group _ _ _ _).mp grouped).1, rfl⟩
  · rintro ⟨chunk, visited, microbatch, inside, rfl⟩
    obtain ⟨position, found⟩ := List.getElem?_of_mem visited
    exact List.mem_of_getElem? (visit_getElem? inside found)

theorem visit_nodup {rank microbatches : Nat} {chunks : List Nat} (noDup : chunks.Nodup) :
    (visit layout rank microbatches chunks).Nodup := by
  refine List.nodup_flatMap.mpr ⟨fun index _ => List.nodup_flatMap.mpr ⟨fun chunk _ => ?_, ?_⟩, ?_⟩
  · refine List.Nodup.map (fun first second same => (Prod.ext_iff.mp same).2) ?_
    exact List.nodup_range'
  · refine noDup.imp fun different => ?_
    simp only [Function.onFun, List.disjoint_left, List.mem_map]
    rintro pass ⟨_, _, rfl⟩ ⟨_, _, same⟩
    exact different (congrArg (fun pass => pass.1.chunk) same).symm
  · refine List.nodup_range.imp fun different => ?_
    simp only [Function.onFun, List.disjoint_left, List.mem_flatMap, List.mem_map]
    rintro pass ⟨_, _, microbatch, first, rfl⟩ ⟨_, _, _, second, same⟩
    obtain rfl := congrArg Prod.snd same
    exact different (((mem_group _ _ _ _).mp first).2.symm.trans ((mem_group _ _ _ _).mp second).2)

theorem visit_index {rank microbatches microbatch position chunk index : Nat} {chunks : List Nat}
    (noDup : chunks.Nodup) (visited : chunks[position]? = some chunk) :
    (visit layout rank microbatches chunks)[index]? = some (layout.stage rank chunk, microbatch) ↔
      microbatch < microbatches ∧
        index = place layout microbatches chunks.length position microbatch := by
  constructor
  · intro found
    obtain ⟨_, _, _, inside, same⟩ := mem_visit.mp (List.mem_of_getElem? found)
    obtain rfl := congrArg Prod.snd same
    refine ⟨inside, ?_⟩
    have counted := (List.getElem?_eq_some_iff.mp found).1
    exact (List.getElem?_inj counted (visit_nodup noDup)).mp
      (found.trans (visit_getElem? inside visited).symm)
  · rintro ⟨inside, rfl⟩
    exact visit_getElem? inside visited

theorem forward_index {rank microbatches microbatch chunk index : Nat}
    (held : chunk < layout.chunks) :
    (forward layout rank microbatches)[index]? = some (layout.stage rank chunk, microbatch) ↔
      microbatch < microbatches ∧ index = forwardPlace layout microbatches chunk microbatch := by
  have visited : (List.range layout.chunks)[chunk]? = some chunk := by simp [held]
  rw [forward, visit_index List.nodup_range visited, List.length_range, forwardPlace]

theorem backward_index {rank microbatches microbatch chunk index : Nat}
    (held : chunk < layout.chunks) :
    (backward layout rank microbatches)[index]? = some (layout.stage rank chunk, microbatch) ↔
      microbatch < microbatches ∧ index = backwardPlace layout microbatches chunk microbatch := by
  have visited : (List.range layout.chunks).reverse[layout.chunks - 1 - chunk]? = some chunk := by
    have mirrored : layout.chunks - 1 - chunk + chunk + 1 = (List.range layout.chunks).length := by
      rw [List.length_range]
      omega
    rw [List.getElem?_reverse' mirrored]
    simp [held]
  rw [backward, visit_index (List.nodup_reverse.mpr List.nodup_range) visited,
    List.length_reverse, List.length_range, backwardPlace]

theorem mem_forward {rank microbatches : Nat} {pass : Pass} :
    pass ∈ forward layout rank microbatches ↔
      ∃ chunk < layout.chunks, ∃ microbatch < microbatches,
        pass = (layout.stage rank chunk, microbatch) := by
  simp [forward, mem_visit]

theorem mem_backward {rank microbatches : Nat} {pass : Pass} :
    pass ∈ backward layout rank microbatches ↔
      ∃ chunk < layout.chunks, ∃ microbatch < microbatches,
        pass = (layout.stage rank chunk, microbatch) := by
  simp [backward, mem_visit]

theorem forward_nodup (layout : Layout) (rank microbatches : Nat) :
    (forward layout rank microbatches).Nodup :=
  visit_nodup List.nodup_range

theorem backward_nodup (layout : Layout) (rank microbatches : Nat) :
    (backward layout rank microbatches).Nodup :=
  visit_nodup (List.nodup_reverse.mpr List.nodup_range)

theorem place_lt {microbatches chunks position microbatch : Nat}
    (inside : microbatch < microbatches) :
    place layout microbatches chunks position microbatch <
      place layout microbatches chunks (position + 1) microbatch := by
  have filled := Nat.zero_lt_of_lt (offset_lt layout inside)
  unfold place
  rw [Nat.add_mul, Nat.one_mul]
  omega

/-- How far the forward of the last chunk stands behind its backward. -/
theorem forwardPlace_last (layout : Layout) (microbatches microbatch : Nat) :
    forwardPlace layout microbatches (layout.chunks - 1) microbatch =
      backwardPlace layout microbatches (layout.chunks - 1) microbatch + (layout.chunks - 1) *
        groupLength layout microbatches (microbatch / groupSize layout) := by
  simp only [forwardPlace, backwardPlace, place, Nat.sub_self, Nat.zero_mul]
  omega

theorem backwardPlace_last_eq_zero {microbatches microbatch : Nat} (chunked : 0 < layout.chunks)
    (start : backwardPlace layout microbatches (layout.chunks - 1) microbatch = 0) :
    microbatch = 0 := by
  have size := groupSize_pos layout
  have split := Nat.div_add_mod' microbatch (groupSize layout)
  simp only [backwardPlace, place, Nat.add_eq_zero_iff, Nat.mul_eq_zero] at start
  obtain ⟨⟨group, _⟩, offset⟩ := start
  have first : microbatch / groupSize layout = 0 := by omega
  rw [first, offset] at split
  omega

theorem forwardPlace_last_first (layout : Layout) (microbatches : Nat) :
    forwardPlace layout microbatches (layout.chunks - 1) 0 =
      (layout.chunks - 1) * min (groupSize layout) microbatches := by
  simp [forwardPlace, place, groupLength]

end PipelineTraining.WorkOrder
