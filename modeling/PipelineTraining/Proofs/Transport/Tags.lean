import PipelineTraining.Proofs.Layout.Way
import PipelineTraining.Transport.Tag

/-!
Tags tell payloads apart. Within one attempt no two payloads of the pipeline have
the same tag as long as there are tags enough, and between iterations that follow
one another the epochs differ: what the one before left is stale, what the one
behind sent early is not.
-/

namespace PipelineTraining

def Way.direction : Way → Nat
  | .forward => 0
  | .backward => 1

/-- There are tags enough for all payloads of an attempt. A rank by itself sends none. -/
def Layout.Tagged (layout : Layout) (microbatches : Nat) : Prop :=
  1 < layout.depth → 2 * layout.stageCount * microbatches ≤ 2 ^ 32

variable {layout : Layout} {microbatches microbatch another : Nat} {way other : Way}
  {source target elsewhere : StageId}

theorem Way.direction_le (way : Way) : way.direction ≤ 1 := by
  cases way <;> decide

theorem Way.direction_inj (same : way.direction = other.direction) : way = other := by
  cases way <;> cases other <;> first | rfl | cases same

theorem Layout.Tagged.slot_lt (tagged : layout.Tagged microbatches) (many : 1 < layout.depth)
    (known : layout.IsStage target) (inside : microbatch < microbatches) (way : Way) :
    (target.logical * microbatches + microbatch) * 2 + way.direction < 2 ^ 32 := by
  have last : (target.logical + 1) * microbatches ≤ layout.stageCount * microbatches :=
    Nat.mul_le_mul_right _ known.inside
  have direction := way.direction_le
  have enough := tagged many
  rw [Nat.add_mul, Nat.one_mul] at last
  rw [Nat.mul_assoc] at enough
  omega

theorem Transfer.tag_of_kind {transfer : Transfer} {epoch : UInt32}
    (carries : transfer.kind = way.kind) :
    transfer.tag microbatches epoch = transfer.tagIn microbatches way.direction epoch := by
  unfold Transfer.tag
  rw [carries]
  cases way <;> rfl

theorem Transfer.tag_eq_ok {transfer : Transfer} {epoch : UInt32} {tag : Tag} :
    transfer.tag microbatches epoch = .ok tag ↔
      ∃ way : Way, transfer.kind = way.kind ∧ transfer.slot microbatches way.direction < 2 ^ 32 ∧
        tag = ⟨epoch, (transfer.slot microbatches way.direction).toUInt32⟩ := by
  have tagged : ∀ way : Way, transfer.kind = way.kind →
      (transfer.tag microbatches epoch = .ok tag ↔
        transfer.slot microbatches way.direction < 2 ^ 32 ∧
          tag = ⟨epoch, (transfer.slot microbatches way.direction).toUInt32⟩) := by
    intro way carries
    rw [tag_of_kind carries]
    generalize slot : transfer.slot microbatches way.direction = place
    simp only [tagIn, slot, Nat.pow_eq]
    grind
  constructor
  · intro found
    cases kind : transfer.kind with
    | activation => exact ⟨.forward, rfl, (tagged .forward kind).mp found⟩
    | gradient => exact ⟨.backward, rfl, (tagged .backward kind).mp found⟩
    | fingerprint =>
        simp only [Transfer.tag, kind] at found
        cases found
  · rintro ⟨way, carries, fits⟩
    exact (tagged way carries).mpr fits

def Way.tag (way : Way) (microbatches : Nat) (target : StageId) (microbatch : Nat)
    (epoch : UInt32) : Tag :=
  ⟨epoch, ((target.logical * microbatches + microbatch) * 2 + way.direction).toUInt32⟩

theorem Way.tag_transfer (way : Way) (tagged : layout.Tagged microbatches)
    (many : 1 < layout.depth) (source : StageId)
    (known : layout.IsStage target) (inside : microbatch < microbatches) (epoch : UInt32) :
    (way.transfer source target microbatch).tag microbatches epoch =
      .ok (way.tag microbatches target microbatch epoch) :=
  Transfer.tag_eq_ok.mpr ⟨way, rfl, tagged.slot_lt many known inside way, rfl⟩

theorem Transfer.tag_beyond (transfer : Transfer) (microbatches : Nat) (epoch : UInt32)
    (beyond : 2 ^ 32 ≤ (transfer.target.logical * microbatches + transfer.microbatch) * 2) :
    ∃ cause, transfer.tag microbatches epoch = .error (.configuration cause) := by
  have refused : ∀ direction, ∃ cause,
      transfer.tagIn microbatches direction epoch = .error (.configuration cause) := by
    intro direction
    have slot : 2 ^ 32 ≤ transfer.slot microbatches direction :=
      beyond.trans (Nat.le_add_right _ direction)
    simp only [tagIn, Nat.pow_eq, if_pos slot]
    split
    · exact ⟨_, rfl⟩
    · exact ⟨_, rfl⟩
  unfold tag
  split
  · exact refused 0
  · exact refused 1
  · exact ⟨_, rfl⟩

/-- The digits of a slot can be read off it: the direction is its lowest bit, and of the rest the
quotient by the number of micro-batches is the stage. -/
theorem Way.digits_inj {logical place : Nat} (inside : microbatch < microbatches)
    (insideToo : another < microbatches)
    (same : (logical * microbatches + microbatch) * 2 + way.direction =
      (place * microbatches + another) * 2 + other.direction) :
    logical = place ∧ microbatch = another ∧ way = other := by
  have bits := way.direction_le
  have otherBits := other.direction_le
  have ways : way = other := Way.direction_inj (by omega)
  have rest : logical * microbatches + microbatch = place * microbatches + another := by omega
  have positive : 0 < microbatches := Nat.zero_lt_of_lt inside
  have stages : logical = place := by
    have quotients := congrArg (· / microbatches) rest
    simpa [Nat.mul_add_div positive, Nat.mul_comm _ microbatches, Nat.div_eq_of_lt inside,
      Nat.div_eq_of_lt insideToo] using quotients
  subst stages
  exact ⟨rfl, by omega, ways⟩

theorem Way.tag_inj {epoch epoch' : UInt32} (tagged : layout.Tagged microbatches)
    (many : 1 < layout.depth) (known : layout.IsStage target)
    (knownElsewhere : layout.IsStage elsewhere)
    (inside : microbatch < microbatches) (insideToo : another < microbatches)
    (same : way.tag microbatches target microbatch epoch =
      other.tag microbatches elsewhere another epoch') :
    epoch = epoch' ∧ way = other ∧ target = elsewhere ∧ microbatch = another := by
  obtain ⟨epochs, slots⟩ := Tag.mk.inj same
  have first := tagged.slot_lt many known inside way
  have second := tagged.slot_lt many knownElsewhere insideToo other
  -- Below the bound no slot wraps, so equal slots are equal numbers.
  have numbers := congrArg UInt32.toNat slots
  simp only [Nat.toUInt32, UInt32.toNat_ofNat', Nat.mod_eq_of_lt first,
    Nat.mod_eq_of_lt second] at numbers
  obtain ⟨logical, microbatches, ways⟩ := Way.digits_inj inside insideToo numbers
  exact ⟨epochs, ways, known.eq_of_logical knownElsewhere logical, microbatches⟩

theorem attemptEpoch_inj {first second : Nat} (near : first ≤ second + 1 ∧ second ≤ first + 1)
    (same : attemptEpoch first 0 = attemptEpoch second 0) : first = second := by
  have numbers := congrArg UInt32.toNat same
  simp only [attemptEpoch, Nat.toUInt32, UInt32.toNat_ofNat'] at numbers
  omega

theorem attemptEpoch_inj_of_few {first rounds iteration other retry another : Nat}
    (few : 2 * rounds ≤ 2 ^ 32) (begun : first ≤ iteration) (ahead : iteration < first + rounds)
    (otherBegun : first ≤ other) (otherAhead : other < first + rounds) (bounded : retry ≤ 1)
    (otherBounded : another ≤ 1)
    (same : attemptEpoch iteration retry = attemptEpoch other another) :
    iteration = other ∧ retry = another := by
  have numbers := congrArg UInt32.toNat same
  simp only [attemptEpoch, Nat.toUInt32, UInt32.toNat_ofNat'] at numbers
  omega

theorem isStale_iff (tag : Tag) (current : UInt32) :
    tag.isStale current = true ↔
      0 < (tag.lag current).toNat ∧ (tag.lag current).toNat < 2 ^ 31 := by
  simp [Tag.isStale, UInt32.lt_iff_toNat_lt]

/-- Earlier on the circle of epochs, by less than half of it. -/
def EpochBefore (first second : UInt32) : Prop :=
  0 < (second - first).toNat ∧ (second - first).toNat < 2 ^ 31

instance (first second : UInt32) : Decidable (EpochBefore first second) :=
  inferInstanceAs (Decidable (_ ∧ _))

theorem isStale_iff_before (tag : Tag) (current : UInt32) :
    tag.isStale current = true ↔ EpochBefore tag.epoch current :=
  isStale_iff tag current

theorem EpochBefore.ne {first second : UInt32} (before : EpochBefore first second) :
    first ≠ second := by
  rintro rfl
  simp [EpochBefore] at before

theorem EpochBefore.not_symm {first second : UInt32} (before : EpochBefore first second) :
    ¬ EpochBefore second first := by
  simp only [EpochBefore, UInt32.toNat_sub] at before ⊢
  have := first.toNat_lt
  have := second.toNat_lt
  omega

theorem epochBefore_iff {base first second : UInt32} (near : (first - base).toNat < 2 ^ 31)
    (nearToo : (second - base).toNat < 2 ^ 31) :
    EpochBefore first second ↔ (first - base).toNat < (second - base).toNat := by
  simp only [EpochBefore, UInt32.toNat_sub] at near nearToo ⊢
  have := first.toNat_lt
  have := second.toNat_lt
  have := base.toNat_lt
  omega

theorem attemptEpoch_before {first second attempt another : Nat} (near : second - first < 2 ^ 30)
    (few : attempt ≤ 1) (fewToo : another ≤ 1)
    (earlier : first < second ∨ first = second ∧ attempt < another) :
    EpochBefore (attemptEpoch first attempt) (attemptEpoch second another) := by
  simp only [EpochBefore, UInt32.toNat_sub, attemptEpoch, Nat.toUInt32, UInt32.toNat_ofNat']
  omega

theorem attemptEpoch_before_next (iteration : Nat) :
    EpochBefore (attemptEpoch iteration 0) (attemptEpoch (iteration + 1) 0) :=
  attemptEpoch_before (by omega) (Nat.zero_le 1) (Nat.zero_le 1) (Or.inl (Nat.lt_succ_self _))

/-- What is left of the iteration before is stale. -/
theorem stale_of_previous (iteration : Nat) (slot : UInt32) :
    (Tag.mk (attemptEpoch iteration 0) slot).isStale (attemptEpoch (iteration + 1) 0) = true :=
  (isStale_iff_before _ _).mpr (attemptEpoch_before_next iteration)

/-- Nothing of this iteration or the next is stale. -/
theorem fresh_of_near {iteration current : Nat} (slot : UInt32)
    (near : iteration = current ∨ iteration = current + 1) :
    (Tag.mk (attemptEpoch iteration 0) slot).isStale (attemptEpoch current 0) = false := by
  rw [← Bool.not_eq_true, isStale_iff_before]
  rcases near with rfl | rfl
  · exact fun before => before.ne rfl
  · exact (attemptEpoch_before_next current).not_symm

end PipelineTraining
