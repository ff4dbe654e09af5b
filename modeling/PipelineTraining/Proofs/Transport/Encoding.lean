import PipelineTraining.Proofs.Plan.Acceptance
import PipelineTraining.Proofs.Transport.Tags

/-!
What a tag says. A payload has a tag if its slot fits into the lower word; the epoch, the
direction, the receiving stage and the micro-batch can be read off it, and between the stages
of one pipeline they say which payload it is.
-/

namespace PipelineTraining

namespace Tag

theorem ofNumber_number (tag : Tag) : ofNumber tag.number = tag := by
  have place := tag.slot.toNat_lt
  have upper : tag.number / 2 ^ 32 = tag.epoch.toNat := by
    rw [number, Nat.pow_eq, Nat.mul_comm, Nat.mul_add_div (by decide), Nat.div_eq_of_lt place,
      Nat.add_zero]
  have lower : tag.number % 2 ^ 32 = tag.slot.toNat := by
    rw [number, Nat.pow_eq, Nat.mul_comm, Nat.mul_add_mod, Nat.mod_eq_of_lt place]
  have slot : tag.number.toUInt32 = tag.slot :=
    UInt32.toNat_inj.mp (UInt32.toNat_ofNat'.trans lower)
  have epoch : (tag.number / Nat.pow 2 32).toUInt32 = tag.epoch := by
    rw [Nat.pow_eq, upper]
    exact UInt32.ofNat_toNat
  rw [ofNumber, epoch, slot]

theorem number_inj {first second : Tag} : first.number = second.number ↔ first = second := by
  constructor
  · intro same
    rw [← ofNumber_number first, same, ofNumber_number]
  · rintro rfl
    rfl

end Tag

namespace Transfer

variable {transfer first second : Transfer} {microbatches : Nat} {epoch another : UInt32}
  {tag other : Tag} {way : Way}

theorem exists_tag_iff : (∃ tag, transfer.tag microbatches epoch = .ok tag) ↔
    ∃ way : Way, transfer.kind = way.kind ∧
      (transfer.target.logical * microbatches + transfer.microbatch) * 2 + way.direction ≤
        2 ^ 32 - 1 := by
  simp only [tag_eq_ok]
  constructor
  · rintro ⟨tag, way, carries, fits, _⟩
    exact ⟨way, carries, Nat.le_sub_one_of_lt fits⟩
  · rintro ⟨way, carries, fits⟩
    exact ⟨_, way, carries, Nat.lt_of_le_sub_one (by decide) fits, rfl⟩

theorem number_of_tag (tagged : transfer.tag microbatches epoch = .ok tag)
    (carries : transfer.kind = way.kind) :
    tag.number = epoch.toNat * 2 ^ 32 +
      ((transfer.target.logical * microbatches + transfer.microbatch) * 2 + way.direction) := by
  obtain ⟨same, otherCarries, fits, rfl⟩ := tag_eq_ok.mp tagged
  obtain rfl := Way.kind_inj (carries.symm.trans otherCarries)
  rw [Tag.number, Nat.toUInt32, UInt32.toNat_ofNat', Nat.mod_eq_of_lt fits]
  rfl

theorem tag_number_inj (inside : first.microbatch < microbatches)
    (insideToo : second.microbatch < microbatches)
    (tagged : first.tag microbatches epoch = .ok tag)
    (taggedToo : second.tag microbatches another = .ok other) :
    tag.number = other.number ↔ epoch = another ∧ first.kind = second.kind ∧
      first.target.logical = second.target.logical ∧ first.microbatch = second.microbatch := by
  obtain ⟨way, carries, fits, form⟩ := tag_eq_ok.mp tagged
  obtain ⟨otherWay, otherCarries, otherFits, otherForm⟩ := tag_eq_ok.mp taggedToo
  rw [Tag.number_inj, carries, otherCarries, form, otherForm, Tag.mk.injEq]
  refine and_congr_right fun _ => ?_
  constructor
  · intro slots
    have numbers := congrArg UInt32.toNat slots
    simp only [Nat.toUInt32, UInt32.toNat_ofNat', Nat.mod_eq_of_lt fits,
      Nat.mod_eq_of_lt otherFits] at numbers
    obtain ⟨logical, micro, rfl⟩ := Way.digits_inj inside insideToo numbers
    exact ⟨rfl, logical, micro⟩
  · rintro ⟨kinds, logical, micro⟩
    rw [Way.kind_inj kinds, slot, slot, logical, micro]

end Transfer

theorem Crossing.eq_of_transfer {layout : Layout} {first second : Delivery}
    (crossing : Crossing layout first) (crossingToo : Crossing layout second)
    (kinds : first.transfer.kind = second.transfer.kind)
    (logical : first.transfer.target.logical = second.transfer.target.logical)
    (micro : first.transfer.microbatch = second.transfer.microbatch) : first = second := by
  cases crossing with
  | pass way source target microbatch known found away =>
      cases crossingToo with
      | pass other origin goal another knownToo foundToo awayToo =>
          obtain rfl : way = other := Way.kind_inj kinds
          obtain rfl : target = goal := (way.isStage_target known found).eq_of_logical
            (way.isStage_target knownToo foundToo) logical
          obtain rfl : microbatch = another := micro
          -- A stage has one source on the way.
          have sources := (way.source_of_target known found).symm.trans
            (way.source_of_target knownToo foundToo)
          obtain rfl := Option.some.inj sources
          rfl

/-- Tags are exact. A payload has one if its slot is below the end of the word, and it spells out
the epoch and the slot; equal tags are those of one epoch, direction, receiving stage and
micro-batch; and two payloads of a built plan never have one tag. -/
theorem Transfer.tags_exact :
    (∀ (transfer : Transfer) (microbatches : Nat) (epoch : UInt32),
      ((∃ tag, transfer.tag microbatches epoch = .ok tag) ↔
        ∃ way : Way, transfer.kind = way.kind ∧
          (transfer.target.logical * microbatches + transfer.microbatch) * 2 + way.direction ≤
            2 ^ 32 - 1) ∧
      ∀ tag, transfer.tag microbatches epoch = .ok tag →
        (Tag.ofNumber tag.number).epoch = epoch ∧
        ∀ way : Way, transfer.kind = way.kind → tag.number = epoch.toNat * 2 ^ 32 +
          ((transfer.target.logical * microbatches + transfer.microbatch) * 2 +
            way.direction)) ∧
    (∀ (first second : Transfer) (microbatches : Nat) (epoch another : UInt32) (tag other : Tag),
      first.microbatch < microbatches → second.microbatch < microbatches →
      first.tag microbatches epoch = .ok tag → second.tag microbatches another = .ok other →
      (tag.number = other.number ↔ epoch = another ∧ first.kind = second.kind ∧
        first.target.logical = second.target.logical ∧ first.microbatch = second.microbatch)) ∧
    ∀ (blueprint : Blueprint) (plan : Plan), 0 < blueprint.topology.depth →
      blueprint.build = .ok plan → ∀ (side otherSide : Side) (first second : Delivery)
        (epoch another : UInt32) (tag other : Tag),
      first ∈ plan.deliveries side → second ∈ plan.deliveries otherSide →
      first.transfer.tag plan.microbatches epoch = .ok tag →
      second.transfer.tag plan.microbatches another = .ok other →
      (tag.number = other.number ↔ epoch = another ∧ first = second) := by
  refine ⟨?_, ?_, ?_⟩
  · intro transfer microbatches epoch
    refine ⟨exists_tag_iff, fun tag tagged => ⟨?_, fun way carries => number_of_tag tagged carries⟩⟩
    obtain ⟨_, _, _, rfl⟩ := tag_eq_ok.mp tagged
    rw [Tag.ofNumber_number]
  · intro first second microbatches epoch another tag other inside insideToo tagged taggedToo
    exact tag_number_inj inside insideToo tagged taggedToo
  · intro blueprint plan ranks built side otherSide first second epoch another tag other member
      memberToo tagged taggedToo
    obtain ⟨_, _, _, _, _, _, rfl⟩ := Blueprint.build_ok built
    obtain ⟨course, scored⟩ := Blueprint.scored_of_build ranks built
    obtain ⟨crossing, inside⟩ := (Blueprint.assemble_numbered.mem_deliveries scored).mp member
    obtain ⟨crossingToo, insideToo⟩ :=
      (Blueprint.assemble_numbered.mem_deliveries scored).mp memberToo
    rw [tag_number_inj inside insideToo tagged taggedToo]
    refine and_congr_right fun _ => ⟨?_, ?_⟩
    · rintro ⟨kinds, logical, micro⟩
      exact crossing.eq_of_transfer crossingToo kinds logical micro
    · rintro rfl
      exact ⟨rfl, rfl, rfl⟩

/-- Two payloads of one micro-batch that go from the first rank to the second, to different chunks
of it. -/
theorem Transfer.tags_exact_around :
    let blueprint : Blueprint := ⟨⟨2, 4, none⟩, 2, 3, 2, .interleaved, false, true, .uniform⟩
    let payload (source target : StageId) : Delivery := ⟨0, 1, .activation source target 0⟩
    let first := payload ⟨0, 0⟩ ⟨0, 1⟩
    let second := payload ⟨1, 2⟩ ⟨1, 3⟩
    ∃ plan, blueprint.build = .ok plan ∧ first ∈ plan.deliveries .sender ∧
      second ∈ plan.deliveries .sender ∧ ∃ tag other,
        first.transfer.tag plan.microbatches 7 = .ok tag ∧
        second.transfer.tag plan.microbatches 7 = .ok other ∧ tag.number ≠ other.number := by
  intro blueprint payload first second
  let layout : Layout := ⟨2, 2, 1, .interleaved⟩
  have laid : (Topology.mk 2 4 none).layout 2 .interleaved = .ok layout := rfl
  obtain ⟨timelines, built⟩ := blueprint.exists_build (by decide) rfl rfl laid (by decide)
  obtain ⟨course, scored⟩ := Blueprint.scored_of_build (by decide) built
  have crosses : ∀ source target, layout.IsStage source → layout.next source = some target →
      layout.rankOf source = 0 → layout.rankOf target = 1 →
      payload source target ∈ (blueprint.assemble layout timelines).deliveries .sender := by
    intro source target known found sender receiver
    have crossing := Crossing.pass .forward source target 0 known found (by omega)
    rw [sender, receiver] at crossing
    exact (Blueprint.assemble_numbered.mem_deliveries scored).mpr ⟨crossing, Nat.two_pos⟩
  have firstSent := crosses ⟨0, 0⟩ ⟨0, 1⟩ ⟨by decide, by decide⟩ (by decide) (by decide)
    (by decide)
  have secondSent := crosses ⟨1, 2⟩ ⟨1, 3⟩ ⟨by decide, by decide⟩ (by decide) (by decide)
    (by decide)
  refine ⟨_, built, firstSent, secondSent, ⟨7, 4⟩, ⟨7, 12⟩, rfl, rfl, fun same => ?_⟩
  have deliveries := (tags_exact.2.2 blueprint _ (by decide) built .sender .sender _ _ 7 7 _ _
    firstSent secondSent rfl rfl).mp same
  exact absurd deliveries.2 (by decide)

end PipelineTraining
