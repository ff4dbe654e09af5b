import Mathlib.Data.Prod.Lex
import PipelineTraining.Proofs.Transport.Encoding

/-!
Epochs keep the order of attempts, also across the end of their circle. Of two attempts
less than half the circle apart the tags of the earlier one are stale at the later one, and
never the other way round. Epochs and tags are what shifts and cut-offs of words make of
the numbers of an attempt.
-/

namespace PipelineTraining

/-- In words an iteration is shifted by one bit, and its retry is put there. What the shift loses
at the top is no part of an epoch. -/
theorem attemptEpoch_eq_word (iteration attempt : UInt64) :
    attemptEpoch iteration.toNat attempt.toNat =
      ((iteration <<< 1) ||| (attempt &&& 1)).toUInt32 := by
  have bit : attempt.toNat % 2 < 2 ^ 1 := Nat.mod_lt _ (by decide)
  have one : (1 : UInt64).toNat = 1 := rfl
  have place : (1 : UInt64).toNat % 64 = 1 := rfl
  have shifted : (iteration <<< 1).toNat = (iteration.toNat % 2 ^ 63) <<< 1 := by
    rw [UInt64.toNat_shiftLeft, place, Nat.shiftLeft_eq, Nat.shiftLeft_eq]
    omega
  have joined : ((iteration <<< 1) ||| (attempt &&& 1)).toNat =
      iteration.toNat % 2 ^ 63 * 2 + attempt.toNat % 2 := by
    rw [UInt64.toNat_or, UInt64.toNat_and, shifted, one, Nat.and_one_is_mod,
      ← Nat.shiftLeft_add_eq_or_of_lt bit, Nat.shiftLeft_eq, Nat.pow_one]
  refine UInt32.toNat_inj.mp ?_
  rw [UInt64.toNat_toUInt32, joined]
  simp only [attemptEpoch, Nat.toUInt32, UInt32.toNat_ofNat']
  omega

namespace Tag

variable {tag : Tag} {current : UInt32}

theorem epoch_ofNumber (number : UInt64) :
    (ofNumber number.toNat).epoch = (number >>> 32).toUInt32 := by
  refine UInt32.toNat_inj.mp ?_
  rw [UInt64.toNat_toUInt32, UInt64.toNat_shiftRight]
  simp [ofNumber, Nat.shiftRight_eq_div_pow]

theorem number_eq_word (tag : Tag) :
    tag.number = ((tag.epoch.toUInt64 <<< 32) ||| tag.slot.toUInt64).toNat := by
  have slot := tag.slot.toNat_lt
  have epoch := tag.epoch.toNat_lt
  have half : (32 : UInt64).toNat % 64 = 32 := rfl
  have fits : tag.epoch.toNat <<< 32 < 2 ^ 64 := by
    rw [Nat.shiftLeft_eq]
    omega
  rw [UInt64.toNat_or, UInt64.toNat_shiftLeft, UInt32.toNat_toUInt64, UInt32.toNat_toUInt64, half,
    Nat.mod_eq_of_lt fits, ← Nat.shiftLeft_add_eq_or_of_lt slot, Nat.shiftLeft_eq]
  rfl

theorem lag_eq_emod : ((tag.lag current).toNat : ℤ) =
    ((current.toNat : ℤ) - tag.epoch.toNat) % 2 ^ 32 := by
  have epoch := tag.epoch.toNat_lt
  rw [lag, UInt32.toNat_sub]
  omega

/-- Stale is a lag that is positive as a signed word. -/
theorem isStale_iff_signed :
    tag.isStale current = true ↔ (0 : ℤ) < (current - tag.epoch).toInt32.toInt := by
  have bound := (tag.lag current).toNat_lt
  rw [isStale_iff, ← lag, Int32.toInt, UInt32.toBitVec_toInt32, BitVec.toInt_eq_toNat_cond,
    UInt32.toNat_toBitVec]
  split <;> omega

theorem isStale_self (tag : Tag) : tag.isStale tag.epoch = false := by
  rw [← Bool.not_eq_true, isStale_iff_before]
  exact fun before => before.ne rfl

end Tag

/-- Epochs order the attempts, and tags know it. A tag is stale at an epoch that is ahead of its
own by less than half the circle, and only there; so of two attempts that are not too far apart the
earlier one's tags are stale at the later one, and the later one's tags are neither stale at the
earlier one nor equal to its tags. -/
theorem Tag.epochs_ordered :
    (∀ (number : UInt64) (current : UInt32),
      ((ofNumber number.toNat).isStale current = true ↔
        0 < ((current.toNat : ℤ) - (number >>> 32).toUInt32.toNat) % 2 ^ 32 ∧
          ((current.toNat : ℤ) - (number >>> 32).toUInt32.toNat) % 2 ^ 32 < 2 ^ 31) ∧
      ((ofNumber number.toNat).isStale current = true ↔
        (0 : ℤ) < (current - (number >>> 32).toUInt32).toInt32.toInt)) ∧
    (∀ tag : Tag, tag.number = ((tag.epoch.toUInt64 <<< 32) ||| tag.slot.toUInt64).toNat ∧
      tag.isStale tag.epoch = false) ∧
    (∀ iteration attempt : UInt64, attemptEpoch iteration.toNat attempt.toNat =
      ((iteration <<< 1) ||| (attempt &&& 1)).toUInt32) ∧
    ∀ (first second : UInt64) (attempt another : Nat) (base : UInt32),
      second.toNat - first.toNat < 2 ^ 30 → attempt ≤ 1 → another ≤ 1 →
      toLex (first, attempt) < toLex (second, another) →
      let earlier : Tag := ⟨attemptEpoch first.toNat attempt, base⟩
      let later : Tag := ⟨attemptEpoch second.toNat another, base⟩
      earlier.isStale later.epoch = true ∧ later.isStale earlier.epoch = false ∧
        earlier.number ≠ later.number := by
  refine ⟨fun number current => ⟨?_, ?_⟩, ?_, attemptEpoch_eq_word, ?_⟩
  · rw [isStale_iff, ← epoch_ofNumber, ← lag_eq_emod]
    omega
  · rw [isStale_iff_signed, epoch_ofNumber]
  · exact fun tag => ⟨number_eq_word tag, isStale_self tag⟩
  · intro first second attempt another base near few fewToo ahead
    have numbers : first.toNat < second.toNat ∨
        first.toNat = second.toNat ∧ attempt < another := by
      rw [Prod.Lex.toLex_lt_toLex] at ahead
      simpa only [UInt64.lt_iff_toNat_lt, ← UInt64.toNat_inj] using ahead
    have before := attemptEpoch_before near few fewToo numbers
    refine ⟨(isStale_iff_before _ _).mpr before, ?_, fun same => ?_⟩
    · rw [← Bool.not_eq_true, isStale_iff_before]
      exact before.not_symm
    · exact before.ne (congrArg epoch (number_inj.mp same))

/-- The retry of the last iteration on the circle and the first attempt behind it. -/
theorem Tag.epochs_ordered_around :
    let earlier : Tag := ⟨attemptEpoch (2 ^ 31 - 1) 1, 8⟩
    let later : Tag := ⟨attemptEpoch (2 ^ 31) 0, 8⟩
    earlier.epoch = 0xffffffff ∧ later.epoch = 0 ∧ earlier.isStale later.epoch = true ∧
      later.isStale earlier.epoch = false ∧ earlier.number ≠ later.number := by
  refine ⟨by decide, by decide, ?_⟩
  have ahead : toLex ((0x7fffffff : UInt64), 1) < toLex (0x80000000, 0) :=
    Prod.Lex.toLex_lt_toLex.mpr (by decide)
  exact epochs_ordered.2.2.2 0x7fffffff 0x80000000 1 0 8 (by decide) (by decide) (by decide) ahead

end PipelineTraining
