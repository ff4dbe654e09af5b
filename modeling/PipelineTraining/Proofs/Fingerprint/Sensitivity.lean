import Mathlib.Data.Int.ModEq
import Mathlib.RingTheory.Coprime.Lemmas
import Mathlib.Tactic.NormNum
import Mathlib.Tactic.Ring
import PipelineTraining.Fingerprint.Digest

/-!
A checksum notices every change of a single number of four bytes or less. Two checksums that
are told apart stay apart under the same bytes, since mixing can be undone. Within one number
the bytes differ as well, and what matters is how far they push the two checksums apart: each
push is small and is multiplied by the factor of mixing once for every byte behind it, so that
four of them add up to zero only if all of them are zero.
-/

namespace PipelineTraining

namespace Digest

def factor : Int := 0x100000001b3

def push (checksum : UInt64) (byte : UInt8) : Int :=
  (checksum ^^^ byte.toUInt64).toNat - checksum.toNat

def drifts : UInt64 → UInt64 → List UInt8 → List UInt8 → List Int
  | first, second, byte :: left, other :: right =>
      (push first byte - push second other) ::
        drifts (mix first byte) (mix second other) left right
  | _, _, _, _ => []

/-- The distance that is left when every push has been multiplied by all bytes behind it. -/
def distance (start : Int) (pushes : List Int) : Int :=
  pushes.foldl (fun apart push => (apart + push) * factor) start

variable {checksum first second : UInt64} {byte other : UInt8} {left right : List UInt8}

theorem mix_injective (byte : UInt8) : Function.Injective (mix · byte) := by
  intro first second same
  -- The factor is odd, so that it has an inverse among the words.
  have inverse : (0x100000001b3 : UInt64) * 0xce965057aff6957b = 1 := by decide
  have product := congrArg (· * (0xce965057aff6957b : UInt64)) same
  simp only [mix, UInt64.mul_assoc, inverse, UInt64.mul_one] at product
  have undone := congrArg (· ^^^ byte.toUInt64) product
  simpa only [UInt64.xor_assoc, UInt64.xor_self, UInt64.xor_zero] using undone

theorem foldl_mix_injective (bytes : List UInt8) : Function.Injective (bytes.foldl mix ·) := by
  induction bytes with
  | nil => exact fun _ _ same => same
  | cons byte rest ih => exact fun first second same => mix_injective byte (ih same)

theorem push_bounded (checksum : UInt64) (byte : UInt8) :
    -255 ≤ push checksum byte ∧ push checksum byte ≤ 255 := by
  have small := byte.toNat_lt
  -- The bits above the byte are kept.
  have kept : (checksum ^^^ byte.toUInt64).toNat / 2 ^ 8 = checksum.toNat / 2 ^ 8 := by
    rw [UInt64.toNat_xor, UInt8.toNat_toUInt64, ← Nat.shiftRight_eq_div_pow,
      Nat.shiftRight_xor_distrib, Nat.shiftRight_eq_div_pow byte.toNat,
      Nat.div_eq_of_lt small, Nat.xor_zero, Nat.shiftRight_eq_div_pow]
  unfold push
  omega

theorem push_inj (same : push checksum byte = push checksum other) : byte = other := by
  have moved : checksum ^^^ byte.toUInt64 = checksum ^^^ other.toUInt64 := by
    refine UInt64.toNat_inj.mp ?_
    unfold push at same
    omega
  have undone := congrArg (checksum ^^^ ·) moved
  simp only [← UInt64.xor_assoc, UInt64.xor_self, UInt64.zero_xor] at undone
  refine UInt8.toNat_inj.mp ?_
  simpa only [UInt8.toNat_toUInt64] using congrArg UInt64.toNat undone

theorem mix_apart (first second : UInt64) (byte other : UInt8) :
    ((mix first byte).toNat - (mix second other).toNat : Int) ≡
      (first.toNat - second.toNat + (push first byte - push second other)) * factor
        [ZMOD 2 ^ 64] := by
  have mixed : ∀ checksum byte, ((mix checksum byte).toNat : Int) ≡
      (checksum.toNat + push checksum byte) * factor [ZMOD 2 ^ 64] := by
    intro checksum byte
    have word : (0x100000001b3 : UInt64).toNat = 0x100000001b3 := rfl
    rw [mix, UInt64.toNat_mul, word, Int.natCast_mod, push, factor]
    push_cast
    rw [add_sub_cancel]
    exact Int.mod_modEq _ _
  have difference := (mixed first byte).sub (mixed second other)
  rwa [← sub_mul, add_sub_add_comm] at difference

theorem foldl_mix_apart (even : left.length = right.length) (first second : UInt64) :
    ((left.foldl mix first).toNat - (right.foldl mix second).toNat : Int) ≡
      distance (first.toNat - second.toNat) (drifts first second left right) [ZMOD 2 ^ 64] := by
  induction left generalizing first second right with
  | nil =>
      obtain rfl := List.eq_nil_of_length_eq_zero even.symm
      exact Int.ModEq.refl _
  | cons byte rest ih =>
      cases right with
      | nil => cases even
      | cons other others =>
          refine (ih (Nat.succ.inj even) _ _).trans ?_
          -- What is apart by the same, modulo the words, stays so.
          have carried : ∀ {start next : Int} (pushes : List Int), start ≡ next [ZMOD 2 ^ 64] →
              distance start pushes ≡ distance next pushes [ZMOD 2 ^ 64] := by
            intro start next pushes same
            induction pushes generalizing start next with
            | nil => exact same
            | cons push rest ih => exact ih ((same.add_right push).mul_right factor)
          exact carried _ (mix_apart first second byte other)

theorem drifts_bounded : ∀ push ∈ drifts first second left right, -510 ≤ push ∧ push ≤ 510 := by
  induction left generalizing first second right with
  | nil => simp [drifts]
  | cons byte rest ih =>
      cases right with
      | nil => simp [drifts]
      | cons other others =>
          intro push member
          rcases List.mem_cons.mp member with rfl | later
          · have near := push_bounded first byte
            have far := push_bounded second other
            omega
          · exact ih push later

theorem length_drifts (even : left.length = right.length) :
    (drifts first second left right).length = left.length := by
  induction left generalizing first second right with
  | nil => simp [drifts]
  | cons byte rest ih =>
      cases right with
      | nil => cases even
      | cons other others => exact congrArg Nat.succ (ih (Nat.succ.inj even))

theorem eq_of_drifts (even : left.length = right.length)
    (none : ∀ push ∈ drifts checksum checksum left right, push = 0) : left = right := by
  induction left generalizing checksum right with
  | nil => exact (List.eq_nil_of_length_eq_zero even.symm).symm
  | cons byte rest ih =>
      cases right with
      | nil => cases even
      | cons other others =>
          obtain rfl : byte = other := push_inj (Int.sub_eq_zero.mp (none _ List.mem_cons_self))
          rw [ih (Nat.succ.inj even) fun push later => none push (List.mem_cons_of_mem _ later)]

/-- Four small pushes cancel only if there are none. With the factor written as a power of two and
a small rest, the sum has a low part that is too small to reach that power and a middle part that is
too small to be lost at the top of a word. -/
theorem pushes_eq_zero {a b c d : Int} (first : -510 ≤ a ∧ a ≤ 510) (second : -510 ≤ b ∧ b ≤ 510)
    (third : -510 ≤ c ∧ c ≤ 510) (fourth : -510 ≤ d ∧ d ≤ 510)
    (cancel : 2 ^ 64 ∣ ((a * factor + b) * factor + c) * factor + d) :
    a = 0 ∧ b = 0 ∧ c = 0 ∧ d = 0 := by
  obtain ⟨turns, whole⟩ := cancel
  have parts : ((a * factor + b) * factor + c) * factor + d =
      (435 ^ 3 * a + 435 ^ 2 * b + 435 * c + d) +
        2 ^ 40 * (3 * 435 ^ 2 * a + 2 * 435 * b + c) +
        2 ^ 80 * (3 * 435 * a + b + 2 ^ 40 * a) := by
    rw [factor]
    ring
  rw [parts] at whole
  have low : 435 ^ 3 * a + 435 ^ 2 * b + 435 * c + d = 0 := by omega
  have single : -1 ≤ a ∧ a ≤ 1 := by omega
  have middle : 3 * 435 ^ 2 * a + 2 * 435 * b + c = 0 := by omega
  omega

/-- Bytes in front that push nothing change nothing, so there may as well be four. -/
theorem drifts_eq_zero {pushes : List Int} (short : pushes.length ≤ 4)
    (small : ∀ push ∈ pushes, -510 ≤ push ∧ push ≤ 510)
    (cancel : 2 ^ 64 ∣ distance 0 pushes) : ∀ push ∈ pushes, push = 0 := by
  obtain ⟨missing, whole⟩ := Nat.exists_eq_add_of_le short
  induction missing generalizing pushes with
  | zero =>
      obtain ⟨a, b, c, d, rfl⟩ := List.length_eq_four.mp whole.symm
      simp only [List.forall_mem_cons] at small
      have odd : IsCoprime (2 ^ 64 : Int) factor := by
        rw [Int.isCoprime_iff_gcd_eq_one]
        decide
      have once : 2 ^ 64 ∣ ((a * factor + b) * factor + c) * factor + d := by
        simpa [distance] using odd.dvd_of_dvd_mul_right cancel
      have zero := pushes_eq_zero small.1 small.2.1 small.2.2.1 small.2.2.2.1 once
      simp [zero]
  | succ missing ih =>
      have padded : 4 = (0 :: pushes).length + missing := by
        rw [List.length_cons]
        omega
      have all := ih (padded ▸ Nat.le_add_right _ _)
        (List.forall_mem_cons.mpr ⟨by decide, small⟩) (by simpa [distance] using cancel) padded
      exact fun push member => all push (List.mem_cons_of_mem _ member)

/-- From one checksum, up to four bytes lead to a checksum of their own. -/
theorem eq_of_foldl_mix (even : left.length = right.length) (short : left.length ≤ 4)
    (same : left.foldl mix checksum = right.foldl mix checksum) : left = right := by
  have apart := foldl_mix_apart even checksum checksum
  rw [same, sub_self, sub_self] at apart
  refine eq_of_drifts even (drifts_eq_zero ?_ drifts_bounded (Int.modEq_zero_iff_dvd.mp apart.symm))
  rwa [length_drifts even]

end Digest

namespace NumberFormat

variable {format : NumberFormat} {bits other : Nat}

def Holds (format : NumberFormat) (bits : Nat) : Prop :=
  bits < 256 ^ format.byteCount

theorem length_bytes (format : NumberFormat) (bits : Nat) :
    (format.bytes bits).length = format.byteCount := by
  rw [bytes, List.length_map, List.length_range]

theorem eq_of_digits {count : Nat} (first : bits < 256 ^ count) (second : other < 256 ^ count)
    (same : ∀ index < count, bits / 256 ^ index % 256 = other / 256 ^ index % 256) :
    bits = other := by
  induction count generalizing bits other with
  | zero => omega
  | succ count ih =>
      have lowest := same 0 (Nat.succ_pos count)
      rw [Nat.pow_succ, Nat.mul_comm] at first second
      have above : bits / 256 = other / 256 := by
        refine ih (Nat.div_lt_of_lt_mul first) (Nat.div_lt_of_lt_mul second) fun index inside => ?_
        have next := same (index + 1) (Nat.succ_lt_succ inside)
        rwa [Nat.pow_succ, Nat.mul_comm, ← Nat.div_div_eq_div_mul, ← Nat.div_div_eq_div_mul] at next
      omega

theorem bytes_inj (first : format.Holds bits) (second : format.Holds other)
    (same : format.bytes bits = format.bytes other) : bits = other := by
  refine eq_of_digits first second fun index inside => ?_
  have digit := congrArg (·[index]?) same
  simp only [bytes, List.getElem?_map, List.getElem?_range inside, Option.map_some,
    Option.some.injEq] at digit
  have number := congrArg UInt8.toNat digit
  simpa using number

end NumberFormat

/-- Two buffers of one length with different bits at exactly one place. -/
structure DifferOnce (left right : List Nat) : Prop where
  even : left.length = right.length
  once : ∃! index : Nat, left[index]? ≠ right[index]?

theorem DifferOnce.split {left right : List Nat} (differ : DifferOnce left right) :
    ∃ front bits other back, left = front ++ bits :: back ∧ right = front ++ other :: back ∧
      bits ≠ other := by
  obtain ⟨even, index, different, only⟩ := differ
  have same : ∀ place, place ≠ index → left[place]? = right[place]? := fun place elsewhere =>
    not_not.mp fun here => elsewhere (only place here)
  have inside : index < left.length := by
    by_contra beyond
    refine different ?_
    rw [List.getElem?_eq_none (Nat.le_of_not_lt beyond),
      List.getElem?_eq_none (even ▸ Nat.le_of_not_lt beyond)]
  have fronts : right.take index = left.take index := by
    refine List.ext_getElem? fun place => ?_
    simp only [List.getElem?_take]
    split
    · exact (same place (Nat.ne_of_lt ‹_›)).symm
    · rfl
  have backs : right.drop (index + 1) = left.drop (index + 1) := by
    refine List.ext_getElem? fun place => ?_
    simp only [List.getElem?_drop]
    exact (same _ (by omega)).symm
  have other := even ▸ inside
  refine ⟨left.take index, left[index], right[index], left.drop (index + 1), ?_, ?_, ?_⟩
  · rw [← List.drop_eq_getElem_cons inside, List.take_append_drop]
  · rw [← fronts, ← backs, ← List.drop_eq_getElem_cons other, List.take_append_drop]
  · rw [List.getElem?_eq_getElem inside, List.getElem?_eq_getElem other] at different
    exact fun equal => different (congrArg some equal)

namespace Digest

variable {format : NumberFormat} {digest first second : Digest} {bits other : Nat}

def addEach (digest : Digest) (buffers : List (NumberFormat × List Nat)) : Digest :=
  buffers.foldl (fun digest buffer => digest.addAll buffer.1 buffer.2) digest

/-- Only the checksum so far and the bits count for the checksum. -/
theorem checksum_addAll (format : NumberFormat) (digest : Digest) (values : List Nat) :
    (addAll format digest values).checksum =
      (values.flatMap format.bytes).foldl mix digest.checksum := by
  induction values generalizing digest with
  | nil => rfl
  | cons bits rest ih => rw [List.flatMap_cons, List.foldl_append]; exact ih _

theorem addAll_apart (format : NumberFormat) (values : List Nat)
    (apart : first.checksum ≠ second.checksum) :
    (addAll format first values).checksum ≠ (addAll format second values).checksum := by
  rw [checksum_addAll, checksum_addAll]
  exact fun same => apart (foldl_mix_injective _ same)

theorem addEach_apart (buffers : List (NumberFormat × List Nat))
    (apart : first.checksum ≠ second.checksum) :
    (first.addEach buffers).checksum ≠ (second.addEach buffers).checksum := by
  induction buffers generalizing first second with
  | nil => exact apart
  | cons buffer rest ih => exact ih (addAll_apart buffer.1 buffer.2 apart)

theorem add_apart (narrow : format.byteCount ≤ 4) (held : format.Holds bits)
    (otherHeld : format.Holds other) (different : bits ≠ other) :
    (add format digest bits).checksum ≠ (add format digest other).checksum := by
  intro same
  refine different (NumberFormat.bytes_inj held otherHeld (eq_of_foldl_mix ?_ ?_ same))
  · rw [NumberFormat.length_bytes, NumberFormat.length_bytes]
  · rwa [NumberFormat.length_bytes]

end Digest

theorem Fingerprint.agrees_exact_of_apart {left right : Fingerprint}
    (apart : left.checksum ≠ right.checksum) : left.agrees right .exact = false := by
  simp [agrees, apart]

/-- A change of one number of a single, half or brain buffer changes the checksum, whatever was
folded in before and whatever follows, and the fingerprints do not agree exactly. -/
theorem Digest.change_noticed {format : NumberFormat}
    (narrow : format = .single ∨ format = .half ∨ format = .brain) {left right : List Nat}
    (held : ∀ bits ∈ left ++ right, format.Holds bits) (differ : DifferOnce left right)
    (digest : Digest) (further : List (NumberFormat × List Nat)) :
    let first := (digest.addAll format left).addEach further
    let second := (digest.addAll format right).addEach further
    first.checksum ≠ second.checksum ∧ first.finish.agrees second.finish .exact = false ∧
      second.finish.agrees first.finish .exact = false := by
  obtain ⟨front, bits, other, back, rfl, rfl, different⟩ := differ.split
  have short : format.byteCount ≤ 4 := by
    rcases narrow with rfl | rfl | rfl <;> decide
  have apart : (digest.addAll format (front ++ bits :: back)).checksum ≠
      (digest.addAll format (front ++ other :: back)).checksum := by
    simp only [addAll, List.foldl_append, List.foldl_cons]
    exact addAll_apart format back
      (add_apart short (held bits (by simp)) (held other (by simp)) different)
  have ends := addEach_apart further apart
  exact ⟨ends, Fingerprint.agrees_exact_of_apart ends, Fingerprint.agrees_exact_of_apart ends.symm⟩

/-- One and one against one and its successor in half precision, with doubles behind. -/
theorem Digest.change_noticed_unit :
    let first := (Digest.empty.addAll .half [0x3c00, 0x3c00]).addEach [(.double, [0, 1])]
    let second := (Digest.empty.addAll .half [0x3c00, 0x3c01]).addEach [(.double, [0, 1])]
    first.checksum ≠ second.checksum ∧ first.finish.agrees second.finish .exact = false ∧
      second.finish.agrees first.finish .exact = false := by
  have held : ∀ bits ∈ [0x3c00, 0x3c00] ++ [0x3c00, 0x3c01], NumberFormat.half.Holds bits := by
    unfold NumberFormat.Holds
    decide
  have differ : DifferOnce [0x3c00, 0x3c00] [0x3c00, 0x3c01] := by
    refine ⟨rfl, 1, by decide, fun index different => ?_⟩
    match index with
    | 0 => exact absurd rfl different
    | 1 => rfl
    | _ + 2 => exact absurd rfl different
  exact Digest.change_noticed (Or.inr (Or.inl rfl)) held differ .empty [(.double, [0, 1])]

end PipelineTraining
