import Tapewright.Op

namespace Tapewright

/-! Signed and unsigned readings of machine words.

The operand of an op is a signed word; pointers, cell patterns and addresses are unsigned.
Everything here is about one word read both ways, or widened and cut.
-/

theorem toNat_bits {width : Nat} (bits : BitVec width) :
    (bits.toNat : Int) = bits.toInt % (1 <<< width : Nat) := by
  rw [Nat.one_shiftLeft, BitVec.toInt_eq_toNat_bmod, Int.bmod_emod]
  exact (Int.emod_eq_of_lt (Int.natCast_nonneg _) (Int.ofNat_lt.mpr bits.isLt)).symm

theorem toNat_word32 (value : Int32) : (value.toUInt32.toNat : Int) = value.toInt % 0x100000000 :=
  toNat_bits value.toBitVec

theorem toNat_word64 (value : Int64) : (value.toUInt64.toNat : Int) = value.toInt % 0x10000000000000000 :=
  toNat_bits value.toBitVec

theorem toUInt32_eq_zero {value : Int32} : value.toUInt32 = 0 ↔ value = 0 := by
  constructor
  · intro zero
    rw [← Int32.toInt32_toUInt32 value, zero]
    rfl
  · rintro rfl
    rfl

namespace Op

def shift (op : Op) : UInt64 :=
  if op.opcode.isBackward then -op.reach else op.reach

theorem toNat_reach (op : Op) : (op.reach.toNat : Int) = op.operand.toInt % 0x10000000000000000 := by
  rw [reach, toNat_word64, Int32.toInt_toInt64]

theorem toUInt32_shift (op : Op) : op.shift.toUInt32 = op.signedStep.toUInt32 := by
  have wide := op.toNat_reach
  have narrow := toNat_word32 op.operand
  have forward : op.reach.toUInt32 = op.operand.toUInt32 := by
    apply UInt32.toNat_inj.mp
    rw [UInt64.toNat_toUInt32]
    omega
  unfold shift signedStep
  split
  · rw [Int32.toUInt32_neg, ← forward, UInt64.toUInt32_neg]
  · exact forward

/-- A shift between two of the first 2^31 positions is known from its low half. -/
theorem add_shift_of_toUInt32 {op : Op} {origin target : UInt64} (low : origin.toNat < 0x80000000)
    (near : target.toNat < 0x80000000) (same : (origin + op.shift).toUInt32 = target.toUInt32) :
    origin + op.shift = target := by
  have wide := op.toNat_reach
  have lower := op.operand.le_toInt
  have upper := op.operand.toInt_lt
  have halves := congrArg UInt32.toNat same
  simp only [UInt64.toNat_toUInt32] at halves
  apply UInt64.toNat_inj.mp
  unfold shift at halves ⊢
  split at halves <;> rename_i backward <;>
    simp only [backward, Bool.false_eq_true, ↓reduceIte, UInt64.toNat_add, UInt64.toNat_neg,
      UInt64.size] at halves ⊢ <;>
    omega

end Op

theorem toNat_add_reach (pointer : UInt64) (op : Op) :
    ((pointer + op.reach).toNat : Int) = (pointer.toNat + op.operand.toInt) % 0x10000000000000000 := by
  have wide := op.toNat_reach
  rw [UInt64.toNat_add]
  omega

theorem toNat_sub_reach (pointer : UInt64) (op : Op) :
    ((pointer - op.reach).toNat : Int) = (pointer.toNat + -op.operand.toInt) % 0x10000000000000000 := by
  have wide := op.toNat_reach
  have bound := op.reach.toNat_lt
  rw [UInt64.toNat_sub]
  omega

theorem eq_of_toUInt32_eq {left right : UInt64} (leftLow : left.toNat < 0x100000000)
    (rightLow : right.toNat < 0x100000000) (same : left.toUInt32 = right.toUInt32) : left = right := by
  have halves := congrArg UInt32.toNat same
  simp only [UInt64.toNat_toUInt32] at halves
  apply UInt64.toNat_inj.mp
  omega

theorem toInt64_toInt8 {value : Int64} (low : -128 ≤ value) (high : value ≤ 127) :
    value.toInt8.toInt64 = value := by
  have lower : -128 ≤ value.toInt := Int64.le_iff_toInt_le.mp low
  have upper : value.toInt ≤ 127 := Int64.le_iff_toInt_le.mp high
  apply Int64.toInt_inj.mp
  rw [Int8.toInt_toInt64, Int64.toInt_toInt8, Int.bmod_eq_of_le (by omega) (by omega)]

theorem toInt64_toInt32 {value : Int64} (low : -2147483648 ≤ value) (high : value ≤ 2147483647) :
    value.toInt32.toInt64 = value := by
  have lower : -2147483648 ≤ value.toInt := Int64.le_iff_toInt_le.mp low
  have upper : value.toInt ≤ 2147483647 := Int64.le_iff_toInt_le.mp high
  apply Int64.toInt_inj.mp
  rw [Int32.toInt_toInt64, Int64.toInt_toInt32, Int.bmod_eq_of_le (by omega) (by omega)]

theorem toInt32_toInt8 {value : Int32} (low : -128 ≤ value) (high : value ≤ 127) :
    value.toInt8.toInt32 = value := by
  have lower : -128 ≤ value.toInt := Int32.le_iff_toInt_le.mp low
  have upper : value.toInt ≤ 127 := Int32.le_iff_toInt_le.mp high
  apply Int32.toInt_inj.mp
  rw [Int8.toInt_toInt32, Int32.toInt_toInt8, Int.bmod_eq_of_le (by omega) (by omega)]

end Tapewright
