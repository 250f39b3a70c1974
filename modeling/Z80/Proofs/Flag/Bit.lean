import Mathlib.Data.Nat.Bitwise
import Mathlib.Tactic.Lemma
import Z80.Flag.Rule

/-!
# Bits of the flag byte

A flag is a bit of the flag byte, and the arithmetic rules put the byte together from parts that
have their bits in different places. So each flag can be read off its part alone
(`Flag.isSet_carry_union` and the lemmas beside it). The highest bit of a byte or a word says
whether its value is in the upper half.
-/

namespace Z80

namespace Byte

variable (x y : Byte) (n : Nat)

/-- A bit of a disjunction is set where it is set in either byte. -/
@[simp] lemma bit_or : (x ||| y).bit n = (x.bit n || y.bit n) := by
  simp only [bit, UInt8.toNat_or, Nat.testBit_or]

/-- A bit of a conjunction is set where it is set in both bytes. -/
@[simp] lemma bit_and : (x &&& y).bit n = (x.bit n && y.bit n) := by
  simp only [bit, UInt8.toNat_and, Nat.testBit_and]

/-- A bit of an exclusive disjunction is set where the bytes differ. -/
@[simp] lemma bit_xor : (x ^^^ y).bit n = (x.bit n ^^ y.bit n) := by
  simp only [bit, UInt8.toNat_xor, Nat.testBit_xor]

/-- The bits of a mask show on a condition. -/
@[simp] lemma bit_maskIf (mask : Byte) (b : Bool) : (maskIf mask b).bit n = (b && mask.bit n) := by
  cases b with
  | true => rfl
  | false => exact Nat.zero_testBit n

/-- The complement has no bits past the width either. -/
lemma bit_not {n : Nat} (hn : n < 8) : (~~~x).bit n = !x.bit n := by
  show (~~~x.toBitVec).getLsbD n = !x.toBitVec.getLsbD n
  rw [BitVec.getLsbD_not, decide_eq_true hn, Bool.true_and]

/-- A byte is determined by its eight bits. -/
lemma ext_bit {x y : Byte} (h : ∀ n < 8, x.bit n = y.bit n) : x = y :=
  UInt8.toBitVec_inj.mp (BitVec.eq_of_getLsbD_eq h)

/-- A power of two has one bit. -/
lemma bit_of_toNat_eq {mask : Byte} {k : Nat} (h : mask.toNat = 2 ^ k) :
    mask.bit n = decide (k = n) := by
  rw [bit, h, Nat.testBit_two_pow]

/-- The highest bit of a byte says that it counts at least 128. -/
lemma bit_seven : x.bit 7 = decide (128 ≤ x.toNat) := by
  revert x
  exact forall_of_lt (by decide +kernel)

/-- To mask the highest bit of a byte is to look at it. -/
lemma and_highest_ne_zero : (x &&& 0x80 != 0) = x.bit 7 := by
  revert x
  exact forall_of_lt (by decide +kernel)

end Byte

namespace Word

variable (v w : Word) (n : Nat)

/-- A bit of a conjunction is set where it is set in both words. -/
@[simp] lemma bit_and : (v &&& w).bit n = (v.bit n && w.bit n) := by
  simp only [bit, UInt16.toNat_and, Nat.testBit_and]

/-- A bit of an exclusive disjunction is set where the words differ. -/
@[simp] lemma bit_xor : (v ^^^ w).bit n = (v.bit n ^^ w.bit n) := by
  simp only [bit, UInt16.toNat_xor, Nat.testBit_xor]

/-- The highest bit of a word says that it counts at least 32768. -/
lemma bit_fifteen : w.bit 15 = decide (32768 ≤ w.toNat) := by
  have hw := w.toNat_lt
  rw [bit, Nat.testBit_eq_decide_div_mod_eq]
  apply decide_eq_decide.mpr
  omega

/-- To mask the highest bit of a word is to look at it. -/
lemma and_highest_ne_zero : (w &&& 0x8000 != 0) = w.bit 15 := by
  have mask : (w &&& 0x8000).toNat = (w.bit 15).toNat * 32768 := by
    rw [UInt16.toNat_and]
    exact Nat.and_two_pow w.toNat 15
  cases hb : w.bit 15 with
  | true =>
    rw [hb] at mask
    apply bne_iff_ne.mpr
    intro clear
    rw [clear] at mask
    cases mask
  | false =>
    rw [hb] at mask
    have clear : w &&& 0x8000 = 0 := UInt16.toNat.inj mask
    rw [clear]
    rfl

/-- The highest bit of a word is that of its high byte. -/
lemma bit_seven_high : w.high.bit 7 = w.bit 15 := by
  rw [Byte.bit_seven, bit_fifteen, toNat_high]
  apply decide_eq_decide.mpr
  omega

end Word

namespace Flag

section

variable (n : Nat)

/-- The sign flag is bit 7. -/
@[simp] lemma bit_sign : sign.bit n = decide (7 = n) := Byte.bit_of_toNat_eq n rfl

/-- The zero flag is bit 6. -/
@[simp] lemma bit_zero : zero.bit n = decide (6 = n) := Byte.bit_of_toNat_eq n rfl

/-- The first flag that copies a bit of the result is bit 5. -/
@[simp] lemma bit_bit5 : bit5.bit n = decide (5 = n) := Byte.bit_of_toNat_eq n rfl

/-- The half carry flag is bit 4. -/
@[simp] lemma bit_halfCarry : halfCarry.bit n = decide (4 = n) := Byte.bit_of_toNat_eq n rfl

/-- The second flag that copies a bit of the result is bit 3. -/
@[simp] lemma bit_bit3 : bit3.bit n = decide (3 = n) := Byte.bit_of_toNat_eq n rfl

/-- The flag of parity and overflow is bit 2. -/
@[simp] lemma bit_parity : parity.bit n = decide (2 = n) := Byte.bit_of_toNat_eq n rfl

/-- The flag that tells a subtraction is bit 1. -/
@[simp] lemma bit_subtract : subtract.bit n = decide (1 = n) := Byte.bit_of_toNat_eq n rfl

/-- The carry flag is bit 0. -/
@[simp] lemma bit_carry : carry.bit n = decide (0 = n) := Byte.bit_of_toNat_eq n rfl

/-- The flags that copy bits of the result are bits 5 and 3. -/
@[simp] lemma bit_copies : copies.bit n = (decide (5 = n) || decide (3 = n)) := by
  rw [copies, Byte.bit_or, bit_bit5, bit_bit3]

end

variable (flags : Byte)

/-- A flag that is one bit is set when the bit is. -/
lemma isSet_of_toNat_eq {mask : Byte} {k : Nat} (h : mask.toNat = 2 ^ k) :
    isSet flags mask = flags.bit k := by
  have value : (flags &&& mask).toNat = (flags.bit k).toNat * 2 ^ k := by
    rw [UInt8.toNat_and, h]
    exact Nat.and_two_pow flags.toNat k
  apply Bool.eq_iff_iff.mpr
  rw [isSet, beq_iff_eq, ← UInt8.toNat_inj, value, h]
  cases flags.bit k with
  | true => exact iff_of_true (Nat.one_mul _) rfl
  | false =>
    rw [Bool.toNat_false, Nat.zero_mul]
    exact iff_of_false (Nat.two_pow_pos k).ne nofun

/-- The sign flag is read off bit 7. -/
lemma isSet_sign : isSet flags sign = flags.bit 7 := isSet_of_toNat_eq flags rfl

/-- The flag of parity and overflow is read off bit 2. -/
lemma isSet_parity : isSet flags parity = flags.bit 2 := isSet_of_toNat_eq flags rfl

/-- The carry flag is read off bit 0. -/
lemma isSet_carry : isSet flags carry = flags.bit 0 := isSet_of_toNat_eq flags rfl

variable (result : Byte) (h p c : Bool)

/-- The flags as an arithmetic rule puts them together: those of the result, half carry, overflow
and carry. -/
def union : Byte :=
  result ||| Byte.maskIf halfCarry h ||| Byte.maskIf parity p ||| Byte.maskIf carry c

/-- The flags joined to those of the result leave the sign as it is. -/
lemma isSet_sign_union : isSet (union result h p c) sign = result.bit 7 := by
  rw [isSet_sign]
  simp [union]

/-- The overflow that is joined to the flags of the result shows in them. -/
lemma isSet_parity_union : isSet (union result h p c) parity = (result.bit 2 || p) := by
  rw [isSet_parity]
  simp [union]

/-- The carry that is joined to the flags of the result shows in them. -/
lemma isSet_carry_union : isSet (union result h p c) carry = (result.bit 0 || c) := by
  rw [isSet_carry]
  simp [union]

end Flag

end Z80
