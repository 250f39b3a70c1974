import Z80.Proofs.Flag.Exact
import Z80.Proofs.Flag.States

/-!
# Carries

The rules of addition and subtraction with carry are exact, for bytes and for words
(`FlagRule.exact_add` and the theorems beside it). A sum that wraps has become smaller than its
first operand, or, with a carry coming in, no greater; a difference that wraps has become greater,
or no smaller. This is how the rules know of the carry. The overflow they find in the highest bits
of the operands and of the result.
-/

namespace Z80

/-- An update that decides every flag leaves nothing of the flags before. -/
lemma FlagUpdate.apply_assign_all (values flags : Byte) :
    (assign Flag.all values).apply flags = values := by
  have every : Flag.all.toBitVec = BitVec.allOnes 8 := rfl
  apply UInt8.toBitVec_inj.mp
  ext i hi
  simp only [apply, assign, UInt8.toBitVec_and, UInt8.toBitVec_or, UInt8.toBitVec_not,
    BitVec.getElem_and, BitVec.getElem_or, BitVec.getElem_not, every, BitVec.getElem_allOnes]
  cases values.toBitVec[i] <;> cases flags.toBitVec[i] <;> rfl

/-- Neither operand has the sign of the result. -/
def overflowsSum (a b r : Bool) : Bool := a == b && b != r

/-- The operands have different signs, and the result has not that of the first. -/
def overflowsDifference (a b r : Bool) : Bool := a != b && a != r

namespace FlagRule

section Digit

variable {half a b r : Nat} {c h p : Bool} {flags result : Byte}

/-- The sum of two digits is regained from the digit that is left and the carry out of it. -/
lemma add_carried (hb : b < 2 * half)
    (wrapped : r = a + b + c.toNat ∨ r + 2 * half = a + b + c.toNat) :
    r + (carried a r c).toNat * (2 * half) = a + b + c.toNat := by
  -- A sum that wraps comes out below its first operand, or no higher with a carry coming in.
  unfold carried
  cases c with
  | true => by_cases h : r ≤ a <;> simp [h] at wrapped ⊢ <;> omega
  | false => by_cases h : r < a <;> simp [h] at wrapped ⊢ <;> omega

/-- The first digit is regained from the difference, the second one and the borrow. -/
lemma add_borrowed (hb : b < 2 * half)
    (wrapped : r + b + c.toNat = a ∨ r + b + c.toNat = a + 2 * half) :
    r + b + c.toNat = a + (borrowed a r c).toNat * (2 * half) := by
  -- A difference that wraps comes out above its first operand, or no lower with a borrow coming in.
  unfold borrowed
  cases c with
  | true => by_cases h : a ≤ r <;> simp [h] at wrapped ⊢ <;> omega
  | false => by_cases h : a < r <;> simp [h] at wrapped ⊢ <;> omega

/-- The flags that a result decides alone are neither carry nor overflow. -/
structure ResultOnly (result : Byte) (negative : Bool) : Prop where
  carry : result.bit 0 = false
  parity : result.bit 2 = false
  sign : result.bit 7 = negative

/-- Flags that show a result and nothing else tell its sign. -/
lemma ResultOnly.of_states {shown : Byte} {zero subtract negative : Bool}
    (only : Flag.states result = .ofResult shown zero subtract) (sign : shown.bit 7 = negative) :
    ResultOnly result negative := by
  rw [Flag.states_eq] at only
  simp only [Flag.States.ofResult, Flag.States.mk.injEq] at only
  obtain ⟨highest, -, -, -, -, parity, -, carry⟩ := only
  exact ⟨carry, parity, highest.trans sign⟩

variable (half)

/-- The flags of a sum of digits are exact if its carry is the one that was read off the digits, and
its overflow the one that was read off the signs. -/
lemma exact_sum (ha : a < 2 * half) (hb : b < 2 * half) (hr : r < 2 * half)
    (hc : Flag.isSet flags Flag.carry = c)
    (wrapped : r = a + b + c.toNat ∨ r + 2 * half = a + b + c.toNat)
    (only : ResultOnly result (decide (half ≤ r)))
    (hp : p = overflowsSum (decide (half ≤ a)) (decide (half ≤ b)) (decide (half ≤ r))) :
    Exact (2 * half) 1 a b r flags (Flag.union result h p (carried a r c)) := by
  apply Exact.of_sum ha hb hr
  · rw [Flag.carryValue, Flag.carryValue, hc, Flag.isSet_carry_union, only.carry, Bool.false_or]
    exact add_carried hb wrapped
  · rw [Flag.isSet_parity_union, only.parity, Bool.false_or]
    exact hp
  · rw [Flag.isSet_sign_union, only.sign]

/-- The flags of a difference of digits are exact if its borrow is the one that was read off the
digits, and its overflow the one that was read off the signs. -/
lemma exact_difference (ha : a < 2 * half) (hb : b < 2 * half) (hr : r < 2 * half)
    (hc : Flag.isSet flags Flag.carry = c)
    (wrapped : r + b + c.toNat = a ∨ r + b + c.toNat = a + 2 * half)
    (only : ResultOnly result (decide (half ≤ r)))
    (hp : p = overflowsDifference (decide (half ≤ a)) (decide (half ≤ b)) (decide (half ≤ r))) :
    Exact (2 * half) (-1) a b r flags (Flag.union result h p (borrowed a r c)) := by
  apply Exact.of_difference ha hb hr
  · rw [Flag.carryValue, Flag.carryValue, hc, Flag.isSet_carry_union, only.carry, Bool.false_or]
    exact add_borrowed hb wrapped
  · rw [Flag.isSet_parity_union, only.parity, Bool.false_or]
    exact hp
  · rw [Flag.isSet_sign_union, only.sign]

end Digit

section Byte

variable (a b r : Byte)

/-- The overflow of a sum of bytes is found by comparing their signs with that of the result. -/
lemma overflow_byteSum :
    ((a ^^^ b ^^^ 0x80) &&& (b ^^^ r) &&& 0x80 != 0) =
      overflowsSum (decide (128 ≤ a.toNat)) (decide (128 ≤ b.toNat)) (decide (128 ≤ r.toNat)) := by
  have highest : (0x80 : Byte).bit 7 = true := rfl
  simp only [Byte.and_highest_ne_zero, Byte.bit_and, Byte.bit_xor, highest, ← Byte.bit_seven]
  cases a.bit 7 <;> cases b.bit 7 <;> cases r.bit 7 <;> rfl

/-- The overflow of a difference of bytes is found by comparing their signs with that of the
result. -/
lemma overflow_byteDifference :
    ((a ^^^ b) &&& (a ^^^ r) &&& 0x80 != 0) =
      overflowsDifference (decide (128 ≤ a.toNat)) (decide (128 ≤ b.toNat))
        (decide (128 ≤ r.toNat)) := by
  simp only [Byte.and_highest_ne_zero, Byte.bit_and, Byte.bit_xor, ← Byte.bit_seven]
  cases a.bit 7 <;> cases b.bit 7 <;> cases r.bit 7 <;> rfl

/-- The flags of a byte that came out show it and nothing else. -/
lemma states_resultFlags : Flag.states (resultFlags r) = .ofResult r (r == 0) false :=
  Flag.states_ofResult r (r == 0)

/-- The flags of a byte that came out of a subtraction show it and the subtraction, and nothing
else. -/
lemma states_resultFlags_subtract :
    Flag.states (resultFlags r ||| Flag.subtract) = .ofResult r (r == 0) true :=
  Flag.states_or_subtract (states_resultFlags r)

/-- The flags of a byte that came out hold its sign, and neither overflow nor carry. -/
lemma resultOnly_byte : ResultOnly (resultFlags r) (decide (128 ≤ r.toNat)) :=
  .of_states (states_resultFlags r) r.bit_seven

/-- The flags of a byte that came out of a subtraction hold its sign, and neither overflow nor
carry. -/
lemma resultOnly_byteSubtract :
    ResultOnly (resultFlags r ||| Flag.subtract) (decide (128 ≤ r.toNat)) :=
  .of_states (states_resultFlags_subtract r) r.bit_seven

variable (flags : Byte) (c : Bool)

/-- A sum of bytes is the whole sum, or falls short of it by 256. -/
lemma sum_wraps :
    (sum a b c).toNat = a.toNat + b.toNat + c.toNat ∨
      (sum a b c).toNat + 2 * 128 = a.toNat + b.toNat + c.toNat := by
  have ha := a.toNat_lt
  have hb := b.toNat_lt
  cases c with
  | true =>
    rw [sum, UInt8.toNat_add, UInt8.toNat_add]
    show (_ % 256 + 1) % 256 = _ + 1 ∨ (_ % 256 + 1) % 256 + _ = _ + 1
    omega
  | false =>
    rw [sum, UInt8.toNat_add, UInt8.toNat_add]
    show (_ % 256 + 0) % 256 = _ + 0 ∨ (_ % 256 + 0) % 256 + _ = _ + 0
    omega

/-- The flags of a sum of bytes, the carry before it added, are exact. -/
theorem exact_add :
    Exact 256 1 a.toNat b.toNat (sum a b (Flag.isSet flags Flag.carry)).toNat flags
      ((add a b (Flag.isSet flags Flag.carry)).apply flags) := by
  rw [add, FlagUpdate.apply_assign_all]
  exact exact_sum 128 a.toNat_lt b.toNat_lt (UInt8.toNat_lt _) rfl (sum_wraps a b _)
    (resultOnly_byte _) (overflow_byteSum a b _)

/-- A difference of bytes is the whole difference, or exceeds it by 256. -/
lemma difference_wraps :
    (difference a b c).toNat + b.toNat + c.toNat = a.toNat ∨
      (difference a b c).toNat + b.toNat + c.toNat = a.toNat + 2 * 128 := by
  have ha := a.toNat_lt
  have hb := b.toNat_lt
  cases c with
  | true =>
    rw [difference, UInt8.toNat_sub, UInt8.toNat_sub]
    show (256 - 1 + _ % 256) % 256 + _ + 1 = _ ∨ (256 - 1 + _ % 256) % 256 + _ + 1 = _
    omega
  | false =>
    rw [difference, UInt8.toNat_sub, UInt8.toNat_sub]
    show (256 - 0 + _ % 256) % 256 + _ + 0 = _ ∨ (256 - 0 + _ % 256) % 256 + _ + 0 = _
    omega

/-- The flags of a difference of bytes, the carry before it subtracted, are exact. -/
theorem exact_sub :
    Exact 256 (-1) a.toNat b.toNat (difference a b (Flag.isSet flags Flag.carry)).toNat flags
      ((sub a b (Flag.isSet flags Flag.carry)).apply flags) := by
  rw [sub, FlagUpdate.apply_assign_all]
  exact exact_difference 128 a.toNat_lt b.toNat_lt (UInt8.toNat_lt _) rfl
    (difference_wraps a b _) (resultOnly_byteSubtract _) (overflow_byteDifference a b _)

end Byte

section Word

variable (a b r : Word)

/-- The overflow of a sum of words is found by comparing their signs with that of the result. -/
lemma overflow_wordSum :
    ((a ^^^ b ^^^ 0x8000) &&& (b ^^^ r) &&& 0x8000 != 0) =
      overflowsSum (decide (32768 ≤ a.toNat)) (decide (32768 ≤ b.toNat))
        (decide (32768 ≤ r.toNat)) := by
  have highest : (0x8000 : Word).bit 15 = true := rfl
  simp only [Word.and_highest_ne_zero, Word.bit_and, Word.bit_xor, highest, ← Word.bit_fifteen]
  cases a.bit 15 <;> cases b.bit 15 <;> cases r.bit 15 <;> rfl

/-- The overflow of a difference of words is found by comparing their signs with that of the
result. -/
lemma overflow_wordDifference :
    ((a ^^^ b) &&& (a ^^^ r) &&& 0x8000 != 0) =
      overflowsDifference (decide (32768 ≤ a.toNat)) (decide (32768 ≤ b.toNat))
        (decide (32768 ≤ r.toNat)) := by
  simp only [Word.and_highest_ne_zero, Word.bit_and, Word.bit_xor, ← Word.bit_fifteen]
  cases a.bit 15 <;> cases b.bit 15 <;> cases r.bit 15 <;> rfl

/-- The flags of a word that came out show its high byte, and whether all of it is zero. -/
lemma states_wordResultFlags :
    Flag.states (wordResultFlags r) = .ofResult r.high (r == 0) false :=
  Flag.states_ofResult r.high (r == 0)

/-- The flags of a word that came out of a subtraction show its high byte, whether all of it is
zero, and the subtraction. -/
lemma states_wordResultFlags_subtract :
    Flag.states (wordResultFlags r ||| Flag.subtract) = .ofResult r.high (r == 0) true :=
  Flag.states_or_subtract (states_wordResultFlags r)

/-- The sign of a word is that of its high byte. -/
lemma sign_shown : r.high.bit 7 = decide (32768 ≤ r.toNat) :=
  (Word.bit_seven_high r).trans (Word.bit_fifteen r)

/-- The flags of a word that came out hold its sign, and neither overflow nor carry. -/
lemma resultOnly_word : ResultOnly (wordResultFlags r) (decide (32768 ≤ r.toNat)) :=
  .of_states (states_wordResultFlags r) (sign_shown r)

/-- The flags of a word that came out of a subtraction hold its sign, and neither overflow nor
carry. -/
lemma resultOnly_wordSubtract :
    ResultOnly (wordResultFlags r ||| Flag.subtract) (decide (32768 ≤ r.toNat)) :=
  .of_states (states_wordResultFlags_subtract r) (sign_shown r)

variable (flags : Byte) (c : Bool)

/-- A sum of words is the whole sum, or falls short of it by 65536. -/
lemma wordSum_wraps :
    (wordSum a b c).toNat = a.toNat + b.toNat + c.toNat ∨
      (wordSum a b c).toNat + 2 * 32768 = a.toNat + b.toNat + c.toNat := by
  have ha := a.toNat_lt
  have hb := b.toNat_lt
  cases c with
  | true =>
    rw [wordSum, UInt16.toNat_add, UInt16.toNat_add]
    show (_ % 65536 + 1) % 65536 = _ + 1 ∨ (_ % 65536 + 1) % 65536 + _ = _ + 1
    omega
  | false =>
    rw [wordSum, UInt16.toNat_add, UInt16.toNat_add]
    show (_ % 65536 + 0) % 65536 = _ + 0 ∨ (_ % 65536 + 0) % 65536 + _ = _ + 0
    omega

/-- A difference of words is the whole difference, or exceeds it by 65536. -/
lemma wordDifference_wraps :
    (wordDifference a b c).toNat + b.toNat + c.toNat = a.toNat ∨
      (wordDifference a b c).toNat + b.toNat + c.toNat = a.toNat + 2 * 32768 := by
  have ha := a.toNat_lt
  have hb := b.toNat_lt
  cases c with
  | true =>
    rw [wordDifference, UInt16.toNat_sub, UInt16.toNat_sub]
    show (65536 - 1 + _ % 65536) % 65536 + _ + 1 = _ ∨ (65536 - 1 + _ % 65536) % 65536 + _ + 1 = _
    omega
  | false =>
    rw [wordDifference, UInt16.toNat_sub, UInt16.toNat_sub]
    show (65536 - 0 + _ % 65536) % 65536 + _ + 0 = _ ∨ (65536 - 0 + _ % 65536) % 65536 + _ + 0 = _
    omega

/-- The flags of a sum of words, the carry before it added, are exact. -/
theorem exact_adcWord :
    Exact 65536 1 a.toNat b.toNat (wordSum a b (Flag.isSet flags Flag.carry)).toNat flags
      ((adcWord a b (Flag.isSet flags Flag.carry)).apply flags) := by
  rw [adcWord, FlagUpdate.apply_assign_all]
  exact exact_sum 32768 a.toNat_lt b.toNat_lt (UInt16.toNat_lt _) rfl
    (wordSum_wraps a b _) (resultOnly_word _) (overflow_wordSum a b _)

/-- The flags of a difference of words, the carry before it subtracted, are exact. -/
theorem exact_sbcWord :
    Exact 65536 (-1) a.toNat b.toNat (wordDifference a b (Flag.isSet flags Flag.carry)).toNat flags
      ((sbcWord a b (Flag.isSet flags Flag.carry)).apply flags) := by
  rw [sbcWord, FlagUpdate.apply_assign_all]
  exact exact_difference 32768 a.toNat_lt b.toNat_lt (UInt16.toNat_lt _) rfl
    (wordDifference_wraps a b _) (resultOnly_wordSubtract _) (overflow_wordDifference a b _)

end Word

end FlagRule

end Z80
