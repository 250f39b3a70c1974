import Z80.Proofs.Flag.Carry

/-!
# What the flag rules come to

What each flag means after an operation on numbers. A carry says that a sum has reached the modulus,
a borrow that more was to be taken away than there was; the half carry says the same of the low
digits, and the overflow that the signed result does not fit (`Flag.States.ofSum`,
`Flag.States.ofDifference`). The rules compare wrapped numbers under masks and come to these flags
for all operands, bytes and words (`FlagRule.states_add` and the lemmas beside it).
-/

namespace Z80

instance Representable.decidable (modulus : Nat) (x : Int) : Decidable (Representable modulus x) :=
  inferInstanceAs (Decidable (_ ∧ _))

namespace Flag.States

/-- The flags after the sum of two numbers and a carry. The half carry comes out of the digits below
`low`. -/
def ofSum (low modulus a b c : Nat) (shown : Byte) (zero : Bool) : States :=
  { ofResult shown zero false with
    halfCarry := decide (low ≤ a % low + b % low + c)
    parity := decide (¬ Representable modulus ((a : Int).bmod modulus + (b : Int).bmod modulus + c))
    carry := decide (modulus ≤ a + b + c) }

/-- The flags after a number less another and less a borrow. -/
def ofDifference (low modulus a b c : Nat) (shown : Byte) (zero : Bool) : States :=
  { ofResult shown zero true with
    halfCarry := decide (a % low < b % low + c)
    parity := decide (¬ Representable modulus ((a : Int).bmod modulus - (b : Int).bmod modulus - c))
    carry := decide (a < b + c) }

/-- The flags after a bitwise operation. -/
def ofLogic (result : Byte) (halfCarry : Bool) : States :=
  { ofResult result (result == 0) false with halfCarry, parity := result.evenParity }

end Flag.States

/-- The sum of two bytes and a carry, and the flags after it. -/
def Byte.sumOutcome (a b : Byte) (c : Bool) : Byte × Flag.States :=
  let result := UInt8.ofNat (a.toNat + b.toNat + c.toNat)
  (result, .ofSum 16 256 a.toNat b.toNat c.toNat result (result == 0))

/-- A byte less another and less a borrow, and the flags after it. -/
def Byte.differenceOutcome (a b : Byte) (c : Bool) : Byte × Flag.States :=
  let result := UInt8.ofInt (a.toNat - b.toNat - c.toNat)
  (result, .ofDifference 16 256 a.toNat b.toNat c.toNat result (result == 0))

/-- The sum of two words and a carry, and the flags after it. -/
def Word.sumOutcome (a b : Word) (c : Bool) : Word × Flag.States :=
  let result : Word := UInt16.ofNat (a.toNat + b.toNat + c.toNat)
  (result, .ofSum 4096 65536 a.toNat b.toNat c.toNat result.high (result == 0))

/-- A word less another and less a borrow, and the flags after it. -/
def Word.differenceOutcome (a b : Word) (c : Bool) : Word × Flag.States :=
  let result : Word := UInt16.ofInt (a.toNat - b.toNat - c.toNat)
  (result, .ofDifference 4096 65536 a.toNat b.toNat c.toNat result.high (result == 0))

namespace FlagRule

section Digit

variable {a b r : Nat} {c p zero : Bool} {result shown : Byte}

/-- The carry that is read off the digits is set exactly where the whole sum does not fit. -/
lemma carried_eq (half : Nat) (hb : b < 2 * half) (hr : r < 2 * half)
    (wrapped : r = a + b + c.toNat ∨ r + 2 * half = a + b + c.toNat) :
    carried a r c = decide (2 * half ≤ a + b + c.toNat) := by
  have value := add_carried hb wrapped
  cases hc : carried a r c with
  | true =>
    rw [hc, Bool.toNat_true, Nat.one_mul] at value
    exact (decide_eq_true (by omega)).symm
  | false =>
    rw [hc, Bool.toNat_false, Nat.zero_mul] at value
    exact (decide_eq_false (by omega)).symm

/-- The borrow that is read off the digits is set exactly where more is taken away than there is. -/
lemma borrowed_eq (half : Nat) (hb : b < 2 * half) (hr : r < 2 * half)
    (wrapped : r + b + c.toNat = a ∨ r + b + c.toNat = a + 2 * half) :
    borrowed a r c = decide (a < b + c.toNat) := by
  have value := add_borrowed hb wrapped
  cases hc : borrowed a r c with
  | true =>
    rw [hc, Bool.toNat_true, Nat.one_mul] at value
    exact (decide_eq_true (by omega)).symm
  | false =>
    rw [hc, Bool.toNat_false, Nat.zero_mul] at value
    exact (decide_eq_false (by omega)).symm

/-- A byte that has the carry for its only flag. -/
lemma isSet_ofBool (c : Bool) : Flag.isSet (Byte.ofBool c) Flag.carry = c := by
  cases c <;> rfl

/-- The flags of a sum that has wrapped to `r`, when the overflow is found in the highest bits. -/
lemma states_sum {low : Nat} (some : 0 < low) (half : Nat) (ha : a < 2 * half)
    (hb : b < 2 * half) (hr : r < 2 * half)
    (wrapped : r = a + b + c.toNat ∨ r + 2 * half = a + b + c.toNat)
    (wrappedLow : r % (2 * low) = a % (2 * low) + b % (2 * low) + c.toNat ∨
      r % (2 * low) + 2 * low = a % (2 * low) + b % (2 * low) + c.toNat)
    (only : Flag.states result = .ofResult shown zero false)
    (sign : shown.bit 7 = decide (half ≤ r))
    (hp : p = overflowsSum (decide (half ≤ a)) (decide (half ≤ b)) (decide (half ≤ r))) :
    Flag.states (Flag.union result (carried (a % (2 * low)) (r % (2 * low)) c) p (carried a r c)) =
      .ofSum (2 * low) (2 * half) a b c.toNat shown zero := by
  have result' := ResultOnly.of_states only sign
  have overflow := (exact_sum (h := false) half ha hb hr (isSet_ofBool c) wrapped result' hp).overflow
  rw [Flag.isSet_parity_union, result'.parity, Bool.false_or, one_mul, Flag.carryValue,
    isSet_ofBool, ← add_assoc] at overflow
  have hp' : p = decide (¬ Representable (2 * half)
      ((a : Int).bmod (2 * half) + (b : Int).bmod (2 * half) + c.toNat)) :=
    Bool.eq_iff_iff.mpr (overflow.trans decide_eq_true_iff.symm)
  have fine : 0 < 2 * low := Nat.mul_pos Nat.two_pos some
  rw [Flag.states_union only, carried_eq half hb hr wrapped,
    carried_eq low (Nat.mod_lt b fine) (Nat.mod_lt r fine) wrappedLow, hp']
  rfl

/-- The flags of a difference that has wrapped to `r`, when the overflow is found in the highest
bits. -/
lemma states_difference {low : Nat} (some : 0 < low) (half : Nat) (ha : a < 2 * half)
    (hb : b < 2 * half) (hr : r < 2 * half)
    (wrapped : r + b + c.toNat = a ∨ r + b + c.toNat = a + 2 * half)
    (wrappedLow : r % (2 * low) + b % (2 * low) + c.toNat = a % (2 * low) ∨
      r % (2 * low) + b % (2 * low) + c.toNat = a % (2 * low) + 2 * low)
    (only : Flag.states result = .ofResult shown zero true)
    (sign : shown.bit 7 = decide (half ≤ r))
    (hp : p = overflowsDifference (decide (half ≤ a)) (decide (half ≤ b)) (decide (half ≤ r))) :
    Flag.states (Flag.union result (borrowed (a % (2 * low)) (r % (2 * low)) c) p
        (borrowed a r c)) =
      .ofDifference (2 * low) (2 * half) a b c.toNat shown zero := by
  have result' := ResultOnly.of_states only sign
  have overflow :=
    (exact_difference (h := false) half ha hb hr (isSet_ofBool c) wrapped result' hp).overflow
  rw [Flag.isSet_parity_union, result'.parity, Bool.false_or, neg_one_mul, Flag.carryValue,
    isSet_ofBool, ← sub_eq_add_neg, ← sub_sub] at overflow
  have hp' : p = decide (¬ Representable (2 * half)
      ((a : Int).bmod (2 * half) - (b : Int).bmod (2 * half) - c.toNat)) :=
    Bool.eq_iff_iff.mpr (overflow.trans decide_eq_true_iff.symm)
  have fine : 0 < 2 * low := Nat.mul_pos Nat.two_pos some
  rw [Flag.states_union only, borrowed_eq half hb hr wrapped,
    borrowed_eq low (Nat.mod_lt b fine) (Nat.mod_lt r fine) wrappedLow, hp']
  rfl

/-- Sign and overflow together compare what the numbers stand for in two's complement. -/
lemma sign_xor_parity {half : Nat} (low : Nat) (ha : a < 2 * half) (hb : b < 2 * half)
    (hr : r < 2 * half) (wrapped : r + b = a ∨ r + b = a + 2 * half)
    (sign : shown.bit 7 = decide (half ≤ r)) :
    ((Flag.States.ofDifference low (2 * half) a b 0 shown zero).sign ^^
        (Flag.States.ofDifference low (2 * half) a b 0 shown zero).parity) =
      decide ((a : Int).bmod (2 * half) < (b : Int).bmod (2 * half)) := by
  show (shown.bit 7 ^^ decide (¬ Representable _ _)) = _
  apply Bool.eq_iff_iff.mpr
  rw [sign, Bool.xor_iff_ne, ne_eq, decide_eq_decide, decide_eq_true_iff, bmod_of_lt ha,
    bmod_of_lt hb]
  unfold Representable
  split <;> split <;> omega

end Digit

section Byte

variable (a b r : Byte) (c : Bool) (flags : Byte)

/-- The low digit of a byte counts what the byte leaves over sixteens. -/
lemma toNat_and_fifteen : (a &&& 0x0F).toNat = a.toNat % (2 * 8) := by
  rw [UInt8.toNat_and]
  exact Nat.and_two_pow_sub_one_eq_mod a.toNat 4

/-- A sum of bytes comes out as the whole sum, cut to eight bits. -/
lemma sum_eq : sum a b c = (Byte.sumOutcome a b c).1 := by
  have wrapped := sum_wraps a b c
  have hr := (sum a b c).toNat_lt
  apply UInt8.toNat.inj
  show _ = (UInt8.ofNat (a.toNat + b.toNat + c.toNat)).toNat
  rw [UInt8.toNat_ofNat']
  omega

/-- A difference of bytes comes out as the whole difference, cut to eight bits. -/
lemma difference_eq : difference a b c = (Byte.differenceOutcome a b c).1 := by
  have wrapped := difference_wraps a b c
  have hr := (difference a b c).toNat_lt
  apply UInt8.toNat.inj
  show _ = (UInt8.ofInt (a.toNat - b.toNat - c.toNat)).toNat
  rw [UInt8.ofInt, UInt8.toNat_ofNat']
  omega

/-- The flags of a sum of bytes are those that its outcome says. -/
lemma states_sumFlags : Flag.states (sumFlags a b c) = (Byte.sumOutcome a b c).2 := by
  have wrapped := sum_wraps a b c
  have hc := c.toNat_le
  have flags := states_sum (by decide : 0 < 8) 128 a.toNat_lt b.toNat_lt (sum a b c).toNat_lt
    wrapped (by omega) (states_resultFlags _) (Byte.bit_seven _) (overflow_byteSum a b _)
  rw [← toNat_and_fifteen, ← toNat_and_fifteen, sum_eq] at flags
  unfold sumFlags
  rw [sum_eq]
  exact flags

/-- The flags of a difference of bytes are those that its outcome says. -/
lemma states_differenceFlags :
    Flag.states (differenceFlags a b c) = (Byte.differenceOutcome a b c).2 := by
  have wrapped := difference_wraps a b c
  have hc := c.toNat_le
  have flags := states_difference (by decide : 0 < 8) 128 a.toNat_lt b.toNat_lt
    (difference a b c).toNat_lt wrapped (by omega) (states_resultFlags_subtract _)
    (Byte.bit_seven _) (overflow_byteDifference a b _)
  rw [← toNat_and_fifteen, ← toNat_and_fifteen, difference_eq] at flags
  unfold differenceFlags
  rw [difference_eq]
  exact flags

/-- After an addition of bytes the flags are those of the sum, whatever they were. -/
lemma states_add : Flag.states ((add a b c).apply flags) = (Byte.sumOutcome a b c).2 := by
  rw [add, Flag.states_assign_all, states_sumFlags]

/-- After a subtraction of bytes the flags are those of the difference, whatever they were. -/
lemma states_sub : Flag.states ((sub a b c).apply flags) = (Byte.differenceOutcome a b c).2 := by
  rw [sub, Flag.states_assign_all, states_differenceFlags]

/-- After a comparison the flags are those of the difference, but bits 5 and 3 are those of the
operand. -/
lemma states_compare :
    Flag.states ((compare a b).apply flags) =
      { (Byte.differenceOutcome a b false).2 with bit5 := b.bit 5, bit3 := b.bit 3 } := by
  rw [compare, FlagUpdate.apply_overlay, Flag.states_assign_copies, states_sub]

/-- After an increment the flags are those of adding one, but the carry stays as it was. -/
lemma states_increment :
    Flag.states ((increment a).apply flags) =
      { (Byte.sumOutcome a 1 false).2 with carry := Flag.isSet flags Flag.carry } := by
  rw [increment, Flag.states_assign_allButCarry, states_sumFlags]
  rfl

/-- After a decrement the flags are those of taking away one, but the carry stays as it was. -/
lemma states_decrement :
    Flag.states ((decrement a).apply flags) =
      { (Byte.differenceOutcome a 1 false).2 with carry := Flag.isSet flags Flag.carry } := by
  rw [decrement, Flag.states_assign_allButCarry, states_differenceFlags]
  rfl

/-- After a conjunction the flags are those of a logical result, with the half carry set. -/
lemma states_conjunction :
    Flag.states ((conjunction r).apply flags) = .ofLogic r true := by
  have parts : Flag.union (resultFlags r) true r.evenParity false =
      resultFlags r ||| Flag.halfCarry ||| Byte.maskIf Flag.parity r.evenParity := UInt8.or_zero
  rw [conjunction, Flag.states_assign_all, ← parts]
  exact Flag.states_union (states_resultFlags r)

/-- After a disjunction the flags are those of a logical result, with the half carry clear. -/
lemma states_disjunction :
    Flag.states ((disjunction r).apply flags) = .ofLogic r false := by
  have parts : Flag.union (resultFlags r) false r.evenParity false =
      resultFlags r ||| Byte.maskIf Flag.parity r.evenParity := by
    show resultFlags r ||| 0 ||| Byte.maskIf Flag.parity r.evenParity ||| 0 = _
    rw [UInt8.or_zero, UInt8.or_zero]
  rw [disjunction, Flag.states_assign_all, ← parts]
  exact Flag.states_union (states_resultFlags r)

end Byte

section Word

variable (a b r : Word) (c : Bool) (flags : Byte)

/-- The three low digits of a word count what the word leaves over multiples of 4096. -/
lemma toNat_and_lowDigits : (a &&& 0x0FFF).toNat = a.toNat % (2 * 2048) := by
  rw [UInt16.toNat_and]
  exact Nat.and_two_pow_sub_one_eq_mod a.toNat 12

/-- A sum of words comes out as the whole sum, cut to sixteen bits. -/
lemma wordSum_eq : wordSum a b c = (Word.sumOutcome a b c).1 := by
  have wrapped := wordSum_wraps a b c
  have hr := (wordSum a b c).toNat_lt
  apply UInt16.toNat.inj
  show _ = (UInt16.ofNat (a.toNat + b.toNat + c.toNat)).toNat
  rw [UInt16.toNat_ofNat']
  omega

/-- A difference of words comes out as the whole difference, cut to sixteen bits. -/
lemma wordDifference_eq : wordDifference a b c = (Word.differenceOutcome a b c).1 := by
  have wrapped := wordDifference_wraps a b c
  have hr := (wordDifference a b c).toNat_lt
  apply UInt16.toNat.inj
  show _ = (UInt16.ofInt (a.toNat - b.toNat - c.toNat)).toNat
  rw [UInt16.ofInt, UInt16.toNat_ofNat']
  omega

/-- After an addition of words with the carry the flags are those of the sum, whatever they were. -/
lemma states_adcWord :
    Flag.states ((adcWord a b c).apply flags) = (Word.sumOutcome a b c).2 := by
  have wrapped := wordSum_wraps a b c
  have hc := c.toNat_le
  have states := states_sum (by decide : 0 < 2048) 32768 a.toNat_lt b.toNat_lt
    (wordSum a b c).toNat_lt wrapped (by omega) (states_wordResultFlags _) (sign_shown _)
    (overflow_wordSum a b _)
  rw [← toNat_and_lowDigits, ← toNat_and_lowDigits, wordSum_eq] at states
  rw [adcWord, Flag.states_assign_all, wordSum_eq]
  exact states

/-- After a subtraction of words with the carry the flags are those of the difference, whatever they
were. -/
lemma states_sbcWord :
    Flag.states ((sbcWord a b c).apply flags) = (Word.differenceOutcome a b c).2 := by
  have wrapped := wordDifference_wraps a b c
  have hc := c.toNat_le
  have states := states_difference (by decide : 0 < 2048) 32768 a.toNat_lt b.toNat_lt
    (wordDifference a b c).toNat_lt wrapped (by omega) (states_wordResultFlags_subtract _)
    (sign_shown _) (overflow_wordDifference a b _)
  rw [← toNat_and_lowDigits, ← toNat_and_lowDigits, wordDifference_eq] at states
  rw [sbcWord, Flag.states_assign_all, wordDifference_eq]
  exact states

/-- After an addition of words without the carry the flags are those of the sum, but sign, zero and
overflow stay as they were. -/
lemma states_addWord :
    Flag.states ((addWord a b).apply flags) =
      { (Word.sumOutcome a b false).2 with
        sign := Flag.isSet flags Flag.sign
        zero := Flag.isSet flags Flag.zero
        parity := Flag.isSet flags Flag.parity } := by
  have plain : a + b = wordSum a b false := (UInt16.add_zero (a + b)).symm
  have wrapped := wordSum_wraps a b false
  have hc := false.toNat_le
  have carry := carried_eq 32768 b.toNat_lt (wordSum a b false).toNat_lt wrapped
  have halfCarry : carried (a.toNat % (2 * 2048)) ((wordSum a b false).toNat % (2 * 2048)) false =
      decide (2 * 2048 ≤ a.toNat % (2 * 2048) + b.toNat % (2 * 2048) + false.toNat) := by
    apply carried_eq 2048 <;> omega
  rw [addWord, Flag.states_assign_wordSum, Flag.states_copies_union, plain, toNat_and_lowDigits,
    toNat_and_lowDigits, carry, halfCarry, wordSum_eq]
  rfl

/-- After a difference without a borrow the flags compare the words: the zero flag tells whether
they are equal, the carry compares them as they are, and sign and overflow compare what they stand
for in two's complement. -/
lemma differenceOutcome_compares :
    (Word.differenceOutcome a b false).2.zero = decide (a = b) ∧
      (Word.differenceOutcome a b false).2.carry = decide (a.toNat < b.toNat) ∧
      ((Word.differenceOutcome a b false).2.sign ^^ (Word.differenceOutcome a b false).2.parity) =
        decide ((a.toNat : Int).bmod 65536 < (b.toNat : Int).bmod 65536) := by
  have ha := a.toNat_lt
  have hb := b.toNat_lt
  have wrapped := wordDifference_wraps a b false
  have hr := (wordDifference a b false).toNat_lt
  rw [wordDifference_eq, Bool.toNat_false, Nat.add_zero] at wrapped
  rw [wordDifference_eq] at hr
  refine ⟨?_, rfl, ?_⟩
  · show ((Word.differenceOutcome a b false).1 == 0) = _
    apply Bool.eq_iff_iff.mpr
    rw [beq_iff_eq, decide_eq_true_iff, ← UInt16.toNat_inj, ← UInt16.toNat_inj, UInt16.toNat_zero]
    omega
  · have outcome : (Word.differenceOutcome a b false).2 =
        .ofDifference 4096 (2 * 32768) a.toNat b.toNat 0 (Word.differenceOutcome a b false).1.high
          ((Word.differenceOutcome a b false).1 == 0) := rfl
    rw [outcome]
    exact sign_xor_parity 4096 ha hb hr wrapped (sign_shown _)

end Word

/-- A rotation to a byte keeps sign, zero and parity, clears half carry and subtraction, and copies two
bits of the byte. The carry is the bit that leaves. -/
lemma states_rotation (value flags : Byte) (out : Bool) :
    Flag.states (((rotation value).overlay (.flag Flag.carry out)).apply flags) =
      { Flag.states flags with
        bit5 := value.bit 5
        halfCarry := false
        bit3 := value.bit 3
        subtract := false
        carry := out } := by
  have decided : Flag.states (Flag.copies ||| Flag.halfCarry ||| Flag.subtract) =
      ⟨false, false, true, true, true, false, true, false⟩ := by decide
  rw [FlagUpdate.apply_overlay, Flag.states_flag_carry, rotation, Flag.states_assign, decided]
  simp [Flag.states_eq, Flag.States.choose]

end FlagRule

end Z80
