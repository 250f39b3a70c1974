import Z80.Proofs.Flag.Bit

/-!
# The flags one by one

A flag byte is known by its eight flags (`Flag.states`). Where an update decides some of the flags, the
others stay (`Flag.states_assign`), and a byte that is put together from parts has the flags of its
parts (`Flag.states_union`).
-/

namespace Z80

namespace Flag

/-- The flags one by one. -/
structure States where
  sign : Bool
  zero : Bool
  bit5 : Bool
  halfCarry : Bool
  bit3 : Bool
  parity : Bool
  subtract : Bool
  carry : Bool
  deriving DecidableEq, Repr

/-- The eight flags of a byte, each by its name. -/
def states (flags : Byte) : States where
  sign := isSet flags sign
  zero := isSet flags zero
  bit5 := isSet flags bit5
  halfCarry := isSet flags halfCarry
  bit3 := isSet flags bit3
  parity := isSet flags parity
  subtract := isSet flags subtract
  carry := isSet flags carry

namespace States

/-- The flags that a result decides alone. The byte that is shown is the result, or the high byte of
a result that is a word. -/
def ofResult (shown : Byte) (zero subtract : Bool) : States where
  sign := shown.bit 7
  zero
  bit5 := shown.bit 5
  halfCarry := false
  bit3 := shown.bit 3
  parity := false
  subtract
  carry := false

/-- The flags of the mask as in `values`, the others as in `flags`. -/
def choose (mask values flags : States) : States where
  sign := bif mask.sign then values.sign else flags.sign
  zero := bif mask.zero then values.zero else flags.zero
  bit5 := bif mask.bit5 then values.bit5 else flags.bit5
  halfCarry := bif mask.halfCarry then values.halfCarry else flags.halfCarry
  bit3 := bif mask.bit3 then values.bit3 else flags.bit3
  parity := bif mask.parity then values.parity else flags.parity
  subtract := bif mask.subtract then values.subtract else flags.subtract
  carry := bif mask.carry then values.carry else flags.carry

end States

variable (flags values mask : Byte)

/-- Each flag is read off its own bit. -/
lemma states_eq :
    states flags = ⟨flags.bit 7, flags.bit 6, flags.bit 5, flags.bit 4, flags.bit 3, flags.bit 2,
      flags.bit 1, flags.bit 0⟩ := by
  unfold states
  congr 1 <;> exact isSet_of_toNat_eq flags rfl

/-- An update takes the bits of its mask from its values, and leaves the others. -/
lemma bit_assign {n : Nat} (hn : n < 8) :
    ((FlagUpdate.assign mask values).apply flags).bit n =
      bif mask.bit n then values.bit n else flags.bit n := by
  simp only [FlagUpdate.apply, FlagUpdate.assign, Byte.bit_and, Byte.bit_or, Byte.bit_not _ hn]
  cases mask.bit n <;> cases values.bit n <;> cases flags.bit n <;> rfl

/-- An update that assigns flags decides those of its mask. -/
lemma states_assign :
    states ((FlagUpdate.assign mask values).apply flags) =
      (states mask).choose (states values) (states flags) := by
  simp only [states_eq, States.choose]
  congr 1 <;> exact bit_assign flags values mask (by decide)

/-- An update of all flags does not look at what they were. -/
lemma states_assign_all : states ((FlagUpdate.assign all values).apply flags) = states values := by
  have decided : states all = ⟨true, true, true, true, true, true, true, true⟩ := by decide
  rw [states_assign, decided]
  rfl

/-- An update of all flags but the carry leaves the carry as it was. -/
lemma states_assign_allButCarry :
    states ((FlagUpdate.assign (~~~carry) values).apply flags) =
      { states values with carry := (states flags).carry } := by
  have decided : states (~~~carry) = ⟨true, true, true, true, true, true, true, false⟩ := by decide
  rw [states_assign, decided]
  rfl

/-- An update of bits 5 and 3 leaves the other flags as they were. -/
lemma states_assign_copies :
    states ((FlagUpdate.assign copies values).apply flags) =
      { states flags with bit5 := values.bit 5, bit3 := values.bit 3 } := by
  have decided : states copies = ⟨false, false, true, false, true, false, false, false⟩ := by decide
  rw [states_assign, decided, states_eq values]
  rfl

/-- An update as after the addition of words leaves sign, zero and overflow as they were. -/
lemma states_assign_wordSum :
    states ((FlagUpdate.assign (copies ||| halfCarry ||| subtract ||| carry) values).apply flags) =
      { states values with
        sign := (states flags).sign
        zero := (states flags).zero
        parity := (states flags).parity } := by
  have decided : states (copies ||| halfCarry ||| subtract ||| carry) =
      ⟨false, false, true, true, true, false, true, true⟩ := by decide
  rw [states_assign, decided]
  rfl

/-- An update of the carry leaves the other flags as they were. -/
lemma states_flag_carry (out : Bool) :
    states ((FlagUpdate.flag carry out).apply flags) = { states flags with carry := out } := by
  have spared : ∀ n < 8, (~~~carry).bit n = !decide (0 = n) := by
    intro n hn
    rw [Byte.bit_not carry hn, bit_carry]
  cases out <;>
    simp [states_eq, FlagUpdate.flag, FlagUpdate.sets, FlagUpdate.clears, FlagUpdate.apply, spared]

/-- The flags that a rule takes from the byte that is shown, and the zero flag. -/
lemma states_ofResult (shown : Byte) (z : Bool) :
    states (shown &&& (sign ||| copies) ||| Byte.maskIf zero z) = .ofResult shown z false := by
  simp [states_eq, States.ofResult]

variable {shown : Byte} {z n h p c : Bool} {result : Byte}

/-- The subtraction is joined to the flags of a result. -/
lemma states_or_subtract (only : states result = .ofResult shown z false) :
    states (result ||| subtract) = .ofResult shown z true := by
  simp only [states_eq, States.ofResult, States.mk.injEq] at only
  simp [states_eq, States.ofResult, only]

/-- Half carry, overflow and carry are joined to the flags of a result. -/
lemma states_union (only : states result = .ofResult shown z n) :
    states (union result h p c) =
      { States.ofResult shown z n with halfCarry := h, parity := p, carry := c } := by
  simp only [states_eq, States.ofResult, States.mk.injEq] at only
  simp [states_eq, States.ofResult, union, only]

/-- The flags of an addition that leaves sign, zero and parity to those before. -/
lemma states_copies_union (shown : Byte) :
    states (shown &&& copies ||| Byte.maskIf halfCarry h ||| Byte.maskIf carry c) =
      ⟨false, false, shown.bit 5, h, shown.bit 3, false, false, c⟩ := by
  simp [states_eq]

end Flag

end Z80
