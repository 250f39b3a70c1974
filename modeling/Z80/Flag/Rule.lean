import Z80.Flag.Update

/-!
# Flag rules

What the arithmetic and logic operations do to the flags, each rule a flag update computed from the
operands. A carry out of the low bits of a sum shows as a wrapped result that has become smaller
than the operand, a borrow as one that has become larger, so both are read off by comparing the
operand and the result under a mask: with a carry coming in, equality counts as well.
-/

namespace Z80.FlagRule

/-- The sum that began with `a` and wrapped to `result` carried out of its highest bit. -/
def carried (a result : Nat) (carryIn : Bool) : Bool :=
  if carryIn then a ≥ result else a > result

/-- The difference that began with `a` and wrapped to `result` borrowed into its highest bit. -/
def borrowed (a result : Nat) (carryIn : Bool) : Bool :=
  if carryIn then a ≤ result else a < result

/-- The flags that a result byte decides alone. -/
def resultFlags (result : Byte) : Byte :=
  result &&& (Flag.sign ||| Flag.copies) ||| Byte.maskIf Flag.zero (result == 0)

def sum (a b : Byte) (carryIn : Bool) : Byte := a + b + Byte.ofBool carryIn

def difference (a b : Byte) (carryIn : Bool) : Byte := a - b - Byte.ofBool carryIn

def sumFlags (a b : Byte) (carryIn : Bool) : Byte :=
  let result := sum a b carryIn
  resultFlags result
    ||| Byte.maskIf Flag.halfCarry
      (carried (a &&& 0x0F).toNat (result &&& 0x0F).toNat carryIn)
    ||| Byte.maskIf Flag.parity ((a ^^^ b ^^^ 0x80) &&& (b ^^^ result) &&& 0x80 != 0)
    ||| Byte.maskIf Flag.carry (carried a.toNat result.toNat carryIn)

def differenceFlags (a b : Byte) (carryIn : Bool) : Byte :=
  let result := difference a b carryIn
  resultFlags result
    ||| Flag.subtract
    ||| Byte.maskIf Flag.halfCarry
      (borrowed (a &&& 0x0F).toNat (result &&& 0x0F).toNat carryIn)
    ||| Byte.maskIf Flag.parity ((a ^^^ b) &&& (a ^^^ result) &&& 0x80 != 0)
    ||| Byte.maskIf Flag.carry (borrowed a.toNat result.toNat carryIn)

/-- Sign, zero and the two copied bits of a result. -/
def result (value : Byte) : FlagUpdate := .assign Flag.ofResult (resultFlags value)

/-- Addition of two bytes with a carry coming in. -/
def add (a b : Byte) (carryIn : Bool) : FlagUpdate := .assign Flag.all (sumFlags a b carryIn)

/-- Subtraction of `b` from `a` with a borrow coming in. -/
def sub (a b : Byte) (carryIn : Bool) : FlagUpdate :=
  .assign Flag.all (differenceFlags a b carryIn)

/-- Comparison: a subtraction whose copied bits come from the operand. -/
def compare (a b : Byte) : FlagUpdate := (sub a b false).overlay (.assign Flag.copies b)

/-- Increment: addition of one that leaves the carry. -/
def increment (operand : Byte) : FlagUpdate := .assign (~~~Flag.carry) (sumFlags operand 1 false)

/-- Decrement: subtraction of one that leaves the carry. -/
def decrement (operand : Byte) : FlagUpdate :=
  .assign (~~~Flag.carry) (differenceFlags operand 1 false)

/-- Disjunction, plain or exclusive, with the given result. -/
def disjunction (value : Byte) : FlagUpdate :=
  .assign Flag.all (resultFlags value ||| Byte.maskIf Flag.parity value.evenParity)

def conjunction (value : Byte) : FlagUpdate :=
  .assign Flag.all
    (resultFlags value ||| Flag.halfCarry ||| Byte.maskIf Flag.parity value.evenParity)

/-- Rotation of the accumulator to the given value. The carry is laid over it by the caller. -/
def rotation (value : Byte) : FlagUpdate :=
  .assign (Flag.copies ||| Flag.halfCarry ||| Flag.subtract) (value &&& Flag.copies)

def wordSum (a b : Word) (carryIn : Bool) : Word := a + b + Word.ofBool carryIn

def wordDifference (a b : Word) (carryIn : Bool) : Word := a - b - Word.ofBool carryIn

/-- The flags that a result word decides alone: the zero flag looks at all of it, the others at its
high byte. -/
def wordResultFlags (result : Word) : Byte :=
  result.high &&& (Flag.sign ||| Flag.copies) ||| Byte.maskIf Flag.zero (result == 0)

/-- Addition of two words without a carry coming in. Sign, zero and parity stay. -/
def addWord (a b : Word) : FlagUpdate :=
  let result := a + b
  .assign (Flag.copies ||| Flag.halfCarry ||| Flag.subtract ||| Flag.carry)
    (result.high &&& Flag.copies
      ||| Byte.maskIf Flag.halfCarry
        (carried (a &&& 0x0FFF).toNat (result &&& 0x0FFF).toNat false)
      ||| Byte.maskIf Flag.carry (carried a.toNat result.toNat false))

/-- Addition of two words with a carry coming in. -/
def adcWord (a b : Word) (carryIn : Bool) : FlagUpdate :=
  let result := wordSum a b carryIn
  .assign Flag.all
    (wordResultFlags result
      ||| Byte.maskIf Flag.halfCarry
        (carried (a &&& 0x0FFF).toNat (result &&& 0x0FFF).toNat carryIn)
      ||| Byte.maskIf Flag.parity ((a ^^^ b ^^^ 0x8000) &&& (b ^^^ result) &&& 0x8000 != 0)
      ||| Byte.maskIf Flag.carry (carried a.toNat result.toNat carryIn))

/-- Subtraction of `b` from `a`, words, with a borrow coming in. -/
def sbcWord (a b : Word) (carryIn : Bool) : FlagUpdate :=
  let result := wordDifference a b carryIn
  .assign Flag.all
    (wordResultFlags result
      ||| Flag.subtract
      ||| Byte.maskIf Flag.halfCarry
        (borrowed (a &&& 0x0FFF).toNat (result &&& 0x0FFF).toNat carryIn)
      ||| Byte.maskIf Flag.parity ((a ^^^ b) &&& (a ^^^ result) &&& 0x8000 != 0)
      ||| Byte.maskIf Flag.carry (borrowed a.toNat result.toNat carryIn))

end Z80.FlagRule
