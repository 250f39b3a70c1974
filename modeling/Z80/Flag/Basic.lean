import Z80.Word

/-!
# The flag byte

The eight bits of register F, from the highest to the lowest: sign, zero, bit 5 of the result, half
carry, bit 3 of the result, parity or overflow, subtract, carry. A flag is named by its mask, so
several flags at once are named by the union of their masks.

A branch condition tests one flag, each flag in both senses.
-/

namespace Z80

namespace Flag

/-- Copy of bit 7 of the result. -/
def sign : Byte := 0x80

/-- The result is zero. -/
def zero : Byte := 0x40

/-- Copy of bit 5 of the result. -/
def bit5 : Byte := 0x20

/-- A carry or borrow crossed from bit 3 to bit 4, in word arithmetic from bit 11 to bit 12. -/
def halfCarry : Byte := 0x10

/-- Copy of bit 3 of the result. -/
def bit3 : Byte := 0x08

/-- Even parity of a logical result, or signed overflow of an arithmetic one. -/
def parity : Byte := 0x04

/-- The last operation was a subtraction. -/
def subtract : Byte := 0x02

/-- A carry or borrow left the highest bit. -/
def carry : Byte := 0x01

/-- The two flags that copy bits of a result without a meaning of their own. -/
def copies : Byte := bit5 ||| bit3

/-- The flags that the result byte alone decides. -/
def ofResult : Byte := sign ||| zero ||| copies

def all : Byte := 0xFF

/-- Every flag of the mask is set. -/
def isSet (flags mask : Byte) : Bool := flags &&& mask == mask

end Flag

/-- What a conditional jump, call or return asks of the flags. -/
inductive Condition where
  | nonZero
  | zero
  | noCarry
  | carry
  | parityOdd
  | parityEven
  | positive
  | negative
  deriving DecidableEq, Repr

namespace Condition

/-- The conditions by the value of their opcode field. -/
def table : List Condition :=
  [nonZero, zero, noCarry, carry, parityOdd, parityEven, positive, negative]

/-- The condition of a three-bit opcode field. -/
def ofField? (field : Nat) : Option Condition := table[field]?

def flag : Condition → Byte
  | nonZero | zero => Flag.zero
  | noCarry | carry => Flag.carry
  | parityOdd | parityEven => Flag.parity
  | positive | negative => Flag.sign

/-- The state the tested flag has to be in. -/
def sense : Condition → Bool
  | nonZero | noCarry | parityOdd | positive => false
  | zero | carry | parityEven | negative => true

def holds (c : Condition) (flags : Byte) : Bool := Flag.isSet flags c.flag == c.sense

end Condition

/-- An absent condition always holds. -/
def Condition.holdsOf (c : Option Condition) (flags : Byte) : Bool := c.all (·.holds flags)

end Z80
