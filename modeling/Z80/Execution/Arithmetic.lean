import Z80.Flag.Rule
import Z80.Instruction.Basic
import Z80.Register.Bank

/-!
# Arithmetic

The operations that compute a new accumulator, or a new HL, and new flags from registers and one
operand that has been read already.
-/

namespace Z80

/-- The new accumulator and the flag update of an operation on accumulator, operand and carry. -/
def AluOperation.apply (operation : AluOperation) (a b : Byte) (carry : Bool) :
    Byte × FlagUpdate :=
  match operation with
  | add => (FlagRule.sum a b false, FlagRule.add a b false)
  | adc => (FlagRule.sum a b carry, FlagRule.add a b carry)
  | sub => (FlagRule.difference a b false, FlagRule.sub a b false)
  | sbc => (FlagRule.difference a b carry, FlagRule.sub a b carry)
  | and => (a &&& b, FlagRule.conjunction (a &&& b))
  | xor => (a ^^^ b, FlagRule.disjunction (a ^^^ b))
  | or => (a ||| b, FlagRule.disjunction (a ||| b))
  | cp => (a, FlagRule.compare a b)

/-- The rotated accumulator and the bit that leaves it. -/
def Rotation.apply (rotation : Rotation) (a : Byte) (carry : Bool) : Byte × Bool :=
  match rotation with
  | rlca => (a <<< 1 ||| Byte.ofBool (a.bit 7), a.bit 7)
  | rrca => (a >>> 1 ||| Byte.maskIf 0x80 (a.bit 0), a.bit 0)
  | rla => (a <<< 1 ||| Byte.ofBool carry, a.bit 7)
  | rra => (a >>> 1 ||| Byte.maskIf 0x80 carry, a.bit 0)

namespace Registers

/-- Replaces the accumulator and updates the flags. -/
def settle (r : Registers) (a : Byte) (u : FlagUpdate) : Registers := (r.withA a).updateFlags u

/-- Applies an operation of the arithmetic unit to the accumulator and an operand. -/
def alu (r : Registers) (operation : AluOperation) (operand : Byte) : Registers :=
  let (a, u) := operation.apply r.a operand r.carry
  r.settle a u

/-- Adds a register pair to `HL`. Sign, zero and overflow stay as they are. -/
def addHl (r : Registers) (name : WordRegister) : Registers :=
  (r.writeWord .hl (r.hl + r.readWord name)).updateFlags (FlagRule.addWord r.hl (r.readWord name))

/-- Adds a register pair and the carry to `HL`. -/
def adcHl (r : Registers) (name : WordRegister) : Registers :=
  let operand := r.readWord name
  (r.writeWord .hl (FlagRule.wordSum r.hl operand r.carry)).updateFlags
    (FlagRule.adcWord r.hl operand r.carry)

/-- Subtracts a register pair and the carry from `HL`. -/
def sbcHl (r : Registers) (name : WordRegister) : Registers :=
  let operand := r.readWord name
  (r.writeWord .hl (FlagRule.wordDifference r.hl operand r.carry)).updateFlags
    (FlagRule.sbcWord r.hl operand r.carry)

/-- Rotates the accumulator. The bit that leaves it is the new carry. -/
def rotate (r : Registers) (rotation : Rotation) : Registers :=
  let (a, out) := rotation.apply r.a r.carry
  r.settle a ((FlagRule.rotation a).overlay (.flag Flag.carry out))

def complement (r : Registers) : Registers :=
  let a := ~~~r.a
  r.settle a <|
    (FlagUpdate.assign Flag.copies a).overlay (.sets (Flag.halfCarry ||| Flag.subtract))

def setCarry (r : Registers) : Registers :=
  r.settle r.a <|
    ((FlagUpdate.assign Flag.copies r.a).overlay
      (.clears (Flag.halfCarry ||| Flag.subtract))).overlay (.sets Flag.carry)

/-- Complements the carry. The half carry takes its old state. -/
def complementCarry (r : Registers) : Registers :=
  r.settle r.a <|
    (((FlagUpdate.assign Flag.copies r.a).overlay (.clears Flag.subtract)).overlay
      (.flag Flag.halfCarry r.carry)).overlay (.flag Flag.carry (!r.carry))

/-- Subtracts the accumulator from zero. -/
def negate (r : Registers) : Registers :=
  r.settle (FlagRule.difference 0 r.a false) (FlagRule.sub 0 r.a false)

/-- Copies the interrupt vector base to the accumulator. The parity flag shows the second enable
flip-flop. -/
def loadAI (r : Registers) : Registers :=
  r.settle r.i <|
    ((FlagRule.result r.i).overlay (.clears (Flag.halfCarry ||| Flag.subtract))).overlay
      (.flag Flag.parity r.iff2)

def exchange (r : Registers) : Exchange → Registers
  | .af => r.exchangeAf
  | .pairs => r.exchangePairs
  | .deHl => r.exchangeDeHl

end Registers

end Z80
