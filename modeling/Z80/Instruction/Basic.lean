import Z80.Flag.Basic
import Z80.Instruction.Operand
import Z80.Interrupt.Mode

/-!
# Instructions

The closed instruction set, each instruction with its operands bound. An opcode that means nothing is
an instruction too, which cannot be executed.
-/

namespace Z80

/-- What the arithmetic unit does with the accumulator and an operand. -/
inductive AluOperation where
  | add
  | adc
  | sub
  | sbc
  | and
  | xor
  | or
  | cp
  deriving DecidableEq, Repr

namespace AluOperation

/-- The operations by the value of their opcode field. -/
def table : List AluOperation := [add, adc, sub, sbc, and, xor, or, cp]

def ofField? (field : Nat) : Option AluOperation := table[field]?

end AluOperation

/-- How the accumulator is rotated: left or right, in eight bits or through the carry. -/
inductive Rotation where
  | rlca
  | rrca
  | rla
  | rra
  deriving DecidableEq, Repr

/-- Which registers change places. -/
inductive Exchange where
  | af
  | pairs
  | deHl
  deriving DecidableEq, Repr

/-- What an opcode with its operands can mean. -/
inductive Instruction where
  | nop
  | halt
  | loadByte (target : ByteTarget) (source : ByteSource)
  | loadWord (target : WordTarget) (source : WordSource)
  | incByte (target : ByteTarget)
  | decByte (target : ByteTarget)
  | incWord (name : WordRegister)
  | decWord (name : WordRegister)
  | alu (operation : AluOperation) (source : ByteSource)
  | addHl (name : WordRegister)
  | adcHl (name : WordRegister)
  | sbcHl (name : WordRegister)
  | rotate (rotation : Rotation)
  | cpl
  | scf
  | ccf
  | neg
  | exchange (kind : Exchange)
  /-- Exchanges HL with the word on top of the stack. -/
  | exchangeTop
  | jump (condition : Option Condition)
  | jumpHl
  | jumpRelative (condition : Option Condition)
  | djnz
  | call (condition : Option Condition)
  | ret (condition : Option Condition)
  | retn
  | reti
  | rst (target : Byte)
  | push (name : WordRegister)
  | pop (name : WordRegister)
  | di
  | ei
  | im (mode : InterruptMode)
  | loadIA
  | loadAI
  /-- An opcode without a meaning, with the byte that selects its page, if one does. -/
  | illegal (page : Option Byte) (opcode : Byte)
  deriving DecidableEq, Repr

namespace Instruction

/-- Length of the encoding in bytes, the byte that selects the page included. -/
def size : Instruction → Nat
  | loadByte target source => 1 + target.encodedBytes + source.encodedBytes 1
  | loadWord target source => 1 + target.encodedBytes + source.encodedBytes 2
  | alu _ source => 1 + source.encodedBytes 1
  | jump _ | call _ => 3
  | jumpRelative _ | djnz | adcHl _ | sbcHl _ | neg | retn | reti | im _ | loadIA | loadAI => 2
  | illegal (some _) _ => 2
  | _ => 1

/-- The opcode means nothing. -/
def isIllegal : Instruction → Bool
  | illegal _ _ => true
  | _ => false

/-- Every instruction has an opcode. -/
theorem size_pos (i : Instruction) : 0 < i.size := by
  unfold size
  split <;> omega

end Instruction

end Z80
