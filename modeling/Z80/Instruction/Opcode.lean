import Z80.Instruction.Basic

/-!
# Opcodes

Which instruction an opcode means. Opcodes are grouped by their two highest bits into four blocks;
inside a block the next three bits and the last three bits select the operation and its operands.
There are two pages of opcodes, and a page byte in front of an opcode selects the extended one.
-/

namespace Z80

namespace Opcode

/-- The byte in front of an opcode of the extended page. -/
def extendedPage : Byte := 0xED

/-- Bits 7 and 6, the block. -/
def block (opcode : Byte) : Nat := opcode.toNat / 64

/-- Bits 5 to 3. -/
def middle (opcode : Byte) : Nat := opcode.toNat / 8 % 8

/-- Bits 2 to 0. -/
def last (opcode : Byte) : Nat := opcode.toNat % 8

/-- A byte operand: a register, or memory at HL for the field that names none. -/
def byteOperand (field : Nat) : ByteTarget :=
  match ByteRegister.ofField? field with
  | some r => .register r
  | none => .indirect .hl

def wordRegister (field : Nat) : WordRegister := (WordRegister.ofField? field).getD .sp

/-- A word register by its field, as pushes and pops use it. -/
def stackRegister (field : Nat) : WordRegister := (WordRegister.ofStackField? field).getD .af

def condition (field : Nat) : Condition := (Condition.ofField? field).getD .negative

def aluOperation (field : Nat) : AluOperation := (AluOperation.ofField? field).getD .cp

end Opcode

namespace Instruction

open Opcode

/-- Loads between a register and memory at an address that is not in HL. -/
def ofIndirectField : Nat → Instruction
  | 0 => loadByte (.indirect .bc) (.register .a)
  | 1 => loadByte (.register .a) (.indirect .bc)
  | 2 => loadByte (.indirect .de) (.register .a)
  | 3 => loadByte (.register .a) (.indirect .de)
  | 4 => loadWord .absolute (.register .hl)
  | 5 => loadWord (.register .hl) .absolute
  | 6 => loadByte .absolute (.register .a)
  | _ => loadByte (.register .a) .absolute

/-- Operations on the accumulator and the flags alone. Field 4 is without a meaning. -/
def ofAccumulatorField? : Nat → Option Instruction
  | 0 => some (rotate .rlca)
  | 1 => some (rotate .rrca)
  | 2 => some (rotate .rla)
  | 3 => some (rotate .rra)
  | 5 => some cpl
  | 6 => some scf
  | 7 => some ccf
  | _ => none

/-- The instruction of an opcode of the first block. -/
def ofBlock0 (opcode : Byte) : Instruction :=
  let field := middle opcode
  let register := wordRegister (field / 2)
  let second := field % 2 == 1
  match last opcode with
  | 0 =>
    match field with
    | 0 => nop
    | 1 => exchange .af
    | 2 => djnz
    | 3 => jumpRelative none
    | _ => jumpRelative (some (condition (field - 4)))
  | 1 => if second then addHl register else loadWord (.register register) .immediate
  | 2 => ofIndirectField field
  | 3 => if second then decWord register else incWord register
  | 4 => incByte (byteOperand field)
  | 5 => decByte (byteOperand field)
  | 6 => loadByte (byteOperand field) .immediate
  | _ => (ofAccumulatorField? field).getD (illegal none opcode)

/-- The instruction of an opcode of the last block. -/
def ofBlock3 (opcode : Byte) : Instruction :=
  let field := middle opcode
  match last opcode with
  | 0 => ret (some (condition field))
  | 1 =>
    match field with
    | 1 => ret none
    | 3 => exchange .pairs
    | 5 => jumpHl
    | 7 => loadWord (.register .sp) (.register .hl)
    | _ => pop (stackRegister (field / 2))
  | 2 => jump (some (condition field))
  | 3 =>
    match field with
    | 0 => jump none
    | 4 => exchangeTop
    | 5 => exchange .deHl
    | 6 => di
    | 7 => ei
    | _ => illegal none opcode
  | 4 => call (some (condition field))
  | 5 =>
    match field with
    | 1 => call none
    | 3 | 5 | 7 => illegal none opcode
    | _ => push (stackRegister (field / 2))
  | 6 => alu (aluOperation field) .immediate
  | _ => rst (UInt8.ofNat (8 * field))

/-- The instruction of an opcode of the first page. -/
def ofOpcode (opcode : Byte) : Instruction :=
  match block opcode with
  | 0 => ofBlock0 opcode
  | 1 =>
    if opcode == 0x76 then halt
    else loadByte (byteOperand (middle opcode)) (byteOperand (last opcode)).toSource
  | 2 => alu (aluOperation (middle opcode)) (byteOperand (last opcode)).toSource
  | _ => ofBlock3 opcode

/-- The instruction of the only block of the extended page that has any. -/
def ofExtendedFields? (last middle : Nat) : Option Instruction :=
  match last, middle with
  | 2, field =>
    let register := wordRegister (field / 2)
    some (if field % 2 == 1 then adcHl register else sbcHl register)
  | 4, 0 => some neg
  | 5, 0 => some retn
  | 5, 1 => some reti
  | 6, 0 => some (im .mode0)
  | 6, 2 => some (im .mode1)
  | 6, 3 => some (im .mode2)
  | 7, 0 => some loadIA
  | 7, 2 => some loadAI
  | _, _ => none

/-- The instruction of an opcode of the extended page. -/
def ofExtendedOpcode (opcode : Byte) : Instruction :=
  let meaning :=
    if block opcode = 1 then ofExtendedFields? (last opcode) (middle opcode) else none
  meaning.getD (illegal (some extendedPage) opcode)

end Instruction

end Z80
