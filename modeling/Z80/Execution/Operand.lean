import Z80.Microprogram.Basic
import Z80.Register.Bank

/-!
# Operand access

Reading and writing operands. An immediate value and an address in the encoding follow the opcode,
and the program counter stays at the opcode while they are read. The registers stand as they are
until the access is over.
-/

namespace Z80

namespace Registers

/-- The operand stands behind the opcode. -/
def operandAddress (r : Registers) : Word := r.pc + 1

/-- Reads the address that stands in the encoding. -/
def absoluteAddress (r : Registers) : Microprogram Word := .readWord r r.operandAddress

end Registers

/-- Reads a byte operand. -/
def ByteSource.read (s : ByteSource) (r : Registers) : Microprogram Byte :=
  match s with
  | .register name => return r.readByte name
  | .immediate => .readByte r r.operandAddress
  | .indirect pointer => .readByte r (r.readWord pointer)
  | .absolute => do
    let address ← r.absoluteAddress
    .readByte r address

/-- Reads a word operand. -/
def WordSource.read (s : WordSource) (r : Registers) : Microprogram Word :=
  match s with
  | .register name => return r.readWord name
  | .immediate => .readWord r r.operandAddress
  | .indirect pointer => .readWord r (r.readWord pointer)
  | .absolute => do
    let address ← r.absoluteAddress
    .readWord r address

/-- Writes a byte operand and gives the registers afterwards. -/
def ByteTarget.write (t : ByteTarget) (r : Registers) (value : Byte) : Microprogram Registers :=
  match t with
  | .register name => return r.writeByte name value
  | .indirect pointer => do
    .writeByte r (r.readWord pointer) value
    return r
  | .absolute => do
    let address ← r.absoluteAddress
    .writeByte r address value
    return r

/-- Writes a word operand and gives the registers afterwards. -/
def WordTarget.write (t : WordTarget) (r : Registers) (value : Word) : Microprogram Registers :=
  match t with
  | .register name => return r.writeWord name value
  | .indirect pointer => do
    .writeWord r (r.readWord pointer) value
    return r
  | .absolute => do
    let address ← r.absoluteAddress
    .writeWord r address value
    return r

end Z80
