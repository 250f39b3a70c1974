import Z80.Execution.Arithmetic
import Z80.Execution.Stack
import Z80.Instruction.Cost
import Z80.Instruction.Opcode

/-!
# Execution of instructions

What an instruction does to the registers and on the bus. The body of an instruction computes the
registers and says where control goes; the program counter moves once, after the body, so that all
operands are found relative to the opcode. The registers change in place, and an instruction that
stops short leaves them as they stood at the access that failed.

Main statement: whatever the bus answers, an instruction that retires takes at least four cycles and
at most nineteen (`Instruction.cycles_execute`).
-/

namespace Z80

/-- Where control goes after the body of an instruction. -/
inductive Flow where
  | next
  /-- On to the next instruction, for the condition of a branch did not hold. -/
  | notTaken
  | jump (target : Word)
  deriving DecidableEq, Repr

namespace Flow

/-- On to the target if the condition holds. -/
def jumpIf (condition : Bool) (target : Word) : Flow := if condition then jump target else notTaken

/-- The address of the instruction that comes after, given the one that follows in memory. -/
def address (following : Word) : Flow → Word
  | jump target => target
  | next | notTaken => following

/-- The branch was taken, if there was one. -/
def isTaken : Flow → Bool
  | notTaken => false
  | next | jump _ => true

end Flow

/-- What an instruction asks of the processor beyond its registers. -/
inductive Effect where
  | none
  | halt
  | selectMode (mode : InterruptMode)
  deriving DecidableEq, Repr

/-- An instruction that was completed. -/
structure Retirement where
  registers : Registers
  cycles : Nat
  effect : Effect
  deriving DecidableEq, Repr

namespace Registers

/-- The flags meet the condition, if there is one. -/
def meets (r : Registers) (condition : Option Condition) : Bool :=
  Condition.holdsOf condition r.flags

/-- Reads the displacement that follows the opcode and gives the address it leads to. -/
def relativeTarget (r : Registers) (following : Word) : Microprogram Word := do
  let displacement ← ByteSource.read .immediate r
  return following.displace displacement

/-- Pops the program counter. -/
def returnFrom (r : Registers) : Microprogram (Registers × Flow) := do
  let (target, popped) ← r.pop
  return (popped, .jump target)

/-- Takes the return address from the stack and restores the interrupt enable. -/
def returnFromInterrupt (r : Registers) : Microprogram (Registers × Flow) := do
  let (target, popped) ← r.pop
  return ({ popped with iff1 := popped.iff2 }, .jump target)

end Registers

namespace Instruction

/-- The instruction at the program counter, without the move of the program counter. The address of
the instruction that follows in memory is given. -/
def body (i : Instruction) (r : Registers) (following : Word) : Microprogram (Registers × Flow) :=
  match i with
  | illegal page opcode => .illegal r ⟨page, opcode, r.pc⟩
  | nop | im _ => return (r, .next)
  | halt => return ({ r with halted := true }, .next)
  | loadByte target source => do
    let value ← ByteSource.read source r
    let after ← ByteTarget.write target r value
    return (after, .next)
  | loadWord target source => do
    let value ← WordSource.read source r
    let after ← WordTarget.write target r value
    return (after, .next)
  | incByte target => do
    let value ← ByteSource.read target.toSource r
    let after ← ByteTarget.write target r (value + 1)
    return (after.updateFlags (FlagRule.increment value), .next)
  | decByte target => do
    let value ← ByteSource.read target.toSource r
    let after ← ByteTarget.write target r (value - 1)
    return (after.updateFlags (FlagRule.decrement value), .next)
  | incWord name => return (r.writeWord name (r.readWord name + 1), .next)
  | decWord name => return (r.writeWord name (r.readWord name - 1), .next)
  | alu operation source => do
    let value ← ByteSource.read source r
    return (r.alu operation value, .next)
  | addHl name => return (r.addHl name, .next)
  | adcHl name => return (r.adcHl name, .next)
  | sbcHl name => return (r.sbcHl name, .next)
  | rotate rotation => return (r.rotate rotation, .next)
  | cpl => return (r.complement, .next)
  | scf => return (r.setCarry, .next)
  | ccf => return (r.complementCarry, .next)
  | neg => return (r.negate, .next)
  | exchange kind => return (r.exchange kind, .next)
  | exchangeTop => do
    let top ← WordSource.read (.indirect .sp) r
    let after ← WordTarget.write (.indirect .sp) r r.hl
    return ({ after with hl := top }, .next)
  | jump condition => do
    let target ← WordSource.read .immediate r
    return (r, .jumpIf (r.meets condition) target)
  | jumpHl => return (r, .jump r.hl)
  | jumpRelative condition => do
    let target ← r.relativeTarget following
    return (r, .jumpIf (r.meets condition) target)
  | djnz => do
    let target ← r.relativeTarget following
    let counter := r.readByte .b - 1
    return (r.writeByte .b counter, .jumpIf (counter != 0) target)
  | call condition => do
    let target ← WordSource.read .immediate r
    if r.meets condition then
      let after ← r.push following
      return (after, .jump target)
    else
      return (r, .notTaken)
  | ret condition => if r.meets condition then r.returnFrom else return (r, .notTaken)
  | retn | reti => r.returnFromInterrupt
  | rst target => do
    let after ← r.push following
    return (after, .jump (.ofByte target))
  | push name => do
    let after ← r.push (r.readWord name)
    return (after, .next)
  | pop name => do
    let (value, popped) ← r.pop
    return (popped.writeWord name value, .next)
  | di => return (r.withInterruptsEnabled false, .next)
  | ei => return ({ r.withInterruptsEnabled true with eiExecuted := true }, .next)
  | loadIA => return ({ r with i := r.a }, .next)
  | loadAI => return (r.loadAI, .next)

/-- What the instruction asks for beside its work on the registers. -/
def effect : Instruction → Effect
  | halt => .halt
  | im mode => .selectMode mode
  | _ => .none

/-- The instruction completed, given the registers and the flow after its body. -/
def retire (i : Instruction) (following : Word) (after : Registers) (flow : Flow) : Retirement where
  registers := { after with pc := flow.address following }
  cycles := i.cycles flow.isTaken
  effect := i.effect

/-- The instruction at the program counter, completed. -/
def execute (i : Instruction) (r : Registers) : Microprogram Retirement := do
  let following := r.pc + UInt16.ofNat i.size
  let (after, flow) ← i.body r following
  return i.retire following after flow

/-- Goes on decoding after the first byte of the instruction at an address. -/
def decodeRest (now : Registers) (pc : Word) (opcode : Byte) : Microprogram Instruction := do
  if opcode == Opcode.extendedPage then
    let extended ← .readByte now (pc + 1)
    return ofExtendedOpcode extended
  else
    return ofOpcode opcode

/-- Reads and decodes the instruction at an address. -/
def decodeAt (now : Registers) (pc : Word) : Microprogram Instruction := do
  let opcode ← .readByte now pc
  decodeRest now pc opcode

/-- An instruction that is carried out is charged between 4 and 19 cycles. -/
theorem cycles_execute (i : Instruction) (r : Registers) :
    (i.execute r).Yields fun done => 4 ≤ done.cycles ∧ done.cycles ≤ 19 :=
  Microprogram.Yields.bind (Microprogram.Yields.of_forall (fun _ => trivial) _)
    fun _ _ => i.cycles_bounds _

end Instruction

end Z80
