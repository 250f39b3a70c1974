import Z80.Execution.Instruction
import Z80.Proofs.Instruction.Checked
import Z80.Proofs.Microprogram.Checked

/-!
# Execution with checks

An instruction whose flags are looked up in tables, and whose length must fit a byte. No lookup is past
the end of its table and every length fits, so that it is executed as it is without these checks
(`Instruction.checkedExecute_eq`).
-/

namespace Z80

/-- The new accumulator and the flag update of an operation, the flags looked up. -/
def AluOperation.lookUp? (operation : AluOperation) (a b : Byte) (carry : Bool) :
    Option (Byte × FlagUpdate) :=
  match operation with
  | add => (FlagRule.add? a b false).map (FlagRule.sum a b false, ·)
  | adc => (FlagRule.add? a b carry).map (FlagRule.sum a b carry, ·)
  | sub => (FlagRule.sub? a b false).map (FlagRule.difference a b false, ·)
  | sbc => (FlagRule.sub? a b carry).map (FlagRule.difference a b carry, ·)
  | and => (FlagRule.conjunction? (a &&& b)).map (a &&& b, ·)
  | xor => (FlagRule.disjunction? (a ^^^ b)).map (a ^^^ b, ·)
  | or => (FlagRule.disjunction? (a ||| b)).map (a ||| b, ·)
  | cp => (FlagRule.compare? a b).map (a, ·)

/-- The table has the flags for every operation on the accumulator. -/
@[simp] lemma AluOperation.lookUp?_eq (operation : AluOperation) (a b : Byte) (carry : Bool) :
    operation.lookUp? a b carry = some (operation.apply a b carry) := by
  cases operation with
  | add | adc =>
    rw [lookUp?, FlagRule.add?_eq]
    rfl
  | sub | sbc =>
    rw [lookUp?, FlagRule.sub?_eq]
    rfl
  | and =>
    rw [lookUp?, FlagRule.conjunction?_eq]
    rfl
  | xor | or =>
    rw [lookUp?, FlagRule.disjunction?_eq]
    rfl
  | cp =>
    rw [lookUp?, FlagRule.compare?_eq]
    rfl

namespace Instruction

/-- The instruction at the program counter, without the move of the program counter, its flags looked
up. Only what changes the flags by a table is written out. -/
def checkedBody (i : Instruction) (r : Registers) (following : Word) : Checked (Registers × Flow) :=
  match i with
  | incByte target => do
    let value ← ByteSource.read target.toSource r
    let flags ← .check (FlagRule.increment? value)
    let after ← ByteTarget.write target r (value + 1)
    return (after.updateFlags flags, .next)
  | decByte target => do
    let value ← ByteSource.read target.toSource r
    let flags ← .check (FlagRule.decrement? value)
    let after ← ByteTarget.write target r (value - 1)
    return (after.updateFlags flags, .next)
  | alu operation source => do
    let value ← ByteSource.read source r
    let (a, flags) ← .check (operation.lookUp? r.a value r.carry)
    return (r.settle a flags, .next)
  | rotate rotation => do
    let (a, out) := rotation.apply r.a r.carry
    let flags ← .check (FlagRule.rotation? a)
    return (r.settle a (flags.overlay (.flag Flag.carry out)), .next)
  | neg => do
    let flags ← .check (FlagRule.sub? 0 r.a false)
    return (r.settle (FlagRule.difference 0 r.a false) flags, .next)
  | loadAI => do
    let flags ← .check (FlagRule.result? r.i)
    let settled := (flags.overlay (.clears (Flag.halfCarry ||| Flag.subtract))).overlay
      (.flag Flag.parity r.iff2)
    return (r.settle r.i settled, .next)
  | i => i.body r following

/-- No check fails while an instruction works on its operands. -/
lemma checkedBody_eq (i : Instruction) (r : Registers) (following : Word) :
    i.checkedBody r following = i.body r following := by
  cases i with
  -- Every table is asked at the index that its rule packs, and has an entry there.
  | incByte target =>
    simp only [checkedBody, body, FlagRule.increment?_eq, Checked.check_some, pure_bind, liftM_bind,
      liftM_pure]
  | decByte target =>
    simp only [checkedBody, body, FlagRule.decrement?_eq, Checked.check_some, pure_bind, liftM_bind,
      liftM_pure]
  | alu operation source =>
    simp only [checkedBody, body, AluOperation.lookUp?_eq, Checked.check_some, pure_bind, liftM_bind,
      liftM_pure]
    rfl
  | rotate rotation =>
    simp only [checkedBody, body, FlagRule.rotation?_eq, Checked.check_some, pure_bind, liftM_pure]
    rfl
  | neg =>
    simp only [checkedBody, body, FlagRule.sub?_eq, Checked.check_some, pure_bind, liftM_pure]
    rfl
  | loadAI =>
    simp only [checkedBody, body, FlagRule.result?_eq, Checked.check_some, pure_bind, liftM_pure]
    rfl
  | _ => rfl

/-- The instruction at the program counter, completed. -/
def checkedExecute (i : Instruction) (r : Registers) : Checked Retirement := do
  let size ← .check i.size?
  let following := r.pc + UInt16.ofNat size
  let (after, flow) ← i.checkedBody r following
  return i.retire following after flow

/-- Executing with checks is executing. -/
@[simp] theorem checkedExecute_eq (i : Instruction) (r : Registers) :
    i.checkedExecute r = i.execute r := by
  simp only [checkedExecute, execute, size?_eq, Checked.check_some, pure_bind, checkedBody_eq,
    liftM_bind, liftM_pure]

/-- Goes on decoding after the first byte of the instruction at an address. -/
def checkedDecodeRest (now : Registers) (pc : Word) (opcode : Byte) : Checked Instruction := do
  if opcode == Opcode.extendedPage then
    let extended ← Microprogram.readByte now (pc + 1)
    .check (decodeExtended? extended)
  else
    .check (decode? opcode)

/-- No check fails while what is left of an opcode is decoded. -/
@[simp] lemma checkedDecodeRest_eq (now : Registers) (pc : Word) (opcode : Byte) :
    checkedDecodeRest now pc opcode = decodeRest now pc opcode := by
  unfold checkedDecodeRest decodeRest
  split
  case isTrue => simp only [decodeExtended?_eq, Checked.check_some, liftM_bind, liftM_pure]
  case isFalse => simp only [decode?_eq, Checked.check_some, liftM_pure]

end Instruction

end Z80
