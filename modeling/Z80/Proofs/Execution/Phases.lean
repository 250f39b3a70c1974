import Mathlib.Tactic.Lemma
import Z80.Execution.Instruction
import Z80.Proofs.Microprogram.Phases

/-!
# Phases of an instruction

Every instruction that an opcode stands for reads its operand bytes once and in order, before all
else. After them come at most two reads and at most two writes of data, the reads first
(`Instruction.phases_execute`). What is left of an instruction once its operand bytes are known is
given for the instructions that leave the straight line, and an instruction that does not jump ends
at the address after it (`Instruction.pc_execute`).
-/

namespace Z80.Instruction

open Microprogram

/-- How many bytes follow the opcode in the encoding. -/
def operandBytes : Instruction → Nat
  | loadByte target source => target.encodedBytes + source.encodedBytes 1
  | loadWord target source => target.encodedBytes + source.encodedBytes 2
  | alu _ source => source.encodedBytes 1
  | jump _ | call _ => 2
  | jumpRelative _ | djnz => 1
  | _ => 0

/-- An address in the encoding is used once, and not along with another operand in memory. -/
def isEncodable : Instruction → Bool
  | loadByte target source => target.encodedBytes == 0 || !source.isMemory
  | loadWord target source => target.encodedBytes == 0 || !source.isMemory
  | incByte target | decByte target => target.encodedBytes == 0
  | _ => true

/-- The instruction leaves the straight line when it is begun with these registers. -/
def jumps (i : Instruction) (r : Registers) : Bool :=
  match i with
  | jump condition | jumpRelative condition | call condition | ret condition => r.meets condition
  | djnz => r.readByte .b - 1 != 0
  | jumpHl | retn | reti | rst _ => true
  | _ => false

/-- The operand bytes are read first, then data is read, then data is written. -/
theorem phases_execute (i : Instruction) (r : Registers) (h : i.isEncodable = true) :
    (i.execute r).ReadsThen (DataPhase 2 2) ((r.pc + 1).upFrom i.operandBytes) := by
  cases i with
  | loadByte target source =>
    cases target with
    | register name | indirect pointer =>
      cases source with
      | register _ => exact trivial
      | immediate => exact ⟨rfl, fun _ => trivial⟩
      | indirect _ => exact fun _ => trivial
      | absolute => exact ⟨rfl, fun _ => ⟨rfl, fun _ _ => trivial⟩⟩
    | absolute =>
      cases source with
      | register _ => exact ⟨rfl, fun _ => ⟨rfl, fun _ => trivial⟩⟩
      -- In the encodings what goes to an absolute address comes from a register.
      | _ => cases h
  | loadWord target source =>
    cases target with
    | register name | indirect pointer =>
      cases source with
      | register _ => exact trivial
      | immediate => exact ⟨rfl, fun _ => ⟨rfl, fun _ => trivial⟩⟩
      | indirect _ => exact fun _ _ => trivial
      | absolute => exact ⟨rfl, fun _ => ⟨rfl, fun _ _ _ => trivial⟩⟩
    | absolute =>
      cases source with
      | register _ => exact ⟨rfl, fun _ => ⟨rfl, fun _ => trivial⟩⟩
      | _ => cases h
  | incByte target | decByte target =>
    cases target with
    | register name => exact trivial
    | indirect pointer => exact fun _ => trivial
    | absolute => cases h
  | alu operation source =>
    cases source with
    | register name => exact trivial
    | immediate => exact ⟨rfl, fun _ => trivial⟩
    | indirect pointer => exact fun _ => trivial
    | absolute => exact ⟨rfl, fun _ => ⟨rfl, fun _ _ => trivial⟩⟩
  | exchangeTop => exact fun _ _ => trivial
  | jump condition => exact ⟨rfl, fun _ => ⟨rfl, fun _ => trivial⟩⟩
  | jumpRelative condition | djnz => exact ⟨rfl, fun _ => trivial⟩
  | call condition =>
    simp only [execute, body]
    split
    case isTrue => exact ⟨rfl, fun _ => ⟨rfl, fun _ => trivial⟩⟩
    case isFalse => exact ⟨rfl, fun _ => ⟨rfl, fun _ => trivial⟩⟩
  | ret condition =>
    simp only [execute, body]
    split
    case isTrue => exact fun _ _ => trivial
    case isFalse => exact trivial
  | retn | reti | pop _ => exact fun _ _ => trivial
  | _ => exact trivial

/-- Every opcode of the base page stands for an instruction that can be encoded. -/
lemma isEncodable_ofOpcode (opcode : Byte) : (ofOpcode opcode).isEncodable = true := by
  revert opcode
  exact Byte.forall_of_lt (by decide +kernel)

/-- On the base page the encoding is the opcode and the operand bytes. -/
lemma size_ofOpcode (opcode : Byte) :
    (ofOpcode opcode).size = (ofOpcode opcode).operandBytes + 1 := by
  revert opcode
  exact Byte.forall_of_lt (by decide +kernel)

/-- No instruction of the first page is longer than three bytes. -/
lemma size_ofOpcode_le (opcode : Byte) : (ofOpcode opcode).size ≤ 3 := by
  revert opcode
  exact Byte.forall_of_lt (by decide +kernel)

/-- On the extended page the encoding is the page byte and the opcode, and no operand needs more. -/
lemma encoding_ofExtendedOpcode (opcode : Byte) :
    (ofExtendedOpcode opcode).isEncodable = true ∧ (ofExtendedOpcode opcode).size = 2 ∧
      (ofExtendedOpcode opcode).operandBytes = 0 := by
  revert opcode
  exact Byte.forall_of_lt (by decide +kernel)

/-- The body of an instruction that does not jump goes on to the address after it. -/
lemma address_body {i : Instruction} {r : Registers} (h : i.jumps r = false) (following : Word) :
    (i.body r following).Yields fun done => done.2.address following = following := by
  cases i with
  | illegal page opcode => exact trivial
  | loadByte target source | loadWord target source | incByte target | decByte target =>
    apply Yields.bind (.of_forall (fun _ => trivial) _)
    intro value _
    apply Yields.bind (.of_forall (fun _ => trivial) _)
    intro after _
    exact rfl
  | alu operation source =>
    apply Yields.bind (.of_forall (fun _ => trivial) _)
    intro value _
    exact rfl
  | exchangeTop =>
    apply Yields.bind (.of_forall (fun _ => trivial) _)
    intro top _
    apply Yields.bind (.of_forall (fun _ => trivial) _)
    intro after _
    exact rfl
  | jump condition | jumpRelative condition =>
    apply Yields.bind (.of_forall (fun _ => trivial) _)
    intro target _
    show (Flow.jumpIf (r.meets condition) target).address following = following
    -- That it does not jump says that its condition is not met.
    rw [show r.meets condition = false from h]
    rfl
  | djnz =>
    apply Yields.bind (.of_forall (fun _ => trivial) _)
    intro target _
    show (Flow.jumpIf (r.readByte .b - 1 != 0) target).address following = following
    rw [show (r.readByte .b - 1 != 0) = false from h]
    rfl
  | call condition =>
    apply Yields.bind (.of_forall (fun _ => trivial) _)
    intro target _
    rw [if_neg (Bool.not_eq_true _ ▸ h)]
    exact rfl
  | ret condition =>
    simp only [body]
    rw [if_neg (Bool.not_eq_true _ ▸ h)]
    exact rfl
  | push name =>
    apply Yields.bind (.of_forall (fun _ => trivial) _)
    intro after _
    exact rfl
  | pop name =>
    apply Yields.bind (.of_forall (fun _ => trivial) _)
    intro popped _
    exact rfl
  | jumpHl | retn | reti | rst _ => cases h
  | _ => exact rfl

/-- An instruction that does not jump ends at the address after it. -/
theorem pc_execute {i : Instruction} {r : Registers} (h : i.jumps r = false) :
    (i.execute r).Yields fun done => done.registers.pc = r.pc + UInt16.ofNat i.size := by
  apply (address_body h _).bind
  intro (after, flow) hflow
  exact hflow

/-- A branch that is taken leads to its target, and one that is not to the next instruction. -/
lemma pc_retire_jumpIf (i : Instruction) (following target : Word) (after : Registers)
    (taken : Bool) :
    (i.retire following after (.jumpIf taken target)).registers.pc =
      if taken then target else following := by
  cases taken <;> rfl

/-- A relative jump whose displacement is known needs no access. -/
lemma answered_jumpRelative (r : Registers) (condition : Option Condition) (e : Byte) :
    ((jumpRelative condition).execute r).answered [e] =
      .done ((jumpRelative condition).retire (r.pc + 2) r
        (.jumpIf (r.meets condition) ((r.pc + 2).displace e))) :=
  rfl

/-- A loop instruction whose displacement is known counts down and needs no access. -/
lemma answered_djnz (r : Registers) (e : Byte) :
    (djnz.execute r).answered [e] =
      .done (djnz.retire (r.pc + 2) (r.writeByte .b (r.readByte .b - 1))
        (.jumpIf (r.readByte .b - 1 != 0) ((r.pc + 2).displace e))) :=
  rfl

/-- A call whose target is known pushes the address after it, and jumps. -/
lemma answered_call {r : Registers} {condition : Option Condition}
    (h : r.meets condition = true) (low high : Byte) :
    ((call condition).execute r).answered [low, high] =
      (r.push (r.pc + 3)).bind fun after =>
        .done ((call condition).retire (r.pc + 3) after (.jump (.ofHalves high low))) := by
  simp only [execute, body, h, if_true]
  rfl

/-- A restart pushes the address after it, and jumps. -/
lemma answered_rst (r : Registers) (target : Byte) :
    ((rst target).execute r).answered [] =
      (r.push (r.pc + 1)).bind fun after =>
        .done ((rst target).retire (r.pc + 1) after (.jump (.ofByte target))) :=
  rfl

end Z80.Instruction
