import Mathlib.Tactic.Lemma
import Z80.Execution.Instruction

/-!
# Flip-flops under instructions

Besides its words the register bank holds six flip-flops. Few instructions touch one of them: `DI`,
`EI`, the returns from an interrupt and `HALT`. What each does to them is stated once
(`Instruction.switch`), and every instruction that completes has done just that
(`Instruction.flipFlops_execute`).
-/

namespace Z80

/-- The flip-flops of the register bank. -/
structure FlipFlops where
  iff1 : Bool
  iff2 : Bool
  nmiPending : Bool
  intPending : Bool
  eiExecuted : Bool
  halted : Bool
  deriving DecidableEq

namespace Registers

/-- The flip-flops. -/
def flipFlops (r : Registers) : FlipFlops :=
  ⟨r.iff1, r.iff2, r.nmiPending, r.intPending, r.eiExecuted, r.halted⟩

/-- To write a register pair touches no flip-flop. -/
@[simp] lemma flipFlops_writeWord (r : Registers) (name : WordRegister) (value : Word) :
    (r.writeWord name value).flipFlops = r.flipFlops := by
  cases name <;> rfl

/-- To write a byte register touches no flip-flop. -/
@[simp] lemma flipFlops_writeByte (r : Registers) (name : ByteRegister) (value : Byte) :
    (r.writeByte name value).flipFlops = r.flipFlops :=
  r.flipFlops_writeWord _ _

/-- To update the flags touches no flip-flop. -/
@[simp] lemma flipFlops_updateFlags (r : Registers) (u : FlagUpdate) :
    (r.updateFlags u).flipFlops = r.flipFlops :=
  r.flipFlops_writeByte .f _

/-- To write a result and its flags touches no flip-flop. -/
@[simp] lemma flipFlops_settle (r : Registers) (a : Byte) (u : FlagUpdate) :
    (r.settle a u).flipFlops = r.flipFlops := by
  rw [settle, withA, flipFlops_updateFlags, flipFlops_writeByte]

/-- An exchange touches no flip-flop. -/
@[simp] lemma flipFlops_exchange (r : Registers) (kind : Exchange) :
    (r.exchange kind).flipFlops = r.flipFlops := by
  cases kind <;> rfl

end Registers

open Microprogram

/-- To write a byte to its target touches no flip-flop. -/
lemma ByteTarget.flipFlops_write (t : ByteTarget) (r : Registers) (value : Byte) :
    (ByteTarget.write t r value).Yields fun after => after.flipFlops = r.flipFlops := by
  cases t with
  | register name => exact r.flipFlops_writeByte name value
  | indirect pointer => exact rfl
  | absolute => exact fun _ _ => rfl

/-- To write a word to its target touches no flip-flop. -/
lemma WordTarget.flipFlops_write (t : WordTarget) (r : Registers) (value : Word) :
    (WordTarget.write t r value).Yields fun after => after.flipFlops = r.flipFlops := by
  cases t with
  | register name => exact r.flipFlops_writeWord name value
  | indirect pointer => exact rfl
  | absolute => exact fun _ _ => rfl

namespace Instruction

/-- What a completed instruction has done to the flip-flops. -/
def switch (i : Instruction) (s : FlipFlops) : FlipFlops :=
  match i with
  | di => { s with iff1 := false, iff2 := false }
  | ei => { s with iff1 := true, iff2 := true, eiExecuted := true }
  | retn | reti => { s with iff1 := s.iff2 }
  | halt => { s with halted := true }
  | _ => s

/-- No instruction touches the flip-flop of the non-maskable interrupt. -/
@[simp] lemma nmiPending_switch (i : Instruction) (s : FlipFlops) :
    (i.switch s).nmiPending = s.nmiPending := by
  cases i <;> rfl

/-- Only `EI` holds off the interrupts. -/
@[simp] lemma eiExecuted_switch (i : Instruction) (s : FlipFlops) :
    (i.switch s).eiExecuted = (s.eiExecuted || i == ei) := by
  cases i with
  | ei => exact (Bool.or_true _).symm
  | _ => exact (Bool.or_false _).symm

/-- An instruction that is run by a processor that is not halted never leaves a halted one in the
shadow of an enable. -/
lemma halted_switch {i : Instruction} {s : FlipFlops} (running : s.halted = false)
    (lifted : s.eiExecuted = false) (shadow : (i.switch s).eiExecuted = true) :
    (i.switch s).halted = false := by
  cases i with
  | halt => exact absurd (shadow.symm.trans lifted) nofun
  | _ => exact running

/-- What an instruction does to its operands leaves the flip-flops as the instruction should. -/
lemma flipFlops_body (i : Instruction) (r : Registers) (following : Word) :
    (i.body r following).Yields fun done => done.1.flipFlops = i.switch r.flipFlops := by
  cases i with
  | illegal page opcode => exact trivial
  | loadByte target source =>
    -- Whatever value was read, only the write can touch the registers.
    apply Yields.bind (.of_forall (fun _ => trivial) _)
    intro value _
    exact (ByteTarget.flipFlops_write target r value).bind fun _ h => h
  | loadWord target source =>
    apply Yields.bind (.of_forall (fun _ => trivial) _)
    intro value _
    exact (WordTarget.flipFlops_write target r value).bind fun _ h => h
  | incByte target | decByte target =>
    apply Yields.bind (.of_forall (fun _ => trivial) _)
    intro value _
    apply (ByteTarget.flipFlops_write target r _).bind
    intro after h
    exact (after.flipFlops_updateFlags _).trans h
  | incWord name | decWord name => exact r.flipFlops_writeWord name _
  | alu operation source =>
    apply Yields.bind (.of_forall (fun _ => trivial) _)
    intro value _
    exact r.flipFlops_settle _ _
  | addHl name | adcHl name | sbcHl name =>
    exact ((r.writeWord .hl _).flipFlops_updateFlags _).trans (r.flipFlops_writeWord .hl _)
  | rotate _ | cpl | scf | ccf | neg | loadAI => exact r.flipFlops_settle _ _
  | exchange kind => exact r.flipFlops_exchange kind
  | exchangeTop =>
    apply Yields.bind (.of_forall (fun _ => trivial) _)
    intro top _
    exact (WordTarget.flipFlops_write (.indirect .sp) r r.hl).bind fun _ h => h
  | jump condition | jumpRelative condition =>
    apply Yields.bind (.of_forall (fun _ => trivial) _)
    intro target _
    exact rfl
  | djnz =>
    apply Yields.bind (.of_forall (fun _ => trivial) _)
    intro target _
    exact r.flipFlops_writeByte .b _
  | call condition =>
    apply Yields.bind (.of_forall (fun _ => trivial) _)
    intro target _
    split
    case isTrue => exact rfl
    case isFalse => exact rfl
  | ret condition =>
    simp only [body]
    split
    case isTrue => exact fun _ _ => rfl
    case isFalse => exact rfl
  | retn | reti => exact fun _ _ => rfl
  | pop name =>
    intro low high
    exact Registers.flipFlops_writeWord _ name _
  | _ => exact rfl

/-- A completed instruction has done to the flip-flops what it does, and no more. -/
theorem flipFlops_execute (i : Instruction) (r : Registers) :
    (i.execute r).Yields fun done => done.registers.flipFlops = i.switch r.flipFlops :=
  (i.flipFlops_body r _).bind fun _ h => h

end Instruction

end Z80
