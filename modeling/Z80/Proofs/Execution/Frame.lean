import Z80.Bus.Ram
import Z80.Microprogram.Supplied
import Z80.Proofs.Execution.CarryChain
import Z80.Proofs.Execution.FlipFlop
import Z80.Proofs.Flag.Layers
import Z80.Proofs.Microprogram.Completion

/-!
# What an instruction leaves alone

Each part of the register bank has its own few writers: most instructions keep all flags and some of
the others keep the carry, or sign, zero and parity (`Instruction.flagsKept`), the stack pointer is
moved by those that use the stack or name it (`Instruction.movesSp`), and the shadow pairs, the
vector base and the flip-flops are changed by one, two or four instructions each. A completed
instruction that an opcode means has changed nothing else there (`Instruction.frame_execute`).
-/

namespace Z80

/-- The register is not the flags with the accumulator and not the program counter. -/
def WordRegister.isPlain (name : WordRegister) : Bool := name != .af && name != .pc

/-- A plain register pair is not that of the flags. -/
lemma WordRegister.ne_af_of_isPlain {name : WordRegister} (plain : name.isPlain = true) :
    name ≠ .af :=
  bne_iff_ne.mp (Bool.and_eq_true_iff.mp plain).1

/-- A register pair is the stack pointer or it is not. -/
lemma WordRegister.ne_sp_or (name : WordRegister) : name ≠ .sp ∨ (name == .sp) = true :=
  (Decidable.em (name = .sp)).symm.imp_right beq_iff_eq.mpr

/-- The operand is not the flags. -/
def ByteTarget.isPlain : ByteTarget → Bool
  | .register name => name != .f
  | _ => true

/-- The operand is not the flags with the accumulator and not the program counter. -/
def WordTarget.isPlain : WordTarget → Bool
  | .register name => name.isPlain
  | _ => true

namespace FlagRule

/-- Counting up leaves the carry. -/
lemma spared_increment (operand : Byte) : (increment operand).affected &&& Flag.carry = 0 := by
  rw [increment, FlagUpdate.affected_assign]
  decide

/-- Counting down leaves the carry. -/
lemma spared_decrement (operand : Byte) : (decrement operand).affected &&& Flag.carry = 0 := by
  rw [decrement, FlagUpdate.affected_assign]
  decide

end FlagRule

namespace Instruction

open Microprogram

/-- An opcode means the instruction, on one of the two pages. -/
inductive Decoded : Instruction → Prop where
  | base (opcode : Byte) : Decoded (ofOpcode opcode)
  | extended (opcode : Byte) : Decoded (ofExtendedOpcode opcode)

/-- Nothing is loaded to the flags or to the program counter, or counted there. -/
def isPlain : Instruction → Bool
  | loadByte target _ | incByte target | decByte target => ByteTarget.isPlain target
  | loadWord target _ => WordTarget.isPlain target
  | incWord name | decWord name => name.isPlain
  | _ => true

/-- No opcode decodes to an instruction that writes the flags or the program counter as an
operand. -/
lemma Decoded.isPlain {i : Instruction} (h : i.Decoded) : i.isPlain = true := by
  cases h with
  | base opcode =>
    revert opcode
    exact Byte.forall_of_lt (by decide +kernel)
  | extended opcode =>
    revert opcode
    exact Byte.forall_of_lt (by decide +kernel)

/-- The flags that the instruction keeps, whatever the registers are. -/
def flagsKept : Instruction → Byte
  | alu _ _ | adcHl _ | sbcHl _ | neg | exchange .af | pop .af => 0
  | incByte _ | decByte _ | loadAI => Flag.carry
  | addHl _ | rotate _ | scf | ccf => Flag.sign ||| Flag.zero ||| Flag.parity
  | cpl => Flag.sign ||| Flag.zero ||| Flag.parity ||| Flag.carry
  | _ => Flag.all

/-- The instruction uses the stack or has the stack pointer for its target. -/
def movesSp : Instruction → Bool
  | push _ | pop _ | call _ | ret _ | retn | reti | rst _ => true
  | loadWord (.register name) _ | incWord name | decWord name => name == .sp
  | _ => false

/-- Between the registers before and after, the instruction has changed no flag that it keeps, and
the stack pointer, the vector base and the shadow pairs only if it is one that does. -/
structure Spares (i : Instruction) (r after : Registers) : Prop where
  flags : after.flags &&& i.flagsKept = r.flags &&& i.flagsKept
  sp : i.movesSp = false → after.sp = r.sp
  vector : i ≠ loadIA → after.i = r.i
  shadow : i ≠ exchange .af → i ≠ exchange .pairs → after.shadow = r.shadow

namespace Spares

variable {i : Instruction} {r after : Registers}

/-- Whatever has to be spared is spared where nothing is changed. -/
lemma refl : Spares i r r := ⟨rfl, fun _ => rfl, fun _ => rfl, fun _ _ => rfl⟩

/-- The flags are as they were if the instruction keeps all of them. -/
lemma flags_eq (h : Spares i r after) (all : i.flagsKept = Flag.all) : after.flags = r.flags := by
  have flags := h.flags
  rw [all, Flag.all, show (0xFF : Byte) = -1 from rfl, UInt8.and_neg_one, UInt8.and_neg_one] at flags
  exact flags

/-- Only the stack pointer has changed. -/
lemma withSp (moves : i.movesSp = true) (sp : Word) : Spares i r { r with sp } where
  flags := rfl
  sp := fun still => absurd (still.symm.trans moves) nofun
  vector := fun _ => rfl
  shadow := fun _ _ => rfl

/-- A change of the interrupt enable is none of what has to be spared. -/
lemma withIff1 (h : Spares i r after) (iff1 : Bool) : Spares i r { after with iff1 } :=
  ⟨h.flags, h.sp, h.vector, h.shadow⟩

/-- A register pair may be written unless it holds flags that are kept, or is a stack pointer that
does not move. -/
lemma writeWord (h : Spares i r after) {name : WordRegister} (value : Word)
    (flags : name ≠ .af ∨ i.flagsKept = 0) (sp : name ≠ .sp ∨ i.movesSp = true) :
    Spares i r (after.writeWord name value) where
  flags := by
    obtain other | none := flags
    · have kept : (after.writeWord name value).flags = after.flags :=
        congrArg Word.low (after.readWord_writeWord_ne value other.symm)
      rw [kept, h.flags]
    · rw [none, UInt8.and_zero, UInt8.and_zero]
  sp := by
    intro still
    obtain other | moves := sp
    · exact (after.readWord_writeWord_ne value other.symm).trans (h.sp still)
    · exact absurd (still.symm.trans moves) nofun
  vector := by
    intro other
    rw [← h.vector other]
    cases name <;> rfl
  shadow := by
    intro one two
    rw [← h.shadow one two]
    cases name <;> rfl

/-- A byte register may be written unless it is that of the flags. -/
lemma writeByte (h : Spares i r after) {name : ByteRegister} (value : Byte) (other : name ≠ .f) :
    Spares i r (after.writeByte name value) where
  flags := by
    have kept : (after.writeByte name value).flags = after.flags :=
      after.readByte_writeByte_ne value other.symm
    rw [kept, h.flags]
  sp := by
    intro still
    rw [← h.sp still]
    cases name <;> rfl
  vector := by
    intro other
    rw [← h.vector other]
    cases name <;> rfl
  shadow := by
    intro one two
    rw [← h.shadow one two]
    cases name <;> rfl

/-- The flags may be updated where the instruction does not keep them. -/
lemma updateFlags (h : Spares i r after) {u : FlagUpdate} (spared : u.affected &&& i.flagsKept = 0) :
    Spares i r (after.updateFlags u) where
  flags := by
    rw [Registers.flags_updateFlags, u.apply_and_of_unaffected spared, h.flags]
  sp := h.sp
  vector := h.vector
  shadow := h.shadow

/-- The accumulator may be written along with flags that the instruction does not keep. -/
lemma settle {u : FlagUpdate} (a : Byte) (spared : u.affected &&& i.flagsKept = 0) :
    Spares i r (r.settle a u) :=
  (refl.writeByte a (by decide : ByteRegister.a ≠ .f)).updateFlags spared

end Spares

end Instruction

open Microprogram

/-- To write a byte to its target spares what it has to, unless the target is the flags. -/
lemma ByteTarget.spares_write {i : Instruction} (t : ByteTarget) (r : Registers) (value : Byte)
    (plain : t.isPlain = true) : (ByteTarget.write t r value).Yields (i.Spares r) := by
  cases t with
  | register name => exact Instruction.Spares.refl.writeByte value (bne_iff_ne.mp plain)
  | indirect pointer => exact Instruction.Spares.refl
  | absolute => exact fun _ _ => Instruction.Spares.refl

/-- To write a word to its target spares what it has to, unless the target holds the flags, or is a
stack pointer that does not move. -/
lemma WordTarget.spares_write {i : Instruction} (t : WordTarget) (r : Registers) (value : Word)
    (plain : t.isPlain = true) (sp : ∀ name, t = .register name → name ≠ .sp ∨ i.movesSp = true) :
    (WordTarget.write t r value).Yields (i.Spares r) := by
  cases t with
  | register name =>
    have other : name ≠ .af := WordRegister.ne_af_of_isPlain plain
    exact Instruction.Spares.refl.writeWord value (.inl other) (sp name rfl)
  | indirect pointer => exact Instruction.Spares.refl
  | absolute => exact fun _ _ => Instruction.Spares.refl

namespace Instruction

section

variable (r : Registers)

/-- A rotation spares sign, zero and parity. -/
lemma spares_rotate (rotation : Rotation) : (rotate rotation).Spares r (r.rotate rotation) := by
  apply Spares.settle
  simp only [FlagRule.rotation, FlagUpdate.affected_overlay, FlagUpdate.affected_assign,
    FlagUpdate.affected_flag, flagsKept]
  decide

/-- The complement of the accumulator spares sign, zero, parity and carry. -/
lemma spares_cpl : cpl.Spares r r.complement := by
  apply Spares.settle
  simp only [FlagUpdate.affected_overlay, FlagUpdate.affected_assign, FlagUpdate.affected_sets,
    flagsKept]
  decide

/-- To set the carry spares sign, zero and parity. -/
lemma spares_scf : scf.Spares r r.setCarry := by
  apply Spares.settle
  simp only [FlagUpdate.affected_overlay, FlagUpdate.affected_assign, FlagUpdate.affected_sets,
    FlagUpdate.affected_clears, flagsKept]
  decide

/-- To complement the carry spares sign, zero and parity. -/
lemma spares_ccf : ccf.Spares r r.complementCarry := by
  apply Spares.settle
  simp only [FlagUpdate.affected_overlay, FlagUpdate.affected_assign, FlagUpdate.affected_flag,
    FlagUpdate.affected_clears, flagsKept]
  decide

/-- To load the accumulator from the vector base spares the carry. -/
lemma spares_loadAI : loadAI.Spares r r.loadAI := by
  apply Spares.settle
  simp only [FlagRule.result, FlagUpdate.affected_overlay, FlagUpdate.affected_assign,
    FlagUpdate.affected_flag, FlagUpdate.affected_clears, flagsKept]
  decide

/-- An addition to `HL` spares sign, zero and overflow. -/
lemma spares_addHl (name : WordRegister) : (addHl name).Spares r (r.addHl name) := by
  apply (Spares.refl.writeWord _ (.inl (by decide)) (.inl (by decide))).updateFlags
  simp only [FlagRule.addWord, FlagUpdate.affected_assign, flagsKept]
  decide

/-- An exchange spares the flags, unless it is that of the accumulator and the flags. -/
lemma spares_exchange (kind : Exchange) : (exchange kind).Spares r (r.exchange kind) := by
  cases kind with
  | af => exact ⟨UInt8.and_zero.trans UInt8.and_zero.symm, fun _ => rfl, fun _ => rfl,
      fun other => absurd rfl other⟩
  | pairs => exact ⟨rfl, fun _ => rfl, fun _ => rfl, fun _ other => absurd rfl other⟩
  | deHl => exact ⟨rfl, fun _ => rfl, fun _ => rfl, fun _ _ => rfl⟩

end

/-- What an instruction does to its operands spares what it has to. -/
lemma spares_body {i : Instruction} (plain : i.isPlain = true) (r : Registers)
    (following : Word) : (i.body r following).Yields fun done => i.Spares r done.1 := by
  cases i with
  | illegal page opcode => exact trivial
  | nop | im _ | jumpHl => exact .refl
  | halt | di | ei => exact ⟨rfl, fun _ => rfl, fun _ => rfl, fun _ _ => rfl⟩
  | loadIA => exact ⟨rfl, fun _ => rfl, fun other => absurd rfl other, fun _ _ => rfl⟩
  -- Reading changes no registers, so what a load changes is up to its target.
  | loadByte target source =>
    apply Yields.bind (.of_forall (fun _ => trivial) _)
    intro value _
    exact (ByteTarget.spares_write target r value plain).bind fun _ h => h
  | loadWord target source =>
    apply Yields.bind (.of_forall (fun _ => trivial) _)
    intro value _
    have sp : ∀ name, target = .register name →
        name ≠ .sp ∨ (loadWord target source).movesSp = true := by
      rintro name rfl
      exact name.ne_sp_or
    exact (WordTarget.spares_write target r value plain sp).bind fun _ h => h
  | incByte target =>
    apply Yields.bind (.of_forall (fun _ => trivial) _)
    intro value _
    apply (ByteTarget.spares_write target r _ plain).bind
    exact fun after h => h.updateFlags (FlagRule.spared_increment value)
  | decByte target =>
    apply Yields.bind (.of_forall (fun _ => trivial) _)
    intro value _
    apply (ByteTarget.spares_write target r _ plain).bind
    exact fun after h => h.updateFlags (FlagRule.spared_decrement value)
  | incWord name | decWord name =>
    exact Spares.refl.writeWord _ (.inl (WordRegister.ne_af_of_isPlain plain)) name.ne_sp_or
  | alu operation source =>
    apply Yields.bind (.of_forall (fun _ => trivial) _)
    intro value _
    exact .settle _ UInt8.and_zero
  | addHl name => exact spares_addHl r name
  | adcHl name | sbcHl name =>
    exact (Spares.refl.writeWord _ (.inl (by decide)) (.inl (by decide))).updateFlags UInt8.and_zero
  | rotate rotation => exact spares_rotate r rotation
  | cpl => exact spares_cpl r
  | scf => exact spares_scf r
  | ccf => exact spares_ccf r
  | neg => exact .settle _ UInt8.and_zero
  | loadAI => exact spares_loadAI r
  | exchange kind => exact spares_exchange r kind
  | exchangeTop =>
    apply Yields.bind (.of_forall (fun _ => trivial) _)
    intro top _
    have stored : (WordTarget.write (.indirect .sp) r r.hl).Yields (exchangeTop.Spares r) := .refl
    apply stored.bind
    intro after h
    have other : WordRegister.hl ≠ .af ∧ WordRegister.hl ≠ .sp := by decide
    exact h.writeWord top (.inl other.1) (.inl other.2)
  | jump condition | jumpRelative condition =>
    apply Yields.bind (.of_forall (fun _ => trivial) _)
    intro target _
    exact .refl
  | djnz =>
    apply Yields.bind (.of_forall (fun _ => trivial) _)
    intro target _
    exact Spares.refl.writeByte _ (by decide : ByteRegister.b ≠ .f)
  | call condition =>
    apply Yields.bind (.of_forall (fun _ => trivial) _)
    intro target _
    split
    case isTrue => exact .withSp rfl _
    case isFalse => exact .refl
  | ret condition =>
    simp only [body]
    split
    case isTrue => exact fun _ _ => .withSp rfl _
    case isFalse => exact .refl
  | retn | reti => exact fun _ _ => (Spares.withSp rfl _).withIff1 _
  | rst _ | push _ => exact .withSp rfl _
  | pop name =>
    intro low high
    have flags : name ≠ .af ∨ (pop name).flagsKept = 0 := by cases name <;> decide
    exact (Spares.withSp rfl _).writeWord _ flags (.inr rfl)

/-- What an instruction leaves of the registers: besides what it spares it has changed each of the
flip-flops only if it is one of those that do. -/
structure Frame (i : Instruction) (r after : Registers) : Prop extends i.Spares r after where
  iff1 : i ∉ [di, ei, retn, reti] → after.iff1 = r.iff1
  iff2 : i ∉ [di, ei] → after.iff2 = r.iff2
  eiExecuted : i ≠ ei → after.eiExecuted = r.eiExecuted
  halted : i ≠ halt → after.halted = r.halted
  nmiPending : after.nmiPending = r.nmiPending
  intPending : after.intPending = r.intPending

section Switch

variable {i : Instruction} (s : FlipFlops)

/-- Only `DI`, `EI` and the returns from interrupts touch the interrupt enable. -/
lemma iff1_switch (other : i ∉ [di, ei, retn, reti]) : (i.switch s).iff1 = s.iff1 := by
  cases i with
  | di | ei | retn | reti => exact absurd (by decide) other
  | _ => rfl

/-- Only `DI` and `EI` touch the copy of the interrupt enable. -/
lemma iff2_switch (other : i ∉ [di, ei]) : (i.switch s).iff2 = s.iff2 := by
  cases i with
  | di | ei => exact absurd (by decide) other
  | _ => rfl

/-- Only `HALT` stops the processor. -/
lemma halted_switch_of_ne (other : i ≠ halt) : (i.switch s).halted = s.halted := by
  cases i with
  | halt => exact absurd rfl other
  | _ => rfl

/-- No instruction touches the level that was sampled. -/
lemma intPending_switch : (i.switch s).intPending = s.intPending := by
  cases i <;> rfl

end Switch

/-- The flip-flops are as the instruction has switched them. -/
lemma Spares.frame {i : Instruction} {r after : Registers} (h : Spares i r after)
    (switched : after.flipFlops = i.switch r.flipFlops) : i.Frame r after where
  toSpares := h
  iff1 := fun other => (congrArg FlipFlops.iff1 switched).trans (iff1_switch r.flipFlops other)
  iff2 := fun other => (congrArg FlipFlops.iff2 switched).trans (iff2_switch r.flipFlops other)
  eiExecuted := by
    intro other
    have lifted := congrArg FlipFlops.eiExecuted switched
    rw [eiExecuted_switch, beq_false_of_ne other, Bool.or_false] at lifted
    exact lifted
  halted := fun other =>
    (congrArg FlipFlops.halted switched).trans (halted_switch_of_ne r.flipFlops other)
  nmiPending := (congrArg FlipFlops.nmiPending switched).trans (i.nmiPending_switch r.flipFlops)
  intPending := (congrArg FlipFlops.intPending switched).trans (intPending_switch r.flipFlops)

/-- A completed instruction spares what its body does: the move of the program counter touches
nothing else. -/
lemma spares_execute {i : Instruction} (plain : i.isPlain = true) (r : Registers) :
    (i.execute r).Yields fun done => i.Spares r done.registers :=
  (spares_body plain r _).bind fun _ h => ⟨h.flags, h.sp, h.vector, h.shadow⟩

/-- For every bus and all registers, an instruction that an opcode means and that completes has kept
the flags that it keeps, and has changed the stack pointer, the vector base, the shadow pairs and each
of the flip-flops only if it is one of the few that do. It is the same when the bytes of its encoding
were supplied. -/
theorem frame_execute {β : Type} [Bus β] {i : Instruction} (decoded : i.Decoded) {r : Registers}
    {bus after : β} {done : Retirement} {t : Trace}
    (completes : (i.execute r).Completes bus done after t ∨
      ∃ first bytes, ((i.execute r).withSupplied first bytes).Completes bus done after t) :
    i.Frame r done.registers := by
  have spares := spares_execute decoded.isPlain r
  have switched := i.flipFlops_execute r
  obtain placed | ⟨first, bytes, supplied⟩ := completes
  · exact (placed.yields spares).frame (placed.yields switched)
  · have spared := supplied.yields (spares.withSupplied first bytes)
    exact spared.frame (supplied.yields (switched.withSupplied first bytes))

/-- In the handler of a non-maskable interrupt that came while interrupts were enabled, the stack at
the beginning of memory. -/
def inHandler : Registers := { af := 0x12FF, pc := 0x0100, sp := 0, iff2 := true }

/-- A return from the handler moves the stack pointer and enables interrupts, and has changed nothing
else but the program counter. -/
theorem frame_execute_retn :
    retn.Decoded ∧ ∃ t,
      (retn.execute inHandler).Completes ({} : Ram)
          ⟨{ inHandler with pc := 0, sp := 2, iff1 := true }, 14, .none⟩ {} t ∧
        retn.Frame inHandler { inHandler with pc := 0, sp := 2, iff1 := true } := by
  have decoded : retn.Decoded := .extended 0x45
  have blank : ∀ address, Bus.read ({} : Ram) address = (.ok 0, {}) := fun address =>
    congrArg (fun byte => (Except.ok byte, ({} : Ram))) (Memory.get_blank address)
  have completes : (retn.execute inHandler).Completes ({} : Ram)
      ⟨{ inHandler with pc := 0, sp := 2, iff1 := true }, 14, .none⟩ {}
      [.access (.read 0 0), .access (.read 1 0)] :=
    Completes.read (blank 0) (.read (blank 1) rfl)
  exact ⟨decoded, _, completes, frame_execute decoded (.inl completes)⟩

end Instruction

end Z80
