import Z80.Execution.Instruction
import Z80.Proofs.Flag.Outcome
import Z80.Proofs.Microprogram.Completion
import Z80.Proofs.Microprogram.Storage

/-!
# What arithmetic instructions come to

From the numbers in the registers to the numbers and the flags that are left there, for every
operation of the arithmetic unit (`Instruction.byteArithmetic_settles`) and for word arithmetic on HL
(`Instruction.wordArithmetic_settles`). Nothing else changes but the program counter, and an operand
in memory changes only if it is what is counted up or down.
-/

namespace Z80

open Microprogram

/-- What an operation makes of accumulator, operand and carry, and the flags after it. -/
def AluOperation.outcome (operation : AluOperation) (a b : Byte) (carry : Bool) :
    Byte × Flag.States :=
  match operation with
  | add => Byte.sumOutcome a b false
  | adc => Byte.sumOutcome a b carry
  | sub => Byte.differenceOutcome a b false
  | sbc => Byte.differenceOutcome a b carry
  | and => (a &&& b, .ofLogic (a &&& b) true)
  | xor => (a ^^^ b, .ofLogic (a ^^^ b) false)
  | or => (a ||| b, .ofLogic (a ||| b) false)
  | cp => (a, { (Byte.differenceOutcome a b false).2 with bit5 := b.bit 5, bit3 := b.bit 3 })

namespace AluOperation

variable (operation : AluOperation) (a b : Byte) (c : Bool) (flags : Byte)

/-- An operation on bytes comes out as its outcome says. -/
lemma apply_eq : (operation.apply a b c).1 = (operation.outcome a b c).1 := by
  cases operation with
  | add => exact FlagRule.sum_eq a b false
  | adc => exact FlagRule.sum_eq a b c
  | sub => exact FlagRule.difference_eq a b false
  | sbc => exact FlagRule.difference_eq a b c
  | and | xor | or | cp => rfl

/-- An operation on bytes leaves the flags that its outcome says. -/
lemma states_apply :
    Flag.states ((operation.apply a b c).2.apply flags) = (operation.outcome a b c).2 := by
  cases operation with
  | add => exact FlagRule.states_add a b false flags
  | adc => exact FlagRule.states_add a b c flags
  | sub => exact FlagRule.states_sub a b false flags
  | sbc => exact FlagRule.states_sub a b c flags
  | and => exact FlagRule.states_conjunction (a &&& b) flags
  | xor => exact FlagRule.states_disjunction (a ^^^ b) flags
  | or => exact FlagRule.states_disjunction (a ||| b) flags
  | cp => exact FlagRule.states_compare a b flags

end AluOperation

namespace Registers

variable (r : Registers) (u : FlagUpdate)

/-- Flags that are updated after a register was written are made of those before. -/
lemma updateFlags_writeByte {name : ByteRegister} (other : name ≠ .f) (value : Byte) :
    (r.writeByte name value).updateFlags u =
      (r.writeByte name value).withFlags (u.apply r.flags) := by
  have kept : (r.writeByte name value).flags = r.flags :=
    r.readByte_writeByte_ne value other.symm
  rw [updateFlags, kept]

/-- The arithmetic unit changes the accumulator and the flags. -/
lemma alu_eq (operation : AluOperation) (b : Byte) :
    ∃ flags, r.alu operation b = (r.withA (operation.outcome r.a b r.carry).1).withFlags flags ∧
      Flag.states flags = (operation.outcome r.a b r.carry).2 := by
  refine ⟨_, ?_, operation.states_apply r.a b r.carry r.flags⟩
  rw [← operation.apply_eq]
  exact r.updateFlags_writeByte _ (by decide) _

/-- Negation subtracts the accumulator from zero. -/
lemma negate_eq :
    r.negate = (r.withA (AluOperation.sub.outcome 0 r.a false).1).withFlags
      ((FlagRule.sub 0 r.a false).apply r.flags) := by
  rw [← AluOperation.apply_eq]
  exact r.updateFlags_writeByte _ (by decide) _

end Registers

/-- Reading an operand writes nothing. -/
lemma ByteSource.not_writesTo_read {β : Type} [Bus β] {s : ByteSource} {r : Registers} {bus after : β}
    {value : Byte} {t : Trace} (h : (ByteSource.read s r).Completes bus value after t)
    (address : Word) : ¬ Access.WritesTo address t.accesses := by
  have reads : (ByteSource.read s r).Stops fun _ request => ∀ a v, request ≠ some (.write a v) := by
    cases s with
    | register name => exact trivial
    | immediate | indirect pointer => exact ⟨nofun, fun _ => trivial⟩
    | absolute => exact ⟨nofun, fun _ => ⟨nofun, fun _ => ⟨nofun, fun _ => trivial⟩⟩⟩
  rintro ⟨byte, written⟩
  rw [Completes] at h
  have seen : .write address byte ∈ ((ByteSource.read s r).run bus).trace.accesses := by
    rw [h]
    exact written
  obtain ⟨_, other⟩ := reads.of_mem_accesses seen
  exact other address byte rfl

namespace Instruction

section

variable {β : Type} [Bus β]

/-- The instruction completes on the bus, with the trace. It changes the registers as given and
leaves these flags, and the program counter moves to the address after it. -/
def Settles (i : Instruction) (r : Registers) (bus after : β) (t : Trace) (changed : Registers)
    (states : Flag.States) : Prop :=
  ∃ done flags, (i.execute r).Completes bus done after t ∧
    done.registers = { changed.withFlags flags with pc := r.pc + UInt16.ofNat i.size } ∧
    done.effect = .none ∧ Flag.states flags = states

variable {i : Instruction} {r changed : Registers} {bus after : β} {t : Trace} {flags : Byte}
  {states : Flag.States}

/-- An instruction settles what its work on the operands has put out. -/
lemma Settles.of_body (plain : i.effect = .none)
    (body : (i.body r (r.pc + UInt16.ofNat i.size)).Completes bus (changed.withFlags flags, .next)
      after t) (h : Flag.states flags = states) :
    i.Settles r bus after t changed states := by
  refine ⟨i.retire _ (changed.withFlags flags) .next, flags, ?_, rfl, plain, h⟩
  rw [← List.append_nil t]
  exact body.bind rfl

/-- An operation on the accumulator settles its outcome, wherever the operand was read. -/
lemma settles_alu {operation : AluOperation} {source : ByteSource} {b : Byte}
    (h : (ByteSource.read source r).Completes bus b after t) :
    (alu operation source).Settles r bus after t
      (r.withA (operation.outcome r.a b r.carry).1) (operation.outcome r.a b r.carry).2 := by
  obtain ⟨flags, registers, states⟩ := r.alu_eq operation b
  refine Settles.of_body rfl ?_ states
  rw [← List.append_nil t, ← registers]
  exact h.bind rfl

/-- The instruction counts a byte up or down, in a register or in memory at HL, like the operation
does with one. It leaves the carry. -/
structure Counts (instruction : ByteTarget → Instruction) (operation : AluOperation)
    (r : Registers) (bus : β) : Prop where
  inRegister : ∀ name, name ≠ .f →
    (instruction (.register name)).Settles r bus bus []
      (r.writeByte name (operation.outcome (r.readByte name) 1 false).1)
      { (operation.outcome (r.readByte name) 1 false).2 with carry := r.carry }
  inMemory : ∀ value middle after, Bus.read bus r.hl = (.ok value, middle) →
    Bus.write middle r.hl (operation.outcome value 1 false).1 = (.ok (), after) →
      (instruction (.indirect .hl)).Settles r bus after
        [.access (.read r.hl value),
          .access (.write r.hl (operation.outcome value 1 false).1)] r
        { (operation.outcome value 1 false).2 with carry := r.carry }

/-- Both counts have one body: the operand is read and written back with what comes next, and the
rule gives the flags. -/
lemma Counts.of_body {instruction : ByteTarget → Instruction} {operation : AluOperation}
    {next : Byte → Byte} {rule : Byte → FlagUpdate}
    (plain : ∀ target, (instruction target).effect = .none)
    (body : ∀ target r pc, (instruction target).body r pc = do
      let value ← ByteSource.read target.toSource r
      let after ← ByteTarget.write target r (next value)
      return (after.updateFlags (rule value), .next))
    (result : ∀ value, next value = (operation.outcome value 1 false).1)
    (states : ∀ value flags, Flag.states ((rule value).apply flags) =
      { (operation.outcome value 1 false).2 with carry := Flag.isSet flags Flag.carry })
    (r : Registers) (bus : β) : Counts instruction operation r bus := by
  constructor
  · intro name other
    refine Settles.of_body (plain _) ?_ (states (r.readByte name) r.flags)
    rw [body, ← result, ← r.updateFlags_writeByte _ other]
    rfl
  · intro value middle after read write
    refine Settles.of_body (plain _) ?_ (states value r.flags)
    rw [← result] at write ⊢
    rw [body]
    exact Completes.read read (.write write rfl)

/-- To increment a byte is to add one, but the carry stays as it was. -/
lemma counts_incByte (r : Registers) (bus : β) : Counts incByte .add r bus := by
  refine Counts.of_body (fun _ => rfl) (fun _ _ _ => rfl) ?_ FlagRule.states_increment r bus
  intro value
  rw [← AluOperation.apply_eq]
  exact (UInt8.add_zero _).symm

/-- To decrement a byte is to take away one, but the carry stays as it was. -/
lemma counts_decByte (r : Registers) (bus : β) : Counts decByte .sub r bus := by
  refine Counts.of_body (fun _ => rfl) (fun _ _ _ => rfl) ?_ FlagRule.states_decrement r bus
  intro value
  rw [← AluOperation.apply_eq]
  exact (UInt8.sub_zero _).symm

/-- To negate the accumulator is to take it away from zero. -/
lemma settles_neg (r : Registers) (bus : β) :
    neg.Settles r bus bus [] (r.withA (AluOperation.sub.outcome 0 r.a false).1)
      (AluOperation.sub.outcome 0 r.a false).2 := by
  refine Settles.of_body rfl ?_ (FlagRule.states_sub 0 r.a false r.flags)
  rw [← r.negate_eq]
  rfl

/-- Byte arithmetic, whatever is in the registers, on every bus. An operand that can be read is
worked on by the arithmetic unit, and nothing is written. A register other than F is counted up and
down without the bus, and a byte at HL that can be read and written is written once, after it was
read. A negation subtracts the accumulator from zero. -/
theorem byteArithmetic_settles (r : Registers) (bus : β) :
    (∀ operation source b after t, (ByteSource.read source r).Completes bus b after t →
        (alu operation source).Settles r bus after t
            (r.withA (operation.outcome r.a b r.carry).1) (operation.outcome r.a b r.carry).2 ∧
          ∀ address, ¬ Access.WritesTo address t.accesses) ∧
      Counts incByte .add r bus ∧ Counts decByte .sub r bus ∧
      neg.Settles r bus bus [] (r.withA (AluOperation.sub.outcome 0 r.a false).1)
        (AluOperation.sub.outcome 0 r.a false).2 := by
  refine ⟨?_, counts_incByte r bus, counts_decByte r bus, settles_neg r bus⟩
  intro operation source b after t h
  exact ⟨settles_alu h, ByteSource.not_writesTo_read h⟩

end

/-- The largest positive byte in the accumulator, the carry set, HL at the beginning of memory. -/
def mostPositive : Registers := { af := 0x7FFF }

/-- With the carry a zero in memory makes the largest positive byte overflow. The zero counts up to
one, and register B below zero. -/
theorem byteArithmetic_settles_mostPositive :
    (alu .adc (.indirect .hl)).Settles mostPositive ({} : Ram) {} [.access (.read 0 0)]
        { mostPositive with af := 0x80FF } ⟨true, false, false, true, false, true, false, false⟩ ∧
      (incByte (.indirect .hl)).Settles mostPositive ({} : Ram)
        { memory := Memory.blank.set 0 1 } [.access (.read 0 0), .access (.write 0 1)] mostPositive
        ⟨false, false, false, false, false, false, false, true⟩ ∧
      (decByte (.register .b)).Settles mostPositive ({} : Ram) {} [] { mostPositive with bc := 0xFF00 }
        ⟨true, false, true, true, true, false, true, true⟩ := by
  obtain ⟨unit, up, down, -⟩ := byteArithmetic_settles mostPositive ({} : Ram)
  have zero : Bus.read ({} : Ram) mostPositive.hl = (.ok 0, {}) :=
    congrArg (fun byte => (Except.ok byte, ({} : Ram))) (Memory.get_blank 0)
  have overflows : AluOperation.adc.outcome mostPositive.a 0 mostPositive.carry =
      (0x80, ⟨true, false, false, true, false, true, false, false⟩) := by decide +kernel
  have one : AluOperation.add.outcome 0 1 false =
      (1, ⟨false, false, false, false, false, false, false, false⟩) := by decide +kernel
  have below : AluOperation.sub.outcome (mostPositive.readByte .b) 1 false =
      (0xFF, ⟨true, false, true, true, true, false, true, true⟩) := by decide +kernel
  have sum := (unit .adc (.indirect .hl) 0 {} _ (.read zero rfl)).1
  have counted := up.inMemory 0 {} { memory := Memory.blank.set 0 1 } zero
  have lowered := down.inRegister .b (by decide)
  rw [overflows] at sum
  rw [one] at counted
  rw [below] at lowered
  exact ⟨sum, counted rfl, lowered⟩

section

variable {β : Type} [Bus β]

/-- Word arithmetic on HL, whatever is in the registers, on every bus and without it. The operand may
be HL itself. After a subtraction that began without a carry the flags compare HL with the operand:
equality, the words as they are, and what they stand for in two's complement. -/
theorem wordArithmetic_settles (r : Registers) (name : WordRegister) (bus : β) :
    (addHl name).Settles r bus bus []
        (r.writeWord .hl (Word.sumOutcome r.hl (r.readWord name) false).1)
        { (Word.sumOutcome r.hl (r.readWord name) false).2 with
          sign := (Flag.states r.flags).sign
          zero := (Flag.states r.flags).zero
          parity := (Flag.states r.flags).parity } ∧
      (adcHl name).Settles r bus bus []
        (r.writeWord .hl (Word.sumOutcome r.hl (r.readWord name) r.carry).1)
        (Word.sumOutcome r.hl (r.readWord name) r.carry).2 ∧
      (sbcHl name).Settles r bus bus []
        (r.writeWord .hl (Word.differenceOutcome r.hl (r.readWord name) r.carry).1)
        (Word.differenceOutcome r.hl (r.readWord name) r.carry).2 ∧
      (r.carry = false → ∃ result states,
        (sbcHl name).Settles r bus bus [] (r.writeWord .hl result) states ∧
          (states.zero = true ↔ r.hl = r.readWord name) ∧
          (states.carry = true ↔ r.hl.toNat < (r.readWord name).toNat) ∧
          ((states.sign ^^ states.parity) = true ↔
            (r.hl.toNat : Int).bmod 65536 < ((r.readWord name).toNat : Int).bmod 65536)) := by
  have sum := FlagRule.states_addWord r.hl (r.readWord name) r.flags
  have sumCarry := FlagRule.states_adcWord r.hl (r.readWord name) r.carry r.flags
  have difference := FlagRule.states_sbcWord r.hl (r.readWord name) r.carry r.flags
  have settles : (sbcHl name).Settles r bus bus []
      (r.writeWord .hl (Word.differenceOutcome r.hl (r.readWord name) r.carry).1)
      (Word.differenceOutcome r.hl (r.readWord name) r.carry).2 := by
    refine Settles.of_body rfl ?_ difference
    rw [← FlagRule.wordDifference_eq]
    rfl
  refine ⟨?_, ?_, settles, ?_⟩
  · refine Settles.of_body rfl ?_ sum
    rw [← FlagRule.wordSum_eq, show FlagRule.wordSum r.hl (r.readWord name) false = _ from
      UInt16.add_zero _]
    rfl
  · refine Settles.of_body rfl ?_ sumCarry
    rw [← FlagRule.wordSum_eq]
    rfl
  · intro clear
    -- A subtraction without a borrow before it compares.
    rw [clear] at settles
    obtain ⟨zero, carry, signed⟩ := FlagRule.differenceOutcome_compares r.hl (r.readWord name)
    refine ⟨_, _, settles, ?_, ?_, ?_⟩
    · rw [zero, decide_eq_true_iff]
    · rw [carry, decide_eq_true_iff]
    · rw [signed, decide_eq_true_iff]

end

/-- The most negative word in HL and one in SP, the carry clear. -/
def mostNegative : Registers := { af := 0xFF00, hl := 0x8000, sp := 1 }

/-- The most negative word is above one as it is, and below it in two's complement. -/
theorem wordArithmetic_settles_mostNegative :
    mostNegative.carry = false ∧ ∃ result states,
      (sbcHl .sp).Settles mostNegative ({} : Ram) {} [] (mostNegative.writeWord .hl result) states ∧
        states.zero = false ∧ states.carry = false ∧ (states.sign ^^ states.parity) = true := by
  have clear : mostNegative.carry = false := by decide
  obtain ⟨-, -, -, compares⟩ := wordArithmetic_settles mostNegative .sp ({} : Ram)
  obtain ⟨result, states, settles, zero, carry, signed⟩ := compares clear
  refine ⟨clear, result, states, settles, ?_, ?_, ?_⟩
  · exact Bool.eq_false_iff.mpr fun h => absurd (zero.mp h) (by decide)
  · exact Bool.eq_false_iff.mpr fun h => absurd (carry.mp h) (by decide)
  · exact signed.mpr (by decide)

end Instruction

end Z80
