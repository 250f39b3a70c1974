import Z80.Proofs.Execution.Phases
import Z80.Proofs.Microprogram.Placed
import Z80.Proofs.Processor.Course

/-!
# Supplied instructions

In mode 0 the interrupting device supplies an instruction, byte for byte, and the processor runs it as
if it stood in memory just before the program counter. This module says what that means. Besides the
step there is the plain run of the instruction, on memory that holds its bytes there
(`Processor.placedRun`), and the step ends with the same registers, the same memory elsewhere, and
two cycles more (`Processor.step_runsAsPlaced`). So an instruction that goes straight on leads back
to where the interrupt came, a call or a restart returns there, and a relative jump counts from there.
-/

namespace Z80

open Microprogram

/-- The bank that a supplied instruction of so many bytes is run from: interrupts are disabled, a halt
is over, and the program counter stands before the bytes. -/
def Registers.placed (r : Registers) (n : Nat) : Registers :=
  { r with iff1 := false, iff2 := false, halted := false, pc := r.pc - UInt16.ofNat n }

namespace Processor

/-- Where a supplied instruction of so many bytes would stand. -/
def placeOf (p : Processor (Scripted Ram)) (n : Nat) : Word := p.registers.pc - UInt16.ofNat n

/-- The supplied instruction, as it stands just before the program counter. -/
def placedProgram (p : Processor (Scripted Ram)) (opcode : Byte) (operands : List Byte) :
    Microprogram Retirement :=
  (Instruction.ofOpcode opcode).execute (p.sampled.registers.placed (operands.length + 1))

/-- The memory of the bus, with the bytes of the instruction stored there. -/
def placedMemory (p : Processor (Scripted Ram)) (opcode : Byte) (operands : List Byte) : Ram :=
  p.bus.bus.load (p.placeOf (operands.length + 1)) (opcode :: operands)

/-- The supplied instruction, run on memory that holds it. -/
def placedRun (p : Processor (Scripted Ram)) (opcode : Byte) (operands : List Byte) :
    Completion Ram Retirement :=
  (p.placedProgram opcode operands).run (p.placedMemory opcode operands)

/-- What that run reads and writes after its operand bytes. -/
def placedData (p : Processor (Scripted Ram)) (opcode : Byte) (operands : List Byte) :
    List Access :=
  (p.placedRun opcode operands).trace.accesses.drop operands.length

/-- The step has gone to an address and has pushed the interrupted one. -/
structure Returns (p : Processor (Scripted Ram)) (target : Word) : Prop where
  pc : p.step.processor.registers.pc = target
  sp : p.step.processor.registers.sp = p.registers.sp - 2
  low : p.step.processor.bus.bus.peek p.step.processor.registers.sp = p.registers.pc.low
  high : p.step.processor.bus.bus.peek (p.step.processor.registers.sp + 1) = p.registers.pc.high

/-- The step has done what the plain run of the supplied instruction does, and has taken its bytes
from acknowledge cycles. -/
structure RunsAsPlaced (p : Processor (Scripted Ram)) (opcode : Byte) (operands rest : List Byte)
    (cycles : Nat) : Prop where
  /-- The plain run completes, with the same registers, and takes two cycles less. -/
  retires : ∃ done, (p.placedRun opcode operands).ending = .ok done ∧
    p.step.processor.registers = done.registers ∧ cycles = done.cycles + 2
  /-- Memory is the same but where the plain run has the bytes of the instruction. -/
  memory : ∀ address, ¬ (p.placeOf (operands.length + 1)).Within (operands.length + 1) address →
    p.step.processor.bus.bus.peek address = (p.placedRun opcode operands).bus.peek address
  queue : p.step.processor.bus.queue = some rest
  /-- There is an acknowledge cycle for each byte, and no read for any. -/
  accesses : p.step.trace.accesses =
    (opcode :: operands).map .acknowledge ++ p.placedData opcode operands
  /-- The plain run does read the operand bytes, and first of all. -/
  placedReads : (p.placedRun opcode operands).trace.accesses =
    Access.reads (p.placeOf (operands.length + 1) + 1) operands ++ p.placedData opcode operands
  straight : (Instruction.ofOpcode opcode).jumps p.registers = false →
    p.step.processor.registers.pc = p.registers.pc
  call : ∀ condition low high, Instruction.ofOpcode opcode = .call condition →
    operands = [low, high] → p.registers.meets condition = true → p.Returns (.ofHalves high low)
  rst : ∀ target, Instruction.ofOpcode opcode = .rst target → p.Returns (.ofByte target)
  jumpRelative : ∀ condition e, Instruction.ofOpcode opcode = .jumpRelative condition →
    operands = [e] → p.step.processor.registers.pc =
      if p.registers.meets condition then p.registers.pc.displace e else p.registers.pc
  djnz : ∀ e, Instruction.ofOpcode opcode = .djnz → operands = [e] →
    p.step.processor.registers.pc =
      if p.registers.readByte .b - 1 != 0 then p.registers.pc.displace e else p.registers.pc

end Processor

namespace Microprogram

/-- Acknowledge cycles take bytes from the front of the queue. -/
lemma acknowledgeBytes_inv {now : Registers} {n : Nat} {s s' : Scripted Ram}
    {queue bytes : List Byte} {t : Trace} (hq : s.queue = some queue)
    (h : (acknowledgeBytes now n).Completes s bytes s' t) :
    ∃ rest, queue = bytes ++ rest ∧ bytes.length = n ∧ s'.queue = some rest ∧ s'.bus = s.bus ∧
      t.accesses = bytes.map .acknowledge := by
  induction n generalizing s queue bytes t with
  | zero =>
    obtain ⟨rfl, rfl, rfl⟩ := h.done_inv
    exact ⟨queue, rfl, rfl, hq, rfl, rfl⟩
  | succ n ih =>
    obtain ⟨byte, middle, t₁, hack, hnext, rfl⟩ := h.acknowledgeByte_bind_inv
    obtain ⟨others, rfl, hq', hbus⟩ := Scripted.acknowledge_ok_inv hq hack
    obtain ⟨bytes', middle', t₂, t₃, hrest, hend, rfl⟩ := hnext.bind_inv
    obtain ⟨rfl, rfl, rfl⟩ := hend.done_inv
    obtain ⟨rest, rfl, rfl, hqueue, hbus', seen⟩ := ih hq' hrest
    refine ⟨rest, rfl, rfl, hqueue, hbus'.trans hbus, ?_⟩
    rw [List.append_nil, List.map_cons, ← seen]
    rfl

/-- What a push does to memory behind a script, supplied bytes or not. -/
lemma push_inv {r : Registers} {value : Word} {f : Registers → Retirement} {first : Word}
    {bytes : List Byte} {s s' : Scripted Ram} {done : Retirement} {t : Trace}
    (h : (((r.push value).bind fun after => .done (f after)).withSupplied first bytes).Completes
      s done s' t) :
    done = f { r with sp := r.sp - 2 } ∧ s'.bus.peek (r.sp - 2) = value.low ∧
      s'.bus.peek (r.sp - 2 + 1) = value.high := by
  obtain ⟨middle, t₁, hlow, hnext, rfl⟩ := h.write_inv
  obtain ⟨after, t₂, hhigh, hend, rfl⟩ := hnext.write_inv
  obtain ⟨rfl, rfl, rfl⟩ := hend.done_inv
  obtain ⟨-, busLow, -⟩ := Scripted.write_ok_inv hlow
  obtain ⟨-, busHigh, -⟩ := Scripted.write_ok_inv hhigh
  refine ⟨rfl, ?_, ?_⟩
  · rw [busHigh, Ram.peek_set, if_neg (Word.ne_add_one _), busLow, Ram.peek_set, if_pos rfl]
  · rw [busHigh, Ram.peek_set, if_pos rfl]

end Microprogram

/-- A step that reports an interrupt in mode 0 has found one to accept. -/
lemma Course.accepts_of_mode0 {r : Registers} {mode : InterruptMode} {a : Advance}
    {seen : List Access} {cycles : Nat} (h : Course r mode a seen)
    (outcome : a.outcome = .interrupted (.maskable .mode0) cycles) :
    r.nmiPending = false ∧ r.acceptsInt = true ∧ mode = .mode0 := by
  cases h with
  | supplied quiet accepts mode0 => exact ⟨quiet, accepts, mode0⟩
  | called _ _ vectored _ other =>
    rw [outcome, StepOutcome.interrupted.injEq, InterruptSource.maskable.injEq] at other
    exact absurd other.1.symm vectored
  | nmi _ other | idle _ _ _ other | fetched _ _ _ _ other =>
    rw [outcome] at other
    cases other

namespace Processor

variable {p : Processor (Scripted Ram)} {opcode : Byte} {operands rest : List Byte} {cycles : Nat}

/-- A step that answers a maskable interrupt in mode 0 has asked for a byte and has run what it stands
for. -/
lemma step_mode0_taken {β : Type} [Bus β] {p : Processor β} {cycles : Nat}
    (hs : p.step.result = .ok (.interrupted (.maskable .mode0) cycles)) :
    ∃ opcode done s t, Bus.acknowledge p.bus = (.ok opcode, s) ∧
      ({ p.sampled.registers.withInterruptsEnabled false with halted := false }.runSupplied
        opcode).Completes s done p.step.processor.bus t ∧
      p.step.processor.registers = done.registers ∧ cycles = done.cycles + 2 ∧
      p.step.trace.accesses = .acknowledge opcode :: t.accesses := by
  obtain hr | ⟨hr, ⟨a, ha⟩ | ⟨abort, ha⟩⟩ := p.step_cases
  · rw [step_of_reset hr] at hs
    cases hs
  · have course := step_course hr ha
    have outcome : a.outcome = .interrupted (.maskable .mode0) cycles := by
      rw [step_of_ok hr ha] at hs
      exact Except.ok.inj hs
    obtain ⟨quiet, accepts, mode0⟩ := course.accepts_of_mode0 outcome
    have completes : (p.sampled.registers.acceptInt p.mode).Completes p.bus a p.attempt.bus
        p.attempt.trace := by
      rw [← Registers.advance_of_acceptsInt quiet accepts]
      exact Completes.of_ending ha
    obtain ⟨entry, t₁, hentry, rfl, seen⟩ := Registers.acceptInt_inv completes
    obtain ⟨opcode, s, t₂, hack, hanswer, rfl⟩ := Registers.enterMaskable_inv hentry
    rw [mode0] at hanswer
    obtain ⟨done, t₃, hrun, registers, charge, same⟩ := Registers.answerInt_mode0_inv hanswer
    refine ⟨opcode, done, s, t₃, hack, ?_, ?_, ?_, ?_⟩
    · rw [step_of_ok hr ha]
      exact hrun
    · rw [step_of_ok hr ha]
      exact registers
    · rw [StepOutcome.interrupted.injEq] at outcome
      exact outcome.2.symm.trans charge
    · rw [accesses_step hr, seen, ← same]
      rfl
  · rw [step_of_error hr ha] at hs
    cases hs

/-- The byte was taken from the queue, if there is one. -/
lemma step_mode0_inv (hq : p.bus.queue = some (opcode :: rest))
    (hs : p.step.result = .ok (.interrupted (.maskable .mode0) cycles)) :
    ∃ done s t, s.queue = some rest ∧ s.bus = p.bus.bus ∧
      ({ p.sampled.registers.withInterruptsEnabled false with halted := false }.runSupplied
        opcode).Completes s done p.step.processor.bus t ∧
      p.step.processor.registers = done.registers ∧ cycles = done.cycles + 2 ∧
      p.step.trace.accesses = .acknowledge opcode :: t.accesses := by
  obtain ⟨byte, done, s, t, hack, ran⟩ := step_mode0_taken hs
  obtain ⟨others, hbyte, hqueue, hbus⟩ := Scripted.acknowledge_ok_inv hq hack
  obtain ⟨rfl, rfl⟩ := List.cons.inj hbyte
  exact ⟨done, s, t, hqueue, hbus, ran⟩

/-- The instruction in memory reads its operand bytes first, then its data. -/
lemma phases_placedProgram (hsize : (Instruction.ofOpcode opcode).size = operands.length + 1) :
    (p.placedProgram opcode operands).ReadsThen (DataPhase 2 2)
      ((p.placeOf (operands.length + 1) + 1).upFrom operands.length) := by
  have count : (Instruction.ofOpcode opcode).operandBytes = operands.length := by
    have := Instruction.size_ofOpcode opcode
    omega
  have phases := (Instruction.ofOpcode opcode).phases_execute
    (p.sampled.registers.placed (operands.length + 1)) (Instruction.isEncodable_ofOpcode opcode)
  rw [count] at phases
  exact phases

/-- The plain run reads the operand bytes and then runs the rest of the instruction. -/
lemma placedRun_eq (hsize : (Instruction.ofOpcode opcode).size = operands.length + 1) :
    p.placedRun opcode operands =
      { ((p.placedProgram opcode operands).answered operands).run
          (p.placedMemory opcode operands) with
        trace := (Access.reads (p.placeOf (operands.length + 1) + 1) operands).map .access ++
          (((p.placedProgram opcode operands).answered operands).run
            (p.placedMemory opcode operands)).trace } := by
  have small := Instruction.size_ofOpcode_le opcode
  have holds : (p.placedMemory opcode operands).Holds (p.placeOf (operands.length + 1))
      (opcode :: operands) := by
    apply Ram.holds_load
    rw [List.length_cons]
    omega
  exact run_answered (phases_placedProgram hsize) holds.2

/-- The data of the instruction in memory are accessed as if it were supplied with its operand
bytes. -/
lemma placedData_eq (hsize : (Instruction.ofOpcode opcode).size = operands.length + 1) :
    p.placedData opcode operands =
      (((p.placedProgram opcode operands).answered operands).run
        (p.placedMemory opcode operands)).trace.accesses := by
  rw [placedData, placedRun_eq hsize, Trace.accesses_append, Trace.accesses_map]
  exact List.drop_left' (Access.length_reads _ operands)

/-- The step and the plain run come to the same rest of the instruction once its operand bytes are
known, and both complete it. -/
lemma step_placed_inv (hq : p.bus.queue = some (opcode :: (operands ++ rest)))
    (hsize : (Instruction.ofOpcode opcode).size = operands.length + 1)
    (out : KeepsOut (p.placeOf (operands.length + 1)) (operands.length + 1)
      (p.placedData opcode operands))
    (hs : p.step.result = .ok (.interrupted (.maskable .mode0) cycles)) :
    ∃ done s t m,
      (((p.placedProgram opcode operands).answered operands).withSupplied
        (p.placeOf (operands.length + 1) + 1) operands).Completes s done p.step.processor.bus t ∧
      ((p.placedProgram opcode operands).answered operands).Completes
        (p.placedMemory opcode operands) done m t ∧
      SameOutside (p.placeOf (operands.length + 1)) (operands.length + 1) p.step.processor.bus m ∧
      p.step.processor.bus.queue = some rest ∧ p.step.processor.registers = done.registers ∧
      cycles = done.cycles + 2 ∧
      p.step.trace.accesses = (opcode :: operands).map .acknowledge ++ t.accesses := by
  obtain ⟨done, s, t, hqueue, hbus, hrun, registers, charge, seen⟩ := step_mode0_inv hq hs
  obtain ⟨bytes, s', t₁, t₂, hack, hexec, rfl⟩ := Registers.runSupplied_inv hrun
  rw [hsize] at hack hexec
  obtain ⟨rest', split, length, hqueue', hbus', asked⟩ := acknowledgeBytes_inv hqueue hack
  obtain ⟨rfl, rfl⟩ := List.append_inj split length.symm
  have small := Instruction.size_ofOpcode_le opcode
  have phases := phases_placedProgram (p := p) hsize
  -- Behind the script the operand bytes are there already.
  have skip := withSupplied_answered phases (by omega)
  have hrest : (((p.placedProgram opcode operands).answered operands).withSupplied
      (p.placeOf (operands.length + 1) + 1) operands).Completes s' done p.step.processor.bus t₂ := by
    rw [← skip]
    exact hexec
  have same : SameOutside (p.placeOf (operands.length + 1)) (operands.length + 1) s'
      (p.placedMemory opcode operands) := by
    have short : (opcode :: operands).length ≤ 65536 := by
      rw [List.length_cons]
      omega
    have loaded := sameOutside_load s' (p.placeOf (operands.length + 1)) short
    rw [hbus', hbus] at loaded
    exact loaded
  rw [placedData_eq hsize] at out
  obtain ⟨m, hm, after, kept⟩ := Completes.placed
    (phases.answered (Word.length_upFrom _ _)) hrest same out
  refine ⟨done, s', t₂, m, hrest, hm, after, kept.trans hqueue', registers, charge, ?_⟩
  rw [seen, Trace.accesses_append, asked]
  rfl

/-- An instruction that pushes the interrupted address and jumps leaves a way back. -/
lemma returns_of_push {i : Instruction} {following value target first : Word} {n : Nat}
    {bytes : List Byte} {s : Scripted Ram} {done : Retirement} {t : Trace}
    (h : ((((p.sampled.registers.placed n).push value).bind fun after =>
      .done (i.retire following after (.jump target))).withSupplied first bytes).Completes
        s done p.step.processor.bus t)
    (interrupted : value = p.registers.pc) (registers : p.step.processor.registers = done.registers) :
    p.Returns target := by
  obtain ⟨rfl, low, high⟩ := push_inv h
  rw [interrupted] at low high
  have sp : p.step.processor.registers.sp = p.registers.sp - 2 := by
    rw [registers]
    rfl
  refine ⟨?_, sp, ?_, ?_⟩
  · rw [registers]
    rfl
  · rw [sp]
    exact low
  · rw [sp]
    exact high

/-- The program counter has moved before the bytes, and comes back over them. -/
lemma pc_placed (p : Processor (Scripted Ram)) (n : Nat) :
    (p.sampled.registers.placed n).pc + UInt16.ofNat n = p.registers.pc :=
  UInt16.sub_add_cancel _ _

/-- Where an instruction stands makes no difference to whether it jumps. -/
lemma jumps_placed (i : Instruction) (p : Processor (Scripted Ram)) (n : Nat) :
    i.jumps (p.sampled.registers.placed n) = i.jumps p.registers := by
  cases i <;> rfl

/-- An instruction in memory that does not jump leads to the interrupted address. -/
lemma pc_of_straight {done : Retirement}
    (hsize : (Instruction.ofOpcode opcode).size = operands.length + 1)
    (straight : (Instruction.ofOpcode opcode).jumps p.registers = false)
    (ending : (p.placedRun opcode operands).ending = .ok done) :
    done.registers.pc = p.registers.pc := by
  have stays := (jumps_placed (Instruction.ofOpcode opcode) p (operands.length + 1)).trans straight
  have pc := (Instruction.pc_execute stays).of_run ending
  rw [hsize, pc_placed] at pc
  exact pc

/-- A relative jump in memory is taken from the interrupted address. -/
lemma pc_of_jumpRelative {condition : Option Condition} {e : Byte} {m m' : Ram} {done : Retirement}
    {t : Trace} (hi : Instruction.ofOpcode opcode = .jumpRelative condition)
    (h : ((p.placedProgram opcode [e]).answered [e]).Completes m done m' t) :
    done.registers.pc =
      if p.registers.meets condition then p.registers.pc.displace e else p.registers.pc := by
  rw [placedProgram, hi, Instruction.answered_jumpRelative] at h
  obtain ⟨rfl, -, -⟩ := h.done_inv
  have back := p.pc_placed 2
  change (p.sampled.registers.placed 2).pc + 2 = _ at back
  rw [Instruction.pc_retire_jumpIf, List.length_singleton, back]
  rfl

/-- A loop instruction in memory jumps from the interrupted address. -/
lemma pc_of_djnz {e : Byte} {m m' : Ram} {done : Retirement} {t : Trace}
    (hi : Instruction.ofOpcode opcode = .djnz)
    (h : ((p.placedProgram opcode [e]).answered [e]).Completes m done m' t) :
    done.registers.pc =
      if p.registers.readByte .b - 1 != 0 then p.registers.pc.displace e else p.registers.pc := by
  rw [placedProgram, hi, Instruction.answered_djnz] at h
  obtain ⟨rfl, -, -⟩ := h.done_inv
  have back := p.pc_placed 2
  change (p.sampled.registers.placed 2).pc + 2 = _ at back
  rw [Instruction.pc_retire_jumpIf, List.length_singleton, back]
  rfl

/-- A supplied instruction that completes does what it does when it stands in memory just before the
program counter, and takes two cycles more, as long as its data is not where it would stand. -/
theorem step_runsAsPlaced (hq : p.bus.queue = some (opcode :: (operands ++ rest)))
    (hsize : (Instruction.ofOpcode opcode).size = operands.length + 1)
    (out : KeepsOut (p.placeOf (operands.length + 1)) (operands.length + 1)
      (p.placedData opcode operands))
    (hs : p.step.result = .ok (.interrupted (.maskable .mode0) cycles)) :
    p.RunsAsPlaced opcode operands rest cycles := by
  obtain ⟨done, s, t, m, hrest, hm, same, queue, registers, charge, seen⟩ :=
    step_placed_inv hq hsize out hs
  have plain := placedRun_eq (p := p) hsize
  have data := placedData_eq (p := p) hsize
  rw [hm] at plain data
  have ending : (p.placedRun opcode operands).ending = .ok done := by
    rw [plain]
  refine ⟨⟨done, ending, registers, charge⟩, ?_, queue, ?_, ?_, ?_, ?_, ?_, ?_, ?_⟩
  · rw [plain]
    exact same.peek
  · rw [seen, data]
  · rw [plain, data, Trace.accesses_append, Trace.accesses_map]
  · intro straight
    rw [registers]
    exact pc_of_straight hsize straight ending
  -- With its operand bytes known, a call that is made has only its push left, and so has a restart.
  · rintro condition low high hi rfl met
    have met' : (p.sampled.registers.placed ([low, high].length + 1)).meets condition = true := met
    rw [placedProgram, hi, Instruction.answered_call met'] at hrest
    exact returns_of_push hrest (p.pc_placed 3) registers
  · intro target hi
    obtain rfl : operands = [] := by
      rw [hi] at hsize
      exact List.length_eq_zero_iff.mp (Nat.succ.inj hsize).symm
    rw [placedProgram, hi, Instruction.answered_rst] at hrest
    exact returns_of_push hrest (p.pc_placed 1) registers
  · rintro condition e hi rfl
    rw [registers]
    exact pc_of_jumpRelative hi hm
  · rintro e hi rfl
    rw [registers]
    exact pc_of_djnz hi hm

/-- A processor at address one whose device supplies a call, which would stand at the end of memory
and at its beginning. -/
def suppliedCall : Processor (Scripted Ram) where
  registers := { pc := 0x0001, sp := 0x8000, iff1 := true, iff2 := true, halted := true }
  mode := .mode0
  lines := { intLevel := true }
  cycles := 40
  config := {}
  bus := { bus := {}, queue := some [0xCD, 0x34, 0x12, 0x99] }

/-- A supplied call leads to its target as the call in memory does, and leaves a way back to the
place of the interrupt. -/
theorem step_runsAsPlaced_suppliedCall :
    suppliedCall.RunsAsPlaced 0xCD [0x34, 0x12] [0x99] 19 ∧ suppliedCall.Returns 0x1234 := by
  have placed : suppliedCall.RunsAsPlaced 0xCD [0x34, 0x12] [0x99] 19 :=
    step_runsAsPlaced rfl rfl (by decide +kernel) rfl
  exact ⟨placed, placed.call none 0x34 0x12 rfl rfl rfl⟩

end Processor

end Z80
