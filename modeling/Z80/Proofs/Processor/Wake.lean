import Z80.Proofs.Processor.Atomicity
import Z80.Proofs.Processor.Course

/-!
# Steps of a halted processor

While nothing disturbs it (`Processor.Undisturbed`) a halted processor idles, and a step shows in the
level of the interrupt line that it has sampled and in nothing else (`Processor.idles`). An interrupt
that is let in wakes it: the step enters the handler or runs the instruction that the device supplies,
or it stops short and the processor stays halted where it was (`Processor.wakes`). A step leaves the
processor halted only if it completes a `HALT` or found it halted already (`Processor.halts`).
-/

namespace Z80

open Microprogram

/-- The writes of a push, the low byte first. -/
def Access.pushes (sp value : Word) : List Access :=
  [.write (sp - 2) value.low, .write (sp - 2 + 1) value.high]

namespace Registers

/-- Where the handler of a maskable interrupt stands, if it is called: at a fixed address, or at the
one that the vector base and the byte of the device make up. -/
def vector? (r : Registers) : InterruptMode → Byte → Option Word
  | .mode0, _ => none
  | .mode1, _ => some mode1Vector
  | .mode2, data => some (.ofHalves r.i data)

/-- The registers when a handler has been called, with the pending flip-flops left alone. -/
def calling (r : Registers) (vector : Word) : Registers :=
  { r with pc := vector, sp := r.sp - 2, iff1 := false, halted := false }

/-- The registers when the acknowledge cycle of a maskable interrupt is over. -/
def acknowledged (r : Registers) : Registers :=
  { r with iff1 := false, iff2 := false, halted := false }

section

variable {β : Type} [Bus β] {bus after : β} {t : Trace} {r : Registers} {mode : InterruptMode}

/-- A call stores the program counter under the stack and goes on at its target. -/
lemma callTo_inv {target : Word} {entered : Registers}
    (h : (r.callTo target).Completes bus entered after t) :
    entered = { r with sp := r.sp - 2, pc := target } ∧ t.accesses = Access.pushes r.sp r.pc := by
  change (Microprogram.write r (r.sp - 2) r.pc.low (.write r (r.sp - 2 + 1) r.pc.high
    (.done { r with sp := r.sp - 2, pc := target }))).Completes bus entered after t at h
  obtain ⟨_, _, -, low, rfl⟩ := h.write_inv
  obtain ⟨_, _, -, high, rfl⟩ := low.write_inv
  obtain ⟨rfl, -, rfl⟩ := high.done_inv
  exact ⟨rfl, rfl⟩

/-- A non-maskable interrupt that was accepted has called its handler, with the return address
pushed. -/
lemma acceptNmi_inv {a : Advance} (h : (r.acceptNmi mode).Completes bus a after t) :
    a = ⟨{ r.calling nmiVector with nmiPending := false }, mode,
        .interrupted .nmi Cost.nmiEntry.cycles⟩ ∧
      t.accesses = Access.pushes r.sp r.pc := by
  obtain ⟨entered, _, t₁, t₂, call, rest, rfl⟩ := h.bind_inv
  obtain ⟨_, event, rfl⟩ := rest.tell_bind_inv
  obtain ⟨_, last, rfl⟩ := event.tell_bind_inv
  obtain ⟨rfl, -, rfl⟩ := last.done_inv
  obtain ⟨rfl, pushes⟩ := callTo_inv call
  refine ⟨rfl, ?_⟩
  rw [Trace.accesses_append, pushes]
  rfl

/-- A maskable interrupt that was accepted: the handler was called, or the instruction was run that
the device has supplied. -/
inductive Accepted (r : Registers) (mode : InterruptMode) (bus after : β) (a : Advance)
    (seen : List Access) : Prop where
  | called (byte : Byte) (vector : Word) (selects : r.vector? mode byte = some vector) (cycles : Nat)
      (advance : a = ⟨{ r.calling vector with iff2 := false }, mode,
        .interrupted (.maskable mode) cycles⟩)
      (pushes : seen = .acknowledge byte :: Access.pushes r.sp r.pc)
  | supplied (mode0 : mode = .mode0) (byte : Byte) (answered : β)
      (answer : Bus.acknowledge bus = (.ok byte, answered)) (done : Retirement) (t : Trace)
      (runs : (r.acknowledged.runSupplied byte).Completes answered done after t)
      (registers : a.registers = done.registers)
      (outcome : a.outcome =
        .interrupted (.maskable mode) (done.cycles + Cost.mode0Overhead.cycles))
      (accesses : seen = .acknowledge byte :: t.accesses)

/-- A maskable interrupt that was accepted has called its handler or run the supplied
instruction. -/
lemma accepted_of_acceptInt {a : Advance} (h : (r.acceptInt mode).Completes bus a after t) :
    Accepted r mode bus after a t.accesses := by
  obtain ⟨entry, t₁, entered, rfl, same⟩ := acceptInt_inv h
  obtain ⟨byte, middle, t₂, answer, answers, rfl⟩ := enterMaskable_inv entered
  rw [same]
  cases mode with
  | mode0 =>
    obtain ⟨done, t₃, runs, registers, cycles, accesses⟩ := answerInt_mode0_inv answers
    refine .supplied rfl byte middle answer done t₃ runs registers ?_ ?_
    · rw [cycles]
    · exact congrArg (.acknowledge byte :: ·) accesses
  | mode1 =>
    -- The device's byte is asked for in mode 1 too, and makes no difference there.
    obtain ⟨called, middle', t₃, t₄, call, last, rfl⟩ := answers.bind_inv
    obtain ⟨rfl, -, rfl⟩ := last.done_inv
    obtain ⟨rfl, pushes⟩ := callTo_inv call
    refine .called byte mode1Vector rfl _ rfl ?_
    rw [List.append_nil]
    exact congrArg (.acknowledge byte :: ·) pushes
  | mode2 =>
    obtain ⟨called, middle', t₃, t₄, call, last, rfl⟩ := answers.bind_inv
    obtain ⟨rfl, -, rfl⟩ := last.done_inv
    obtain ⟨rfl, pushes⟩ := callTo_inv call
    refine .called byte (.ofHalves r.i byte) rfl _ rfl ?_
    rw [List.append_nil]
    exact congrArg (.acknowledge byte :: ·) pushes

end

end Registers

namespace Processor

variable {β : Type}

/-- No reset is requested, no non-maskable interrupt waits, and the maskable interrupt line is low or
interrupts are disabled. -/
structure Undisturbed (p : Processor β) : Prop where
  unasked : p.lines.resetRequested = false
  quiet : p.nmiWaiting = false
  masked : ¬ (p.lines.intLevel = true ∧ p.registers.iff1 = true)

/-- Without a non-maskable interrupt only the level of the other line is sampled. -/
lemma sampled_of_quiet {p : Processor β} (quiet : p.nmiWaiting = false) :
    p.sampled.registers = { p.registers with intPending := p.lines.intLevel } := by
  have pending : p.registers.nmiPending = false := (Bool.or_eq_false_iff.mp quiet).1
  show { p.registers with nmiPending := p.nmiWaiting, intPending := p.lines.intLevel } = _
  rw [quiet, ← pending]

variable [Bus β] {p : Processor β}

/-- The step idles: it costs four cycles, does nothing on the bus, and shows only in the level that it
has sampled. -/
structure Idles (p : Processor β) : Prop where
  result : p.step.result = .ok (.halted 4)
  silent : p.step.trace.accesses = []
  registers : p.step.processor.registers = { p.registers with intPending := p.lines.intLevel }

/-- A halted processor that nothing disturbs idles, unless it is in the shadow of an enable. -/
lemma idles (halted : p.registers.halted = true) (unshadowed : p.registers.eiExecuted = false)
    (undisturbed : p.Undisturbed) : p.Idles := by
  obtain ⟨unasked, quiet, masked⟩ := undisturbed
  have rejects : p.sampled.registers.acceptsInt = false := by
    rw [Bool.eq_false_iff, ne_eq, Registers.acceptsInt_iff]
    exact fun ⟨level, enabled, _⟩ => masked ⟨level, enabled⟩
  have advance := Registers.advance_of_halted (r := p.sampled.registers) quiet rejects halted p.mode
  have attempt : p.attempt = ⟨.ok _, p.bus, []⟩ := congrArg (·.run p.bus) advance
  have ending := congrArg Completion.ending attempt
  refine ⟨?_, ?_, ?_⟩
  · rw [step_of_ok unasked ending]
    rfl
  · rw [accesses_step unasked, attempt]
    rfl
  · rw [step_of_ok unasked ending]
    show ({ p.sampled.registers with eiExecuted := false } : Registers) = _
    rw [sampled_of_quiet quiet, ← unshadowed]

/-- With these registers held so far, the step enters the interrupt that waits, the non-maskable one
first, or it stops short. -/
inductive Wakes (held : Registers) (p : Processor β) : Prop where
  /-- The handler of the non-maskable interrupt is called. -/
  | nmi (waiting : p.nmiWaiting = true)
      (result : p.step.result = .ok (.interrupted .nmi Cost.nmiEntry.cycles))
      (pushes : p.step.trace.accesses = Access.pushes held.sp held.pc)
      (registers : p.step.processor.registers =
        { held.calling nmiVector with nmiPending := false, intPending := p.lines.intLevel })
  /-- The handler of the maskable interrupt is called. -/
  | called (quiet : p.nmiWaiting = false) (byte : Byte) (vector : Word)
      (selects : held.vector? p.mode byte = some vector) (cycles : Nat)
      (result : p.step.result = .ok (.interrupted (.maskable p.mode) cycles))
      (pushes : p.step.trace.accesses = .acknowledge byte :: Access.pushes held.sp held.pc)
      (registers : p.step.processor.registers =
        { held.calling vector with iff2 := false, intPending := true })
  /-- The instruction that the device supplies is run, by a processor that is not halted any more. -/
  | supplied (quiet : p.nmiWaiting = false) (mode0 : p.mode = .mode0) (byte : Byte) (answered : β)
      (answer : Bus.acknowledge p.bus = (.ok byte, answered)) (done : Retirement) (t : Trace)
      (runs : ({ held.acknowledged with intPending := true }.runSupplied byte).Completes answered done
        p.step.processor.bus t)
      (result : p.step.result =
        .ok (.interrupted (.maskable .mode0) (done.cycles + Cost.mode0Overhead.cycles)))
      (accesses : p.step.trace.accesses = .acknowledge byte :: t.accesses)
      (registers : p.step.processor.registers = done.registers)
  /-- The step stops short, and the processor stays halted where it is. -/
  | failed (fault : Fault) (result : p.step.result = .error fault)
      (registers : p.step.processor.registers = p.sampled.registers)
      (halted : p.step.processor.registers.halted = true)
      (pc : p.step.processor.registers.pc = held.pc)

/-- The level that was sampled before is sampled again, so it does not matter. -/
lemma Wakes.of_sampled {held : Registers} {level : Bool}
    (h : p.Wakes { held with intPending := level }) : p.Wakes held := by
  cases h with
  | nmi waiting result pushes registers => exact .nmi waiting result pushes registers
  | called quiet byte vector selects cycles result pushes registers =>
    have selects' : held.vector? p.mode byte = some vector := by
      rw [← selects]
      cases p.mode <;> rfl
    exact .called quiet byte vector selects' cycles result pushes registers
  | supplied quiet mode0 byte answered answer done t runs result accesses registers =>
    exact .supplied quiet mode0 byte answered answer done t runs result accesses registers
  | failed fault result registers halted pc => exact .failed fault result registers halted pc

/-- A halted processor whose step stops short stays halted, with the registers as they were. -/
lemma wakes_of_abort (halted : p.registers.halted = true) (unasked : p.lines.resetRequested = false)
    {abort : Abort} (ending : p.attempt.ending = .error abort) : p.Wakes p.registers := by
  have registers : p.step.processor.registers = p.sampled.registers := by
    rw [step_of_error unasked ending]
    exact registers_of_abort ending
  refine .failed abort.fault ?_ registers ?_ ?_
  · rw [step_of_error unasked ending]
  · rw [registers]
    exact halted
  · rw [registers]
    rfl

/-- A non-maskable interrupt wakes a halted processor. -/
lemma wakes_of_nmiWaiting (halted : p.registers.halted = true)
    (unasked : p.lines.resetRequested = false) (waiting : p.nmiWaiting = true) :
    p.Wakes p.registers := by
  obtain asked | ⟨-, ⟨a, ending⟩ | ⟨abort, ending⟩⟩ := p.step_cases
  · exact absurd (asked.symm.trans unasked) nofun
  · have advance := Registers.advance_of_nmiPending (r := p.sampled.registers) waiting p.mode
    have completes : (p.sampled.registers.acceptNmi p.mode).Completes p.bus a p.attempt.bus
        p.attempt.trace := by
      rw [← advance]
      exact Completes.of_ending ending
    obtain ⟨rfl, pushes⟩ := Registers.acceptNmi_inv completes
    refine .nmi waiting ?_ ((accesses_step unasked).trans pushes) ?_
    · rw [step_of_ok unasked ending]
    · rw [step_of_ok unasked ending]
      rfl
  · exact wakes_of_abort halted unasked ending

/-- A maskable interrupt that is enabled wakes a halted processor. -/
lemma wakes_of_intLevel (halted : p.registers.halted = true)
    (unshadowed : p.registers.eiExecuted = false) (unasked : p.lines.resetRequested = false)
    (quiet : p.nmiWaiting = false) (level : p.lines.intLevel = true)
    (enabled : p.registers.iff1 = true) : p.Wakes p.registers := by
  have sampled := sampled_of_quiet quiet
  rw [level] at sampled
  obtain asked | ⟨-, ⟨a, ending⟩ | ⟨abort, ending⟩⟩ := p.step_cases
  · exact absurd (asked.symm.trans unasked) nofun
  · have accepts : p.sampled.registers.acceptsInt = true :=
      p.sampled.registers.acceptsInt_iff.mpr ⟨level, enabled, unshadowed⟩
    have advance := Registers.advance_of_acceptsInt (r := p.sampled.registers) quiet accepts p.mode
    have completes : (p.sampled.registers.acceptInt p.mode).Completes p.bus a p.attempt.bus
        p.attempt.trace := by
      rw [← advance]
      exact Completes.of_ending ending
    rw [sampled] at completes
    obtain ⟨byte, vector, selects, cycles, rfl, pushes⟩ |
      ⟨mode0, byte, answered, answer, done, t, runs, registers, outcome, accesses⟩ :=
        Registers.accepted_of_acceptInt completes
    -- The device's byte has selected a handler, or it stood for an instruction in mode 0.
    · refine .called quiet byte vector selects cycles ?_ ((accesses_step unasked).trans pushes) ?_
      · rw [step_of_ok unasked ending]
      · rw [step_of_ok unasked ending]
        rfl
    · refine .supplied quiet mode0 byte answered answer done t ?_ ?_
        ((accesses_step unasked).trans accesses) ?_
      · rw [step_of_ok unasked ending]
        exact runs
      · rw [step_of_ok unasked ending, ← mode0]
        exact congrArg Except.ok outcome
      · rw [step_of_ok unasked ending]
        exact registers
  · exact wakes_of_abort halted unasked ending

/-- An interrupt that is let in wakes a halted processor, unless it is in the shadow of an enable. -/
lemma wakes (halted : p.registers.halted = true) (unshadowed : p.registers.eiExecuted = false)
    (unasked : p.lines.resetRequested = false)
    (disturbed : p.nmiWaiting = true ∨ p.lines.intLevel = true ∧ p.registers.iff1 = true) :
    p.Wakes p.registers := by
  cases waiting : p.nmiWaiting with
  | true => exact wakes_of_nmiWaiting halted unasked waiting
  | false =>
    obtain waits | ⟨level, enabled⟩ := disturbed
    · exact absurd (waiting.symm.trans waits) nofun
    · exact wakes_of_intLevel halted unshadowed unasked waiting level enabled

end Processor

namespace Instruction

/-- One opcode alone halts the processor. -/
lemma eq_of_ofOpcode_eq_halt : ∀ opcode : Byte, ofOpcode opcode = halt → opcode = 0x76 :=
  Byte.forall_of_lt (by decide +kernel)

/-- No opcode of the extended page halts the processor. -/
lemma ofExtendedOpcode_ne_halt : ∀ opcode : Byte, ofExtendedOpcode opcode ≠ halt :=
  Byte.forall_of_lt (by decide +kernel)

/-- Only one instruction halts a processor that runs. -/
lemma eq_halt_of_halted {i : Instruction} {s : FlipFlops} (running : s.halted = false)
    (halted : (i.switch s).halted = true) : i = halt := by
  cases i with
  | halt => rfl
  | _ => exact absurd (running.symm.trans halted) nofun

end Instruction

namespace Registers

variable {β : Type} [Bus β] {bus after : β} {t : Trace} {r : Registers}

/-- A fetched instruction that leaves a processor halted is a `HALT`, and the program counter has moved
over it. -/
lemma fetchExecute_halt_inv {mode : InterruptMode} {a : Advance}
    (h : (r.fetchExecute mode).Completes bus a after t) (running : r.halted = false)
    (halted : a.registers.halted = true) :
    a.outcome = .retired 4 ∧ t.accesses = [.read r.pc 0x76] ∧ a.registers.pc = r.pc + 1 := by
  obtain ⟨opcode, i, done, bus₁, bus₂, bus₃, t₁, t₂, decoded, executed, registers, outcome, seen⟩ :=
    fetchExecute_parts h
  have switched := congrArg FlipFlops.halted (executed.yields (i.flipFlops_execute r))
  rw [registers] at halted
  obtain rfl := Instruction.eq_halt_of_halted running (switched.symm.trans halted)
  obtain ⟨rfl, -, rfl⟩ := executed.done_inv
  obtain ⟨-, extended, meaning, -⟩ | ⟨-, meaning, none⟩ := decodeRest_inv decoded
  · exact absurd meaning.symm (Instruction.ofExtendedOpcode_ne_halt extended)
  · rw [Instruction.eq_of_ofOpcode_eq_halt opcode meaning.symm, none] at seen
    exact ⟨outcome, seen, congrArg Registers.pc registers⟩

/-- A supplied instruction that leaves a processor halted is a `HALT`, and the program counter is where
it was. -/
lemma runSupplied_halt_inv {opcode : Byte} {done : Retirement}
    (h : (r.runSupplied opcode).Completes bus done after t) (running : r.halted = false)
    (halted : done.registers.halted = true) :
    opcode = 0x76 ∧ done.cycles = 4 ∧ t = [] ∧ done.registers.pc = r.pc := by
  have switched := congrArg FlipFlops.halted (h.yields (flipFlops_runSupplied r opcode))
  have meaning := Instruction.eq_halt_of_halted running (switched.symm.trans halted)
  obtain rfl := Instruction.eq_of_ofOpcode_eq_halt opcode meaning
  obtain ⟨rfl, -, rfl⟩ := h.done_inv
  exact ⟨rfl, rfl, rfl, UInt16.sub_add_cancel r.pc 1⟩

end Registers

namespace Processor

variable {β : Type} [Bus β] {p : Processor β}

/-- How the processor has become or has stayed halted in a step. -/
inductive Halts (p : Processor β) : Prop where
  /-- The instruction at the program counter was a `HALT`, and the program counter is behind it. -/
  | fetched (result : p.step.result = .ok (.retired 4))
      (seen : p.step.trace.accesses = [.read p.registers.pc 0x76])
      (pc : p.step.processor.registers.pc = p.registers.pc + 1)
  /-- The device has supplied a `HALT`, which stands before the program counter. -/
  | supplied (result : p.step.result = .ok (.interrupted (.maskable .mode0) 6))
      (seen : p.step.trace.accesses = [.acknowledge 0x76])
      (pc : p.step.processor.registers.pc = p.registers.pc)
  | idle (halted : p.registers.halted = true) (result : p.step.result = .ok (.halted 4))
      (pc : p.step.processor.registers.pc = p.registers.pc)
  | failed (halted : p.registers.halted = true) (fault : Fault)
      (result : p.step.result = .error fault)
      (pc : p.step.processor.registers.pc = p.registers.pc)

/-- A step that completes with the processor halted has halted it or found it so. -/
lemma halts_of_ok {a : Advance} (unasked : p.lines.resetRequested = false)
    (ending : p.attempt.ending = .ok a) (halted : a.registers.halted = true) : p.Halts := by
  have completes : (p.sampled.registers.advance p.mode).Completes p.bus a p.attempt.bus
      p.attempt.trace := Completes.of_ending ending
  have result : p.step.result = .ok a.outcome := by rw [step_of_ok unasked ending]
  have registers : p.step.processor.registers = a.registers := by rw [step_of_ok unasked ending]
  have accesses := accesses_step unasked
  cases step_course unasked ending with
  | nmi _ _ flipFlops | called _ _ _ _ _ _ _ _ flipFlops =>
    -- A handler is never entered halted.
    exact absurd ((congrArg FlipFlops.halted flipFlops).symm.trans halted) nofun
  | supplied quiet accepts mode0 =>
    rw [Registers.advance_of_acceptsInt quiet accepts] at completes
    obtain ⟨byte, vector, selects, -⟩ |
      ⟨-, byte, answered, -, done, t, runs, same, outcome, seen⟩ :=
        Registers.accepted_of_acceptInt completes
    -- In mode 0 no byte selects a handler.
    · change p.sampled.registers.vector? p.mode byte = _ at selects
      rw [mode0] at selects
      cases selects
    · rw [same] at halted registers
      obtain ⟨rfl, cycles, rfl, pc⟩ := Registers.runSupplied_halt_inv runs rfl halted
      refine .supplied ?_ (accesses.trans seen) (registers ▸ pc)
      rw [result, outcome, cycles, mode0]
      rfl
  | idle quiet rejects before outcome =>
    rw [Registers.advance_of_halted quiet rejects before] at completes
    obtain ⟨rfl, -, -⟩ := completes.done_inv
    refine .idle before result ?_
    rw [registers]
    rfl
  | fetched quiet rejects running =>
    rw [Registers.advance_of_running quiet rejects running] at completes
    obtain ⟨outcome, seen, pc⟩ :=
      Registers.fetchExecute_halt_inv completes.onAbort_inv running halted
    exact .fetched (outcome ▸ result) (accesses.trans seen) (registers ▸ pc)

/-- A step that leaves the processor halted has completed a `HALT`, or the processor was halted and
stays where it is. -/
lemma halts (halted : p.step.processor.registers.halted = true) : p.Halts := by
  obtain asked | ⟨unasked, ⟨a, ending⟩ | ⟨abort, ending⟩⟩ := p.step_cases
  · rw [step_of_reset asked] at halted
    cases halted
  · rw [step_of_ok unasked ending] at halted
    exact halts_of_ok unasked ending halted
  · have registers : p.step.processor.registers = p.sampled.registers := by
      rw [step_of_error unasked ending]
      exact registers_of_abort ending
    rw [registers] at halted
    refine .failed halted abort.fault ?_ ?_
    · rw [step_of_error unasked ending]
    · rw [registers]
      rfl

end Processor

end Z80
