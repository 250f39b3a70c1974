import Z80.Execution.Instruction
import Z80.Microprogram.Supplied
import Z80.Processor.Basic

/-!
# Steps

Between instructions the processor looks at its inputs. What it does in a step is, in this order of
precedence: a requested reset, a pending non-maskable interrupt, a maskable interrupt that is
enabled and not held off by an enable just before it, an idle cycle while it is halted, the
instruction at the program counter.

What a step does on the bus is one microprogram, and its registers and mode are taken over when it
ends. A step that stops short leaves the registers as they stood at the access that failed, after two
repairs: an answer to a maskable interrupt is taken back as a whole, and an instruction that was
held off from interrupts stays so when it is tried again.

Main statements: a step that does not fault either carries out a requested reset, at no cost, or
charges at least four cycles and at most twenty-one (`Processor.result_step`).
-/

namespace Z80

/-- Where a non-maskable interrupt goes. -/
def nmiVector : Word := 0x0066

/-- Where a maskable interrupt goes in mode 1. -/
def mode1Vector : Word := 0x0038

/-- What a step did, and the cycles it was charged. -/
inductive StepOutcome where
  | reset
  | retired (cycles : Nat)
  | halted (cycles : Nat)
  | interrupted (source : InterruptSource) (cycles : Nat)
  deriving DecidableEq, Repr

def StepOutcome.cycles : StepOutcome → Nat
  | reset => 0
  | retired cycles | halted cycles | interrupted _ cycles => cycles

/-- The state that a completed step leaves, and what it did. -/
structure Advance where
  registers : Registers
  mode : InterruptMode
  outcome : StepOutcome

/-- A step: the processor afterwards, what the step did or why it stopped short, and what was
seen. -/
structure Step (β : Type) where
  processor : Processor β
  result : Except Fault StepOutcome
  trace : Trace

namespace Retirement

/-- Takes note of what an instruction asks of the processor, and gives the mode afterwards. -/
def settle (done : Retirement) (mode : InterruptMode) : Microprogram InterruptMode :=
  match done.effect with
  | .none => return mode
  | .halt => do
    .tell (.record (.halted done.registers.pc))
    return mode
  | .selectMode selected => do
    .tellRecords (Processor.modeRecords mode selected)
    return selected

end Retirement

namespace Registers

/-- Enters the handler of the non-maskable interrupt. The copy of the enable stays. -/
def acceptNmi (r : Registers) (mode : InterruptMode) : Microprogram Advance := do
  let entered ← r.callTo nmiVector
  .tell (.record .nmiAccepted)
  .tell (.event (.interruptAccepted .nmi nmiVector))
  return {
    registers := { entered with iff1 := false, nmiPending := false, halted := false }
    mode := mode
    outcome := .interrupted .nmi Cost.nmiEntry.cycles }

/-- Runs an instruction whose first byte the interrupting device has supplied. Its operand bytes
come from further acknowledge cycles, and it stands just before the program counter, so that its own
advance leads back there. -/
def runSupplied (r : Registers) (opcode : Byte) : Microprogram Retirement := do
  let i := Instruction.ofOpcode opcode
  let operands ← .acknowledgeBytes r (i.size - 1)
  let start := r.pc - UInt16.ofNat i.size
  (i.execute { r with pc := start }).withSupplied (start + 1) operands

/-- Answers a maskable interrupt in a mode, when the device has put a byte on the bus: the registers
and the mode afterwards, and the cycles. -/
def answerInt (r : Registers) (mode : InterruptMode) (data : Byte) :
    Microprogram (Registers × InterruptMode × Nat) :=
  match mode with
  | .mode0 => do
    let done ← r.runSupplied data
    let after ← done.settle mode
    return (done.registers, after, done.cycles + Cost.mode0Overhead.cycles)
  | .mode1 => do
    let entered ← r.callTo mode1Vector
    return (entered, mode, Cost.mode1Entry.cycles)
  | .mode2 => do
    let entered ← r.callTo (.ofHalves r.i data)
    return (entered, mode, Cost.mode2Entry.cycles)

/-- Asks the device for a byte, disables interrupts, ends a halt, and answers the interrupt. -/
def enterMaskable (r : Registers) (mode : InterruptMode) :
    Microprogram (Registers × InterruptMode × Nat) := do
  let data ← .acknowledgeByte r
  { r.withInterruptsEnabled false with halted := false }.answerInt mode data

/-- Accepts a maskable interrupt. If that stops short, the registers are as before. -/
def acceptInt (r : Registers) (mode : InterruptMode) : Microprogram Advance := do
  let (entered, after, cycles) ← (r.enterMaskable mode).onAbort fun _ => r
  .tell (.record (.intAccepted after entered.pc))
  .tell (.event (.interruptAccepted (.maskable mode) entered.pc))
  return { registers := entered, mode := after, outcome := .interrupted (.maskable mode) cycles }

/-- Fetches the instruction at the program counter and carries it out. -/
def fetchExecute (r : Registers) (mode : InterruptMode) : Microprogram Advance := do
  let opcode ← .readByte r r.pc
  .tell (.event (.instructionStart r.pc opcode))
  let i ← Instruction.decodeRest r r.pc opcode
  .tell (.record (.decoded r.pc i))
  let done ← i.execute r
  let after ← done.settle mode
  .tell (.event (.instructionRetired r.pc (.ofNat done.cycles)))
  return { registers := done.registers, mode := after, outcome := .retired done.cycles }

/-- A maskable interrupt is accepted when it is pending, enabled and not held off. -/
def acceptsInt (r : Registers) : Bool := r.intPending && r.iff1 && !r.eiExecuted

/-- What the processor does in a step without a reset, when its inputs have been sampled. -/
def advance (r : Registers) (mode : InterruptMode) : Microprogram Advance :=
  if r.nmiPending then r.acceptNmi mode
  else if r.acceptsInt then r.acceptInt mode
  else
    let lifted := { r with eiExecuted := false }
    if r.halted then
      return { registers := lifted, mode := mode, outcome := .halted Cost.nop.cycles }
    else
      -- An instruction that stops short is tried again, and is held off from interrupts still.
      (lifted.fetchExecute mode).onAbort fun left => { left with eiExecuted := r.eiExecuted }

/-- An instruction that a device supplies is charged between 4 and 19 cycles. -/
theorem cycles_runSupplied (r : Registers) (opcode : Byte) :
    (r.runSupplied opcode).Yields fun done => 4 ≤ done.cycles ∧ done.cycles ≤ 19 := by
  apply Microprogram.Yields.bind (Microprogram.Yields.of_forall (fun _ => trivial) _)
  intro _ _
  exact Microprogram.Yields.withSupplied (Instruction.cycles_execute _ _) _ _

/-- A supplied instruction costs two cycles more than a fetched one. -/
theorem cycles_answerInt (r : Registers) (mode : InterruptMode) (data : Byte) :
    (r.answerInt mode data).Yields fun entry => 4 ≤ entry.2.2 ∧ entry.2.2 ≤ 21 := by
  cases mode with
  | mode0 =>
    apply Microprogram.Yields.bind (cycles_runSupplied r data)
    intro done ⟨least, most⟩
    apply Microprogram.Yields.bind (Microprogram.Yields.of_forall (fun _ => trivial) _)
    intro _ _
    exact ⟨Nat.le_add_right_of_le least, Nat.add_le_add_right most _⟩
  | mode1 =>
    apply Microprogram.Yields.bind (Microprogram.Yields.of_forall (fun _ => trivial) _)
    intro _ _
    show 4 ≤ Cost.mode1Entry.cycles ∧ Cost.mode1Entry.cycles ≤ 21
    decide
  | mode2 =>
    apply Microprogram.Yields.bind (Microprogram.Yields.of_forall (fun _ => trivial) _)
    intro _ _
    show 4 ≤ Cost.mode2Entry.cycles ∧ Cost.mode2Entry.cycles ≤ 21
    decide

/-- To enter the handler of a maskable interrupt takes between 4 and 21 cycles. -/
theorem cycles_enterMaskable (r : Registers) (mode : InterruptMode) :
    (r.enterMaskable mode).Yields fun entry => 4 ≤ entry.2.2 ∧ entry.2.2 ≤ 21 := by
  apply Microprogram.Yields.bind (Microprogram.Yields.of_forall (fun _ => trivial) _)
  intro data _
  exact cycles_answerInt _ mode data

/-- To fetch and carry out an instruction takes between 4 and 21 cycles. -/
theorem cycles_fetchExecute (r : Registers) (mode : InterruptMode) :
    (r.fetchExecute mode).Yields fun a => 4 ≤ a.outcome.cycles ∧ a.outcome.cycles ≤ 21 := by
  apply Microprogram.Yields.bind (Microprogram.Yields.of_forall (fun _ => trivial) _)
  intro opcode _
  apply Microprogram.Yields.bind (Microprogram.Yields.of_forall (fun _ => trivial) _)
  intro _ _
  apply Microprogram.Yields.bind (Microprogram.Yields.of_forall (fun _ => trivial) _)
  intro i _
  apply Microprogram.Yields.bind (Microprogram.Yields.of_forall (fun _ => trivial) _)
  intro _ _
  apply Microprogram.Yields.bind (Instruction.cycles_execute i _)
  intro done ⟨least, most⟩
  apply Microprogram.Yields.bind (Microprogram.Yields.of_forall (fun _ => trivial) _)
  intro _ _
  exact ⟨least, Nat.le_trans most (by decide)⟩

/-- A step that completes without a reset takes between 4 and 21 cycles. -/
theorem cycles_advance (r : Registers) (mode : InterruptMode) :
    (r.advance mode).Yields fun a => 4 ≤ a.outcome.cycles ∧ a.outcome.cycles ≤ 21 := by
  unfold advance
  split
  case isTrue =>
    apply Microprogram.Yields.bind (Microprogram.Yields.of_forall (fun _ => trivial) _)
    intro _ _
    show 4 ≤ Cost.nmiEntry.cycles ∧ Cost.nmiEntry.cycles ≤ 21
    decide
  case isFalse =>
    split
    case isTrue =>
      apply Microprogram.Yields.bind ((cycles_enterMaskable r mode).onAbort _)
      intro entry he
      exact he
    case isFalse =>
      split
      case isTrue =>
        show 4 ≤ Cost.nop.cycles ∧ Cost.nop.cycles ≤ 21
        decide
      case isFalse => exact (cycles_fetchExecute _ mode).onAbort _

end Registers

namespace Processor

variable {β : Type}

/-- Samples the inputs: a rise of the non-maskable interrupt line is taken note of, and the level of
the maskable one. -/
def sampled (p : Processor β) : Processor β :=
  { p with
    registers := { p.registers with
      nmiPending := p.registers.nmiPending || p.lines.nmiEdge
      intPending := p.lines.intLevel }
    lines := p.lines.takeNmiEdge }

/-- What is seen of a processor: without tracing no events. -/
def visible (p : Processor β) (t : Trace) : Trace :=
  if p.config.tracing then t else t.filter fun seen => seen.event?.isNone

/-- What a fault adds to the trace of the step that began at an address. -/
def faultReports (fault : Fault) (pc : Word) : Trace :=
  [.report (.record (.faulted fault pc)), .report (.event (.faultRaised pc fault.kind))]

/-- What the processor does on the bus in a step without a reset. -/
def attempt [Bus β] (p : Processor β) : Completion β Advance :=
  (p.sampled.registers.advance p.sampled.mode).run p.sampled.bus

/-- One step of the processor: a reset that was requested, an interrupt, an instruction, or idling
while it is halted. -/
def step [Bus β] (p : Processor β) : Step β :=
  if p.lines.resetRequested then
    let (after, records) := p.reset
    { processor := after
      result := .ok .reset
      trace := p.visible (records ++ [.report (.event .reset)]) }
  else
    let done := p.attempt
    match done.ending with
    | .ok a =>
      { processor := { p.sampled with
          registers := a.registers
          mode := a.mode
          cycles := p.cycles + a.outcome.cycles
          bus := done.bus }
        result := .ok a.outcome
        trace := p.visible done.trace }
    | .error abort =>
      { processor := { p.sampled with registers := abort.registers, bus := done.bus }
        result := .error abort.fault
        trace := p.visible (done.trace ++ faultReports abort.fault p.registers.pc) }

/-- A reset that was requested is all that a step does. -/
theorem step_of_reset [Bus β] {p : Processor β} (h : p.lines.resetRequested = true) :
    p.step =
      { processor := p.reset.1
        result := .ok .reset
        trace := p.visible (p.reset.2 ++ [.report (.event .reset)]) } := by
  simp only [step, h, if_true]

/-- A step whose attempt completes takes over the registers and the mode, and adds its cycles. -/
theorem step_of_ok [Bus β] {p : Processor β} {a : Advance} (h : p.lines.resetRequested = false)
    (ha : p.attempt.ending = .ok a) :
    p.step =
      { processor := { p.sampled with
          registers := a.registers
          mode := a.mode
          cycles := p.cycles + a.outcome.cycles
          bus := p.attempt.bus }
        result := .ok a.outcome
        trace := p.visible p.attempt.trace } := by
  simp only [step, h, ha, Bool.false_eq_true, if_false]

/-- A step whose attempt stops short takes over the registers as they were left, and ends with the
fault. -/
theorem step_of_error [Bus β] {p : Processor β} {abort : Abort}
    (h : p.lines.resetRequested = false) (ha : p.attempt.ending = .error abort) :
    p.step =
      { processor := { p.sampled with registers := abort.registers, bus := p.attempt.bus }
        result := .error abort.fault
        trace := p.visible
          (p.attempt.trace ++ faultReports abort.fault p.registers.pc) } := by
  simp only [step, h, ha, Bool.false_eq_true, if_false]

/-- What a step is: a requested reset, a completed advance, or an attempt that stopped short. -/
theorem step_cases [Bus β] (p : Processor β) :
    p.lines.resetRequested = true ∨
      p.lines.resetRequested = false ∧
        ((∃ a, p.attempt.ending = .ok a) ∨ ∃ abort, p.attempt.ending = .error abort) := by
  cases p.lines.resetRequested with
  | true => exact .inl rfl
  | false =>
    refine .inr ⟨rfl, ?_⟩
    cases p.attempt.ending with
    | ok a => exact .inl ⟨a, rfl⟩
    | error abort => exact .inr ⟨abort, rfl⟩

/-- No reset is left to be carried out after a step. -/
theorem resetRequested_step [Bus β] (p : Processor β) :
    p.step.processor.lines.resetRequested = false := by
  obtain hr | ⟨hr, ⟨a, ha⟩ | ⟨abort, ha⟩⟩ := p.step_cases
  · rw [step_of_reset hr]
    rfl
  · rw [step_of_ok hr ha]
    exact hr
  · rw [step_of_error hr ha]
    exact hr

/-- A step that does not fault carries out a requested reset at no cost, or is charged at least four
cycles and at most twenty-one. -/
theorem result_step [Bus β] (p : Processor β) {outcome : StepOutcome}
    (h : p.step.result = .ok outcome) :
    (p.lines.resetRequested = true ∧ outcome = .reset) ∨
      (p.lines.resetRequested = false ∧ 4 ≤ outcome.cycles ∧ outcome.cycles ≤ 21) := by
  obtain hr | ⟨hr, ⟨a, ha⟩ | ⟨abort, ha⟩⟩ := p.step_cases
  · rw [step_of_reset hr] at h
    cases h
    exact .inl ⟨hr, rfl⟩
  · rw [step_of_ok hr ha] at h
    cases h
    exact .inr ⟨hr, (Registers.cycles_advance _ _).of_run ha⟩
  · rw [step_of_error hr ha] at h
    cases h

end Processor

end Z80
