import Z80.Proofs.Execution.Checked
import Z80.Proofs.Execution.Phases
import Z80.Proofs.Processor.MemoryFaults

/-!
# Steps with checks

A step on memory in which every lookup must be inside its table, every address inside the image of
memory, the operands of a supplied instruction inside the two bytes that there are for them, and every
sum inside its width: 32 bits for the cycles of an answer, 64 for the count of the processor
(`Processor.checkedStep`). While the count fits, such a step is a step (`Processor.checkedStep_eq`), so
no check fails, and a fault is the only way for a step to stop short. Which fault, and when, is known as
well (`Processor.step_checked`).
-/

namespace Z80

namespace Registers

/-- Runs an instruction whose first byte the interrupting device has supplied. There are two bytes for
its operands. -/
def checkedRunSupplied (r : Registers) (opcode : Byte) : Checked Retirement := do
  let i ← .check (Instruction.decode? opcode)
  let size ← .check i.size?
  let count ← .check (Option.guard (· ≤ 2) (min (size - 1) 2))
  let operands ← Microprogram.acknowledgeBytes r count
  let start := r.pc - UInt16.ofNat size
  (i.checkedExecute { r with pc := start }).withSupplied (start + 1) operands

def checkedAnswerInt (r : Registers) (mode : InterruptMode) (data : Byte) :
    Checked (Registers × InterruptMode × Nat) :=
  match mode with
  | .mode0 => do
    let done ← r.checkedRunSupplied data
    let after ← done.settle mode
    let cycles ← .check (Option.guard (· < 2 ^ 32) (done.cycles + Cost.mode0Overhead.cycles))
    return (done.registers, after, cycles)
  | .mode1 | .mode2 => r.answerInt mode data

def checkedEnterMaskable (r : Registers) (mode : InterruptMode) :
    Checked (Registers × InterruptMode × Nat) := do
  let data ← Microprogram.acknowledgeByte r
  { r.withInterruptsEnabled false with halted := false }.checkedAnswerInt mode data

def checkedAcceptInt (r : Registers) (mode : InterruptMode) : Checked Advance := do
  let (entered, after, cycles) ← (r.checkedEnterMaskable mode).onAbort fun _ => r
  Microprogram.tell (.record (.intAccepted after entered.pc))
  Microprogram.tell (.event (.interruptAccepted (.maskable mode) entered.pc))
  return { registers := entered, mode := after, outcome := .interrupted (.maskable mode) cycles }

def checkedFetchExecute (r : Registers) (mode : InterruptMode) : Checked Advance := do
  let opcode ← Microprogram.readByte r r.pc
  Microprogram.tell (.event (.instructionStart r.pc opcode))
  let i ← Instruction.checkedDecodeRest r r.pc opcode
  Microprogram.tell (.record (.decoded r.pc i))
  let done ← i.checkedExecute r
  let after ← done.settle mode
  Microprogram.tell (.event (.instructionRetired r.pc (.ofNat done.cycles)))
  return { registers := done.registers, mode := after, outcome := .retired done.cycles }

/-- What the processor does in a step without a reset, when its inputs have been sampled. -/
def checkedAdvance (r : Registers) (mode : InterruptMode) : Checked Advance :=
  if r.nmiPending then r.acceptNmi mode
  else if r.acceptsInt then r.checkedAcceptInt mode
  else
    let lifted := { r with eiExecuted := false }
    if r.halted then
      return { registers := lifted, mode := mode, outcome := .halted Cost.nop.cycles }
    else
      (lifted.checkedFetchExecute mode).onAbort fun left => { left with eiExecuted := r.eiExecuted }

variable (r : Registers) (mode : InterruptMode)

/-- The operands of an opcode of the base page fit the two bytes that there are for them. -/
lemma checkedRunSupplied_eq (opcode : Byte) :
    r.checkedRunSupplied opcode = r.runSupplied opcode := by
  have few : (Instruction.ofOpcode opcode).size - 1 ≤ 2 :=
    Nat.sub_le_of_le_add (Instruction.size_ofOpcode_le opcode)
  have fits : Option.guard (· ≤ 2) ((Instruction.ofOpcode opcode).size - 1) =
      some ((Instruction.ofOpcode opcode).size - 1) :=
    Option.guard_pos (decide_eq_true few)
  simp only [checkedRunSupplied, runSupplied, Instruction.decode?_eq, Instruction.size?_eq,
    Nat.min_eq_left few, fits, Checked.check_some, pure_bind, Instruction.checkedExecute_eq,
    Checked.withSupplied_liftM, liftM_bind]

/-- A supplied instruction takes few cycles, so that the sum with the overhead fits. -/
lemma checkedAnswerInt_eq (data : Byte) :
    r.checkedAnswerInt mode data = r.answerInt mode data := by
  cases mode with
  | mode0 =>
    -- The sum is only known to fit for the cycles that an instruction can take.
    have bounded := cycles_runSupplied r data
    simp only [checkedAnswerInt, answerInt, checkedRunSupplied_eq, liftM_bind, liftM_pure]
    apply Checked.bind_congr bounded
    intro done bounds
    have fits : Option.guard (· < 2 ^ 32) (done.cycles + Cost.mode0Overhead.cycles) =
        some (done.cycles + Cost.mode0Overhead.cycles) := by
      apply Option.guard_pos
      apply decide_eq_true
      exact Nat.lt_of_le_of_lt (Nat.add_le_add_right bounds.2 _) (by decide)
    simp only [fits, Checked.check_some, pure_bind]
  | mode1 | mode2 => rfl

/-- No check fails while a maskable interrupt is accepted. -/
lemma checkedAcceptInt_eq : r.checkedAcceptInt mode = r.acceptInt mode := by
  have entry : r.checkedEnterMaskable mode = r.enterMaskable mode := by
    simp only [checkedEnterMaskable, enterMaskable, checkedAnswerInt_eq, liftM_bind]
  simp only [checkedAcceptInt, acceptInt, entry, Checked.onAbort_liftM, liftM_bind, liftM_pure]

/-- No check fails while an instruction is fetched and carried out. -/
lemma checkedFetchExecute_eq : r.checkedFetchExecute mode = r.fetchExecute mode := by
  simp only [checkedFetchExecute, fetchExecute, Instruction.checkedDecodeRest_eq,
    Instruction.checkedExecute_eq, liftM_bind, liftM_pure]

/-- No check fails whatever the step goes on to. -/
theorem checkedAdvance_eq : r.checkedAdvance mode = r.advance mode := by
  unfold checkedAdvance advance
  simp only [checkedAcceptInt_eq, checkedFetchExecute_eq, Checked.onAbort_liftM]
  split
  case isTrue => rfl
  case isFalse =>
    split
    case isTrue => rfl
    case isFalse => split <;> rfl

end Registers

namespace Processor

/-- What a step comes to when its attempt has come to something. -/
def concluded (p : Processor Ram) (done : Completion Ram Advance) : Step Ram :=
  match done.ending with
  | .ok a =>
    { processor := { p.sampled with
        registers := a.registers
        mode := a.mode
        cycles := p.cycles + a.outcome.cycles
        bus := done.bus }
      result := .ok a.outcome
      trace := p.visible done.trace }
  | .error abort =>
    { processor := { p.sampled with registers := abort.registers, bus := done.bus }
      result := .error abort.fault
      trace := p.visible (done.trace ++ faultReports abort.fault p.registers.pc) }

/-- What comes of a requested reset. -/
def resetStep (p : Processor Ram) : Step Ram where
  processor := p.reset.1
  result := .ok .reset
  trace := p.visible (p.reset.2 ++ [.report (.event .reset)])

/-- A step with all its checks. -/
def checkedStep (p : Processor Ram) : Option (Step Ram) :=
  let next :=
    if p.lines.resetRequested then some p.resetStep
    else
      ((p.sampled.registers.checkedAdvance p.sampled.mode).run? p.sampled.bus).map p.concluded
  next.filter (·.processor.cycles < 2 ^ 64)

/-- A step carries out a reset, or concludes its attempt. -/
lemma step_eq_concluded (p : Processor Ram) :
    p.step = if p.lines.resetRequested then p.resetStep else p.concluded p.attempt := rfl

/-- While the count of cycles fits, no check of a step fails. -/
theorem checkedStep_eq {p : Processor Ram} (counted : p.step.processor.cycles < 2 ^ 64) :
    p.checkedStep = some p.step := by
  have attempted : ((p.sampled.registers.checkedAdvance p.sampled.mode).run? p.sampled.bus).map
      p.concluded = some (p.concluded p.attempt) := by
    rw [Registers.checkedAdvance_eq, Checked.run?_liftM]
    rfl
  have unchecked : p.checkedStep = (some p.step).filter (·.processor.cycles < 2 ^ 64) := by
    rw [checkedStep, attempted, step_eq_concluded, apply_ite some]
  rw [unchecked]
  exact Option.filter_some_pos (decide_eq_true counted)

/-- While the count of cycles fits, a step on memory passes every check. It faults as is foreseen and in
no other way. An interrupting device that supplies a byte in front of an opcode of another page makes it
fault. No address is without memory and no device fails, and where everything can be written and an
acknowledge cycle is answered, it faults on an opcode only. -/
theorem step_checked (p : Processor Ram) :
    (p.step.processor.cycles < 2 ^ 64 → p.checkedStep = some p.step) ∧
      (∀ fault, p.step.result = .error fault ↔ p.FaultsWith fault) ∧
      (p.answersInt = true → p.mode = .mode0 →
        ∀ data ∈ Opcode.pageBytes, p.bus.acknowledge = some data →
          p.step.result = .error (.illegal ⟨none, data, p.registers.pc - 1⟩)) ∧
      (∀ address, p.step.result ≠ .error (.bus (.unmapped address))) ∧
      (∀ address reason, p.step.result ≠ .error (.bus (.device address reason))) ∧
      (p.bus.romSize = 0 → p.bus.acknowledge.isSome = true →
        ∀ fault, p.step.result = .error fault → ∃ cause, fault = .illegal cause) := by
  have foreseen := p.result_error_iff
  refine ⟨checkedStep_eq, foreseen, ?pageByte, ?unmapped, ?device, ?free⟩
  case pageByte =>
    intro answers mode data selects acknowledge
    have decoded := Instruction.ofOpcode_pageBytes data selects
    exact (foreseen _).mpr (.supplied answers mode acknowledge decoded)
  case unmapped =>
    intro address h
    cases (foreseen _).mp h
  case device =>
    intro address reason h
    cases (foreseen _).mp h
  case free =>
    intro free answered fault h
    exact ((foreseen fault).mp h).illegal_of_free free answered

/-- The low byte of a push goes to the last address, and the high byte to the first one, which is
read-only. -/
theorem step_checked_push :
    let p : Processor Ram :=
      { Processor.new ((Ram.withRom 16).load 0 [0xC5]) with registers := { sp := 1 } }
    p.step.processor.cycles < 2 ^ 64 ∧ p.checkedStep = some p.step ∧
      p.storeAddresses = [0xFFFF, 0] ∧ p.step.result = .error (.bus (.readOnly 0)) := by
  intro p
  have counted : p.step.processor.cycles < 2 ^ 64 := by decide +kernel
  obtain ⟨passes, foreseen, -⟩ := step_checked p
  have stores : p.storeAddresses = [0xFFFF, 0] := by decide +kernel
  have first : p.storeAddresses.find? (· < p.bus.romSize) = some 0 := by
    rw [stores]
    rfl
  exact ⟨counted, passes counted, stores, (foreseen _).mpr (.readOnly first)⟩

end Processor

end Z80
