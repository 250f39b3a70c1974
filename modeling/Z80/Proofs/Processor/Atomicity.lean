import Z80.Bus.Ram
import Z80.Bus.Scripted
import Z80.Processor.Step
import Z80.Proofs.Execution.Abort

/-!
# Steps that fault

A step that faults has done nothing to the processor but sample its inputs
(`Processor.step_error_unchanged`). There are three ways to that on the way through a step: the entry
of a non-maskable interrupt and every instruction touch a register only after their last access, the
answer to a maskable interrupt is taken back, and the shadow of an enable, which is lifted before the
fetch, is laid over the registers again.
-/

namespace Z80

open Microprogram

namespace Registers

/-- A non-maskable interrupt that stops short leaves the registers as they were. -/
lemma stops_acceptNmi (r : Registers) (mode : InterruptMode) :
    (r.acceptNmi mode).Stops r.Accessing := by
  apply (r.stops_callTo nmiVector).bind
  intro entered
  exact trivial

/-- The answer to a maskable interrupt may change registers early, but they are put back. -/
lemma stops_acceptInt (r : Registers) (mode : InterruptMode) :
    (r.acceptInt mode).Stops fun now _ => now = r := by
  have anywhere : (r.enterMaskable mode).Stops fun _ _ => True := .of_forall (fun _ _ => trivial) _
  have entry : ((r.enterMaskable mode).onAbort fun _ => r).Stops fun now _ => now = r :=
    anywhere.onAbort fun _ _ _ => rfl
  apply entry.bind
  intro (entered, after, cycles)
  exact trivial

/-- What an instruction asks for never stops short. -/
lemma stops_settle (done : Retirement) (mode : InterruptMode)
    (P : Registers → Option Request → Prop) : (done.settle mode).Stops P := by
  unfold Retirement.settle
  split
  case h_1 => exact trivial
  case h_2 => exact trivial
  case h_3 selected _ => exact (stops_tellRecords P _).bind_done

/-- An instruction that stops short leaves the registers as they were. -/
lemma stops_fetchExecute (r : Registers) (mode : InterruptMode) :
    (r.fetchExecute mode).Stops r.Untouched := by
  apply (stops_readByte r r.pc).untouched.bind
  intro opcode
  apply Stops.bind (p := .tell _) trivial
  intro _
  apply (Instruction.stops_decodeRest r r.pc opcode).untouched.bind
  intro i
  apply Stops.bind (p := .tell _) trivial
  intro _
  apply (i.stops_execute r).bind
  intro done
  apply (stops_settle done mode _).bind
  intro after
  exact trivial

/-- Whatever the processor does in a step, where it stops short the registers are those it began the
step with. It asks for an acknowledge cycle only to answer a maskable interrupt. -/
lemma stops_advance (r : Registers) (mode : InterruptMode) :
    (r.advance mode).Stops fun now request =>
      now = r ∧ (request = some .acknowledge → r.nmiPending = false ∧ r.acceptsInt = true) := by
  unfold advance
  split
  case isTrue =>
    apply (r.stops_acceptNmi mode).untouched.imp
    rintro now request ⟨rfl, quiet⟩
    exact ⟨rfl, fun h => absurd h quiet⟩
  case isFalse hn =>
    split
    case isTrue ha =>
      apply (r.stops_acceptInt mode).imp
      rintro now request rfl
      exact ⟨rfl, fun _ => ⟨Bool.eq_false_iff.mpr hn, ha⟩⟩
    case isFalse =>
      split
      case isTrue => exact trivial
      case isFalse =>
        -- The shadow of the enable was lifted before the fetch and is laid back.
        apply (stops_fetchExecute { r with eiExecuted := false } mode).onAbort
        rintro now request ⟨rfl, quiet⟩
        exact ⟨rfl, fun h => absurd h quiet⟩

end Registers

namespace Processor

variable {β : Type}

/-- A step that stops short leaves the registers as they were when the inputs had been sampled. -/
lemma registers_of_abort [Bus β] {p : Processor β} {abort : Abort}
    (h : p.attempt.ending = .error abort) : abort.registers = p.sampled.registers := by
  obtain ⟨_, ⟨left, _⟩, _⟩ := (Registers.stops_advance _ _).of_run h
  exact left

/-- A step that faults leaves every register as it was, but for the two flip-flops that sample the
inputs. Mode, cycles and configuration stay, and a rise of the non-maskable interrupt line is not
lost: it has moved from the line to its flip-flop. -/
theorem step_error_unchanged [Bus β] (p : Processor β) {fault : Fault}
    (h : p.step.result = .error fault) :
    p.step.processor.registers =
        { p.registers with
          nmiPending := p.registers.nmiPending || p.lines.nmiEdge
          intPending := p.lines.intLevel } ∧
      p.step.processor.mode = p.mode ∧
      p.step.processor.cycles = p.cycles ∧
      p.step.processor.config = p.config ∧
      p.step.processor.lines = { p.lines with nmiEdge := false } ∧
      (p.lines.nmiEdge = true → p.step.processor.registers.nmiPending = true) := by
  obtain hr | ⟨hr, ⟨a, ha⟩ | ⟨abort, ha⟩⟩ := p.step_cases
  · rw [step_of_reset hr] at h
    cases h
  · rw [step_of_ok hr ha] at h
    cases h
  · rw [step_of_error hr ha]
    simp only [registers_of_abort ha]
    refine ⟨rfl, rfl, rfl, rfl, rfl, ?_⟩
    intro edge
    simp only [sampled, edge, Bool.or_true]

/-- A halted processor whose device supplies a call, on a bus that fails the second byte of the
push. -/
def brokenCall : Processor (Scripted Ram) where
  registers := { pc := 0x0150, sp := 0x8000, iff1 := true, iff2 := true, halted := true }
  mode := .mode0
  lines := { intLevel := true }
  cycles := 40
  config := {}
  bus :=
    { bus := {}
      rules := [{ on := .write, skip := 1, error := .device, reason := "late" }]
      queue := some [0xCD, 0x34, 0x12] }

/-- The first byte is in memory when the second fails, and the registers are back all the same. -/
theorem step_error_unchanged_brokenCall :
    brokenCall.step.result = .error (.bus (.device 0x7FFF "late")) ∧
      brokenCall.step.processor.bus.bus.peek 0x7FFE = 0x50 ∧
      brokenCall.step.processor.registers = { brokenCall.registers with intPending := true } := by
  have h : brokenCall.step.result = .error (.bus (.device 0x7FFF "late")) := by rfl
  obtain ⟨registers, -⟩ := brokenCall.step_error_unchanged h
  exact ⟨h, by decide +kernel, registers⟩

end Processor

end Z80
