import Z80.Proofs.Bus.Steady
import Z80.Proofs.Bus.Transient
import Z80.Proofs.Processor.StoresLast

/-!
# Steps that are tried again

A failure that passes costs the step in which it came, and no more. On a bus that is changed by writes
only, a step that failed before it had stored a byte is followed by the step that would have been there
without the failure (`Processor.step_restarts`): the same outcome, registers, memory, mode, inputs,
cycles and trace. That needs all of the order a step keeps: what is read comes before what is stored,
no register changes before the last access, what was noted of the inputs stays noted, and the shadow
of an enable is not lost.
-/

namespace Z80

variable {β γ : Type}

namespace Processor

/-- The processor, attached to another bus. -/
def plugged (p : Processor β) (bus : γ) : Processor γ where
  registers := p.registers
  mode := p.mode
  lines := p.lines
  cycles := p.cycles
  config := p.config
  bus := bus

/-- The processor on a bus that fails one access, the one after so many. -/
def failing (p : Processor β) (n : Nat) (error : BusError) : Processor (Transient β) :=
  p.plugged ⟨p.bus, some (n, error)⟩

end Processor

/-- The step, with no failure to come on the bus. -/
def Step.onSpent (s : Step β) : Step (Transient β) where
  processor := s.processor.plugged (.spent s.processor.bus)
  result := s.result
  trace := s.trace

namespace Access

/-- A write that completed. -/
def isStore : Access → Bool
  | write _ _ => true
  | _ => false

/-- A write that failed. -/
def isRefusal : Access → Bool
  | failed (.write _ _) _ => true
  | _ => false

/-- No write failed in the log when another had completed. -/
def FailsBeforeStoring (seen : List Access) : Prop :=
  seen.any isStore = true → seen.any isRefusal = false

instance (seen : List Access) : Decidable (FailsBeforeStoring seen) :=
  inferInstanceAs (Decidable (_ → _))

/-- A store that fails after another one does not fail before all of them. -/
lemma not_failsBeforeStoring {before : List Access} {first address : Word} {low value : Byte}
    {error : BusError} :
    ¬ FailsBeforeStoring (before ++ [write first low] ++ [failed (.write address value) error]) := by
  intro none
  have refused := none (by simp [isStore])
  simp [isRefusal] at refused

end Access

namespace Processor

/-- What was sampled before is sampled the same again. -/
lemma sampled_again (p : Processor β) (bus : β) :
    { p.sampled with bus }.sampled = { p.sampled with bus } := by
  simp only [sampled, Lines.takeNmiEdge, Bool.or_false]

variable [Bus β] {p : Processor β}

/-- The bus after a step is that after its attempt. -/
lemma step_bus_eq (unasked : p.lines.resetRequested = false) : p.step.processor.bus = p.attempt.bus := by
  obtain hr | ⟨-, ⟨a, ha⟩ | ⟨abort, ha⟩⟩ := p.step_cases
  · exact absurd (hr.symm.trans unasked) Bool.false_ne_true.symm
  · rw [step_of_ok unasked ha]
  · rw [step_of_error unasked ha]

/-- When the failure is past, a step is the step on the bus behind. -/
lemma step_spent (p : Processor β) : (p.plugged (Transient.spent p.bus)).step = p.step.onSpent := by
  have attempt : (p.plugged (Transient.spent p.bus)).attempt =
      ⟨p.attempt.ending, .spent p.attempt.bus, p.attempt.trace⟩ := Transient.run_spent _ _
  obtain hr | ⟨hr, ⟨a, ha⟩ | ⟨abort, ha⟩⟩ := p.step_cases
  · rw [step_of_reset hr]
    exact step_of_reset hr
  · have ending := (congrArg Completion.ending attempt).trans ha
    rw [step_of_ok hr ha, step_of_ok (p := p.plugged (Transient.spent p.bus)) hr ending, attempt]
    rfl
  · have ending := (congrArg Completion.ending attempt).trans ha
    rw [step_of_error hr ha, step_of_error (p := p.plugged (Transient.spent p.bus)) hr ending, attempt]
    rfl

/-- When the inputs have been sampled, a step that does the same on the bus comes to the same. -/
lemma step_sampled {bus : β} (unasked : p.lines.resetRequested = false)
    (same : (p.sampled.registers.advance p.mode).run bus =
      (p.sampled.registers.advance p.mode).run p.bus) :
    { p.sampled with bus }.step = p.step := by
  have attempt : { p.sampled with bus }.attempt = p.attempt := by
    rw [Processor.attempt, sampled_again]
    exact same
  obtain hr | ⟨-, ⟨a, ha⟩ | ⟨abort, ha⟩⟩ := p.step_cases
  · exact absurd (hr.symm.trans unasked) Bool.false_ne_true.symm
  · have ending := (congrArg Completion.ending attempt).trans ha
    rw [step_of_ok unasked ha, step_of_ok (p := { p.sampled with bus }) unasked ending, attempt,
      sampled_again]
    rfl
  · have ending := (congrArg Completion.ending attempt).trans ha
    rw [step_of_error unasked ha, step_of_error (p := { p.sampled with bus }) unasked ending, attempt,
      sampled_again]
    rfl

/-- A step in which the failure came was cut short by it. -/
lemma step_came {n : Nat} {error : BusError}
    (came : (p.failing n error).step.processor.bus.pending = none) :
    p.lines.resetRequested = false ∧ ∃ before request after,
      Transient.CutShort p.bus error (p.failing n error).attempt before request after := by
  cases asked : p.lines.resetRequested with
  | true =>
    rw [step_of_reset (p := p.failing n error) asked] at came
    cases came
  | false =>
    rw [step_bus_eq (p := p.failing n error) asked] at came
    exact ⟨rfl, Transient.run_came came⟩

/-- A step that was cut short has left the processor with its inputs sampled, on what is left of the
bus. -/
lemma step_cutShort {n : Nat} {error : BusError} {before : List Access} {request : Request} {after : β}
    (unasked : p.lines.resetRequested = false)
    (cut : Transient.CutShort p.bus error (p.failing n error).attempt before request after) :
    (p.failing n error).step.result = .error (.bus error) ∧
      (p.failing n error).step.processor.step = { p.sampled with bus := after }.step.onSpent := by
  obtain ⟨left, ending⟩ := cut.ending
  have registers : left = p.sampled.registers :=
    registers_of_abort (p := p.failing n error) ending
  have step := step_of_error (p := p.failing n error) unasked ending
  have faulted : (p.failing n error).step.processor =
      { p.sampled with bus := after }.plugged (Transient.spent after) := by
    rw [step, cut.left, registers]
    rfl
  refine ⟨by rw [step], ?_⟩
  rw [faulted]
  exact step_spent { p.sampled with bus := after }

/-- A step that fails before it has stored a byte is tried again as if it had not failed. On a bus that
only writes change, let one access of the step fail that would otherwise have been made: a read, an
acknowledge cycle, or the first write. Then the step faults with that failure, and the next one, with
the failure past, is the step without it, in its outcome, its trace and everything it leaves. -/
theorem step_restarts (steady : Bus.Steady β) {n : Nat} {error : BusError}
    (came : (p.failing n error).step.processor.bus.pending = none)
    (first : Access.FailsBeforeStoring (p.failing n error).step.trace.accesses) :
    (p.failing n error).step.result = .error (.bus error) ∧
      (p.failing n error).step.processor.step = p.step.onSpent := by
  obtain ⟨unasked, before, request, after, cut⟩ := step_came came
  rw [accesses_step (p := p.failing n error) unasked, cut.seen] at first
  have asks : (p.sampled.registers.advance p.mode).Asks before request :=
    Microprogram.asks_of_run cut.seen
  have unwritten : ∀ address value, .write address value ∉ before := by
    cases Registers.storesLast_advance asks with
    | unwritten h => exact h
    | second taken start low address value shape asked =>
      -- Nothing but a write is asked for after a write, and it would not be the first.
      rw [shape, asked] at first
      exact absurd first Access.not_failsBeforeStoring
  obtain rfl : after = p.bus := steady.perform cut.completed unwritten cut.behind
  obtain ⟨faults, again⟩ := step_cutShort unasked cut
  exact ⟨faults, again.trans (congrArg Step.onSpent (step_sampled unasked rfl))⟩

/-- A processor at a call, right after an enable and with an interrupt waiting. -/
def shadowedCall : Processor Ram where
  registers := { pc := 0x0100, sp := 0x8000, iff1 := true, iff2 := true, eiExecuted := true }
  mode := .mode1
  lines := { intLevel := true }
  cycles := 8
  config := {}
  bus := ({} : Ram).load 0x0100 [0xCD, 0x34, 0x12]

/-- The first byte of the push fails. The interrupt has to wait for the call all the same. -/
theorem step_restarts_shadowedCall :
    (shadowedCall.failing 3 (.device 0x7FFE "late")).step.result =
        .error (.bus (.device 0x7FFE "late")) ∧
      (shadowedCall.failing 3 (.device 0x7FFE "late")).step.processor.step =
        shadowedCall.step.onSpent ∧
      shadowedCall.step.result = .ok (.retired 17) := by
  have came : (shadowedCall.failing 3 (.device 0x7FFE "late")).step.processor.bus.pending = none := by
    decide +kernel
  have first : Access.FailsBeforeStoring
      (shadowedCall.failing 3 (.device 0x7FFE "late")).step.trace.accesses := by
    decide +kernel
  obtain ⟨faults, again⟩ := step_restarts Ram.store.toSteady came first
  exact ⟨faults, again, by rfl⟩

end Processor

end Z80
