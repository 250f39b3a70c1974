import Z80.Bus.Ram
import Z80.Proofs.Processor.Course
import Z80.Proofs.Processor.Lockstep

/-!
# Resets

A reset leaves nothing of the past. There are two ways to it, at once or by a request that the next
step carries out, and from whatever state they start, they come to the same
(`Processor.reset_forgets`). Only the configuration, the bus and the levels of the lines are left to
tell two processors apart, and the count of cycles, which goes on. The count is never looked at
(`Processor.step_resetCycles`), so it makes no difference later.
-/

namespace Z80.Processor

variable {β : Type} [Bus β]

/-- A reset that is requested, and carried out by the next step. -/
def resetByRequest (p : Processor β) : Step β := (p.drive .requestReset).step

/-- Equal but for the count of cycles, which has advanced by as much on either side. -/
structure SameButCount (start start' : Nat) (p q : Processor β) : Prop where
  same : p.resetCycles = q.resetCycles
  advanced : ∃ n, p.cycles = start + n ∧ q.cycles = start' + n

/-- A step does not look at the count of cycles. -/
lemma step_resetCycles (p : Processor β) :
    p.resetCycles.step.result = p.step.result ∧ p.resetCycles.step.trace = p.step.trace ∧
      p.resetCycles.step.processor.resetCycles = p.step.processor.resetCycles ∧
      p.step.processor.cycles = p.cycles + p.resetCycles.step.processor.cycles := by
  obtain hr | ⟨hr, ⟨a, ha⟩ | ⟨abort, ha⟩⟩ := p.step_cases
  · have asked : p.resetCycles.lines.resetRequested = true := hr
    rw [step_of_reset hr, step_of_reset asked]
    exact ⟨rfl, rfl, rfl, rfl⟩
  · have asked : p.resetCycles.lines.resetRequested = false := hr
    have attempted : p.resetCycles.attempt.ending = .ok a := ha
    rw [step_of_ok hr ha, step_of_ok asked attempted]
    refine ⟨rfl, rfl, rfl, ?_⟩
    show p.cycles + a.outcome.cycles = p.cycles + (0 + a.outcome.cycles)
    rw [Nat.zero_add]
  · have asked : p.resetCycles.lines.resetRequested = false := hr
    have attempted : p.resetCycles.attempt.ending = .error abort := ha
    rw [step_of_error hr ha, step_of_error asked attempted]
    exact ⟨rfl, rfl, rfl, rfl⟩

namespace SameButCount

variable {start start' : Nat} {p q : Processor β}

/-- Processors that are the same but for their counts do the same in a step, and count as much. -/
lemma step (h : SameButCount start start' p q) :
    p.step.result = q.step.result ∧ p.step.trace = q.step.trace ∧
      SameButCount start start' p.step.processor q.step.processor := by
  obtain ⟨resultP, traceP, afterP, cyclesP⟩ := p.step_resetCycles
  obtain ⟨resultQ, traceQ, afterQ, cyclesQ⟩ := q.step_resetCycles
  obtain ⟨n, countP, countQ⟩ := h.advanced
  rw [h.same] at resultP traceP afterP cyclesP
  refine ⟨resultP.symm.trans resultQ, traceP.symm.trans traceQ, afterP.symm.trans afterQ,
    n + q.resetCycles.step.processor.cycles, ?_, ?_⟩
  · rw [cyclesP, countP, Nat.add_assoc]
  · rw [cyclesQ, countQ, Nat.add_assoc]

/-- The count makes no difference to whatever the processors are put through. -/
lemma lockstep (start start' : Nat) :
    Lockstep (SameButCount (β := β) start start') fun _ => True where
  drive := by
    intro p q h call
    exact ⟨congrArg (fun x => x.drive call) h.same, h.advanced⟩
  changeBus := by
    intro p q h change
    exact ⟨congrArg (fun x => { x with bus := change x.bus }) h.same, h.advanced⟩
  step := fun h _ => h.step

end SameButCount

/-- A requested reset comes first, whatever else is pending. It is free and does not use the bus. -/
lemma resetByRequest_eq (p : Processor β) :
    p.resetByRequest.result = .ok .reset ∧ p.resetByRequest.trace.accesses = [] ∧
      p.resetByRequest.processor = p.reset.1 := by
  have asked : (p.drive .requestReset).lines.resetRequested = true := rfl
  refine ⟨?_, accesses_step_of_reset asked, ?_⟩
  · rw [resetByRequest, step_of_reset asked]
  · rw [resetByRequest, step_of_reset asked]
    rfl

/-- A reset forgets everything. Of two processors with the same configuration, the same bus and the
same levels on their lines, let one be reset at once, and the other by a request and a step, which
comes before anything else, is free and does not use the bus. Then their registers, modes and inputs
are the same, and whatever they both are put through from then on, their steps come to the same and
are seen the same, and take as many cycles. -/
theorem reset_forgets {p q : Processor β} (config : p.config = q.config) (bus : p.bus = q.bus)
    (nmiLevel : p.lines.nmiLevel = q.lines.nmiLevel)
    (intLevel : p.lines.intLevel = q.lines.intLevel) :
    (q.resetByRequest.result = .ok .reset ∧ q.resetByRequest.processor.cycles = q.cycles ∧
        q.resetByRequest.trace.accesses = [] ∧ q.resetByRequest.processor.bus = q.bus) ∧
      (p.reset.1.registers = q.resetByRequest.processor.registers ∧
        p.reset.1.mode = q.resetByRequest.processor.mode ∧
        p.reset.1.lines = q.resetByRequest.processor.lines) ∧
      ∀ stimuli,
        p.reset.1.results stimuli = q.resetByRequest.processor.results stimuli ∧
        p.reset.1.traces stimuli = q.resetByRequest.processor.traces stimuli ∧
        SameButCount p.cycles q.cycles (p.reset.1.under stimuli)
          (q.resetByRequest.processor.under stimuli) := by
  obtain ⟨result, silent, after⟩ := q.resetByRequest_eq
  have registers : p.reset.1.registers = q.reset.1.registers := congrArg Registers.reset intLevel
  have mode : p.reset.1.mode = q.reset.1.mode := congrArg Config.resetMode config
  have lines : p.reset.1.lines = q.reset.1.lines := by
    simp only [reset, Lines.takeReset, Lines.takeNmiEdge, nmiLevel, intLevel]
  -- But for their counts the two processors are one, so they stay in lockstep.
  have same : p.reset.1.resetCycles = q.reset.1.resetCycles := by
    simp only [reset, resetCycles, Lines.takeReset, Lines.takeNmiEdge, config, bus, nmiLevel,
      intLevel]
  rw [after]
  refine ⟨⟨result, rfl, silent, rfl⟩, ⟨registers, mode, lines⟩, ?_⟩
  intro stimuli
  exact (SameButCount.lockstep p.cycles q.cycles).run ⟨same, 0, rfl, rfl⟩ fun _ _ => trivial

/-- A processor in the middle of things: halted, with a non-maskable interrupt pending and another
one on its way. -/
def busy : Processor Ram where
  registers :=
    { af := 0x1234, pc := 0x4321, sp := 0x8000, iff1 := true, iff2 := true, nmiPending := true,
      eiExecuted := true, halted := true }
  mode := .mode2
  lines := { nmiLevel := true, nmiEdge := true, intLevel := true }
  cycles := 1000
  config := {}
  bus := ({} : Ram).load 0 [0xFB, 0x00]

/-- A processor that was just switched on, on the same bus. -/
def fresh : Processor Ram := ((new busy.bus).drive (.driveNmi true)).drive (.driveInt true)

/-- After a reset both of them enable interrupts, run the instruction after that, and answer the
interrupt. -/
theorem reset_forgets_busy :
    busy.resetByRequest.processor.results [.step, .step, .step] =
        [.ok (.retired 4), .ok (.retired 4), .ok (.interrupted (.maskable .mode0) 13)] ∧
      (busy.resetByRequest.processor.under [.step, .step, .step]).cycles = 1021 := by
  obtain ⟨-, -, later⟩ := reset_forgets (p := fresh) (q := busy) rfl rfl rfl rfl
  obtain ⟨results, -, -, n, countFresh, countBusy⟩ := later [.step, .step, .step]
  have steps : fresh.reset.1.results [.step, .step, .step] =
      [.ok (.retired 4), .ok (.retired 4), .ok (.interrupted (.maskable .mode0) 13)] := by rfl
  have count : (fresh.reset.1.under [.step, .step, .step]).cycles = 21 := by decide +kernel
  refine ⟨results.symm.trans steps, ?_⟩
  have spent : 21 = 0 + n := count.symm.trans countFresh
  rw [countBusy, ← Nat.zero_add n, ← spent]
  rfl

end Z80.Processor
