import Z80.Bus.Ram
import Z80.Proofs.Execution.Essential
import Z80.Proofs.Processor.Atomicity
import Z80.Proofs.Processor.Course
import Z80.Proofs.Processor.Lockstep

/-!
# Flags that never steer

Half carry, subtract and the two copied bits of the flag register, and of its shadow, have no
influence on anything but themselves, as long as a program does not push AF. Two processors on the
same bus that agree but for these flags go through the same steps
(`Processor.inessential_never_steers`).
-/

namespace Z80

open Microprogram

/-- The instruction that a step has begun, by the log of its accesses: fetched from the program
counter, or supplied in mode 0. In the other modes the device that interrupts supplies no
instruction. -/
def Instruction.begun? (mode : InterruptMode) : List Access → Option Instruction
  | .acknowledge opcode :: _ => if mode = .mode0 then some (ofOpcode opcode) else none
  | seen => ofAccesses? seen

namespace Microprogram

variable {α β : Type} [Bus β] {now : Registers} {next : Byte → Microprogram α} {bus middle : β}
  {value : Byte}

/-- A read that is answered is the first access, and those of what comes after follow it. -/
lemma accesses_run_read {address : Word} (answer : Bus.read bus address = (.ok value, middle)) :
    ((read now address next).run bus).trace.accesses =
      .read address value :: ((next value).run middle).trace.accesses := by
  simp only [run, answer, Completion.after, Trace.accesses_access]

/-- An acknowledge cycle that is answered is the first access, and those of what comes after follow
it. -/
lemma accesses_run_acknowledge (answer : Bus.acknowledge bus = (.ok value, middle)) :
    ((acknowledge now next).run bus).trace.accesses =
      .acknowledge value :: ((next value).run middle).trace.accesses := by
  simp only [run, answer, Completion.after, Trace.accesses_access]

end Microprogram

/-- The same mode and outcome, and registers that agree. -/
structure Advance.Agree (a a' : Advance) : Prop where
  registers : a.registers.Agree a'.registers
  mode : a.mode = a'.mode
  outcome : a.outcome = a'.outcome

/-- Instructions that come to the same ask for the same. -/
lemma Retirement.Agree.settle {x y : Retirement} (h : x.Agree y) (mode : InterruptMode) :
    (x.settle mode).Alike Eq (y.settle mode) := by
  rw [Retirement.settle, Retirement.settle, h.effect, h.registers.pc]
  split
  case h_1 => exact .done rfl
  case h_2 => exact .report (.done rfl)
  case h_3 selected _ =>
    apply (Alike.tellRecords _).bind
    rintro _ _ -
    exact .done rfl

namespace Registers.Agree

variable {β : Type} [Bus β] {r r' : Registers} (h : r.Agree r') (mode : InterruptMode)
  {opcode : Byte}

include h

/-- Banks that agree accept a non-maskable interrupt alike. -/
lemma acceptNmi : (r.acceptNmi mode).Alike Advance.Agree (r'.acceptNmi mode) := by
  apply (h.callTo nmiVector).bind
  intro entered entered' agree
  have left := agree.update
    (fun x => { x with iff1 := false, nmiPending := false, halted := false }) fun _ => rfl
  exact .report (.report (.done ⟨left, rfl, rfl⟩))

/-- Banks that agree treat a supplied instruction alike, unless it is `PUSH AF`. -/
lemma runSupplied (other : Instruction.ofOpcode opcode ≠ .push .af) :
    (r.runSupplied opcode).Alike Retirement.Agree (r'.runSupplied opcode) := by
  rw [Registers.runSupplied, Registers.runSupplied, h.pc]
  apply (Alike.acknowledgeBytes r r' _).bind
  rintro operands _ rfl
  apply Alike.withSupplied
  exact Instruction.alike_execute (Instruction.showsFlags_ofOpcode other) (h.writeWord .pc _)

/-- Banks that agree answer a maskable interrupt alike, unless it supplies `PUSH AF`. -/
lemma answerInt (other : mode = .mode0 → Instruction.ofOpcode opcode ≠ .push .af) :
    (r.answerInt mode opcode).Alike (fun x y => x.1.Agree y.1 ∧ x.2 = y.2)
      (r'.answerInt mode opcode) := by
  have i : r.i = r'.i := h.same Registers.i
  cases mode with
  | mode0 =>
    apply (h.runSupplied (other rfl)).bind
    intro done done' agree
    apply (agree.settle .mode0).bind
    rintro after _ rfl
    exact .done ⟨agree.registers, by rw [agree.cycles]⟩
  | mode1 =>
    apply (h.callTo mode1Vector).bind
    intro entered entered' agree
    exact .done ⟨agree, rfl⟩
  | mode2 =>
    rw [Registers.answerInt, Registers.answerInt, i]
    apply (h.callTo _).bind
    intro entered entered' agree
    exact .done ⟨agree, rfl⟩

variable {bus : β}

/-- Banks that agree accept a maskable interrupt alike, unless the device gives `PUSH AF`. -/
lemma acceptInt
    (other : mode = .mode0 → ∀ opcode middle, Bus.acknowledge bus = (.ok opcode, middle) →
      Instruction.ofOpcode opcode ≠ .push .af) :
    ((r.acceptInt mode).run bus).Alike Advance.Agree ((r'.acceptInt mode).run bus) := by
  have entry : ((r.enterMaskable mode).run bus).Alike (fun x y => x.1.Agree y.1 ∧ x.2 = y.2)
      ((r'.enterMaskable mode).run bus) := by
    apply run_bind_alike ((Alike.acknowledgeByte r r').run bus)
    -- What the device answers is the same on both sides, and in mode 0 it is no `PUSH AF`.
    rintro opcode _ middle t acknowledged rfl
    obtain ⟨_, _, _, answer, hd, -⟩ := acknowledged.acknowledge_inv
    obtain ⟨rfl, rfl, -⟩ := hd.done_inv
    have disabled := h.update (fun x => { x.withInterruptsEnabled false with halted := false })
      fun _ => rfl
    exact (disabled.answerInt mode fun mode0 => other mode0 _ _ answer).run _
  apply run_bind_alike (run_onAbort_alike entry (fun _ => r) fun _ => r')
  rintro ⟨entered, after, cycles⟩ ⟨entered', _⟩ middle t - ⟨agree, rfl⟩
  apply Alike.run
  have handler : entered.pc = entered'.pc := agree.pc
  simp only [handler]
  exact .report (.report (.done ⟨agree, rfl, rfl⟩))

/-- Banks that agree fetch and carry out an instruction alike, unless it is `PUSH AF`. -/
lemma fetchExecute
    (other : ∀ opcode middle, Bus.read bus r.pc = (.ok opcode, middle) →
      Instruction.ofOpcode opcode ≠ .push .af) :
    ((r.fetchExecute mode).run bus).Alike Advance.Agree ((r'.fetchExecute mode).run bus) := by
  rw [Registers.fetchExecute, Registers.fetchExecute, ← h.pc]
  apply run_bind_alike ((Alike.readByte r r' r.pc).run bus)
  rintro opcode _ middle t fetched rfl
  obtain ⟨_, _, _, answer, hd, -⟩ := fetched.read_inv
  obtain ⟨rfl, rfl, -⟩ := hd.done_inv
  apply Alike.run
  apply Alike.report
  apply (Instruction.alike_decodeRest r r' r.pc (other _ _ answer)).bind
  rintro i _ ⟨rfl, hidden⟩
  apply Alike.report
  apply (Instruction.alike_execute hidden h).bind
  intro done done' agree
  apply (agree.settle mode).bind
  rintro after _ rfl
  rw [agree.cycles]
  exact .report (.done ⟨agree.registers, rfl, rfl⟩)

end Registers.Agree

namespace Registers

variable {β : Type} [Bus β] {bus middle : β} {r : Registers} {mode : InterruptMode} {opcode : Byte}

/-- When a device supplies an instruction, that instruction is begun. -/
lemma begun_acceptInt (answer : Bus.acknowledge bus = (.ok opcode, middle)) :
    Instruction.begun? .mode0 ((r.acceptInt .mode0).run bus).trace.accesses =
      some (.ofOpcode opcode) := by
  obtain ⟨rest, seen⟩ : ∃ rest,
      ((r.acceptInt .mode0).run bus).trace.accesses = .acknowledge opcode :: rest :=
    ⟨_, accesses_run_acknowledge answer⟩
  rw [seen]
  rfl

/-- When `PUSH AF` is fetched, it is begun. -/
lemma begun_fetchExecute (answer : Bus.read bus r.pc = (.ok opcode, middle))
    (pushes : Instruction.ofOpcode opcode = .push .af) :
    Instruction.begun? mode ((r.fetchExecute mode).run bus).trace.accesses = some (.push .af) := by
  obtain ⟨rest, seen⟩ : ∃ rest,
      ((r.fetchExecute mode).run bus).trace.accesses = .read r.pc opcode :: rest :=
    ⟨_, accesses_run_read answer⟩
  -- The byte that selects the extended page does not mean a push.
  have single : opcode ≠ Opcode.extendedPage := by
    rintro rfl
    exact absurd pushes (by decide)
  simp only [seen, Instruction.begun?, Instruction.ofAccesses?, beq_iff_eq, single, if_false,
    pushes]

end Registers

/-- What the processor does in a step is alike from registers that agree, if it does not begin to
push AF. -/
theorem Registers.Agree.advance {β : Type} [Bus β] {r r' : Registers} (h : r.Agree r')
    (mode : InterruptMode) {bus : β}
    (other : Instruction.begun? mode ((r.advance mode).run bus).trace.accesses ≠ some (.push .af)) :
    ((r.advance mode).run bus).Alike Advance.Agree ((r'.advance mode).run bus) := by
  have pending : r.nmiPending = r'.nmiPending := h.same Registers.nmiPending
  have accepts : r.acceptsInt = r'.acceptsInt := h.same Registers.acceptsInt
  have halted : r.halted = r'.halted := h.same Registers.halted
  have lifted := h.update (fun x => { x with eiExecuted := false }) fun _ => rfl
  -- Which way the step goes is up to flip-flops, and those are no flags.
  cases hn : r.nmiPending with
  | true =>
    rw [advance_of_nmiPending hn, advance_of_nmiPending (pending.symm.trans hn)]
    exact (h.acceptNmi mode).run bus
  | false =>
    have quiet : r'.nmiPending = false := pending.symm.trans hn
    cases ha : r.acceptsInt with
    | true =>
      rw [advance_of_acceptsInt hn ha] at other ⊢
      rw [advance_of_acceptsInt quiet (accepts.symm.trans ha)]
      apply h.acceptInt mode
      rintro rfl opcode middle answer pushes
      rw [begun_acceptInt answer, pushes] at other
      exact other rfl
    | false =>
      have rejects : r'.acceptsInt = false := accepts.symm.trans ha
      cases hh : r.halted with
      | true =>
        rw [advance_of_halted hn ha hh, advance_of_halted quiet rejects (halted.symm.trans hh)]
        exact (Alike.done ⟨lifted, rfl, rfl⟩).run bus
      | false =>
        rw [advance_of_running hn ha hh] at other ⊢
        rw [advance_of_running quiet rejects (halted.symm.trans hh)]
        apply run_onAbort_alike
        apply lifted.fetchExecute mode
        intro opcode middle answer pushes
        rw [run_onAbort] at other
        exact other (begun_fetchExecute answer pushes)

namespace Processor

variable {β : Type}

/-- The processor with the flags cleared that are not essential, in F and in its shadow. -/
def essential (p : Processor β) : Processor β := { p with registers := p.registers.essential }

/-- Processors that are essentially the same differ in their registers alone, and these agree. -/
lemma essential_inv {p q : Processor β} (same : p.essential = q.essential) :
    ∃ r, p.registers.Agree r ∧ q = { p with registers := r } := by
  cases p
  cases q
  obtain ⟨registers, rfl, rfl, rfl, rfl, rfl⟩ := Processor.mk.inj same
  exact ⟨_, registers, rfl⟩

variable {p : Processor β} {r : Registers}

/-- Banks that agree still do when the lines have been sampled. -/
lemma agree_sampled (h : p.registers.Agree r) :
    p.sampled.registers.Agree { p with registers := r }.sampled.registers :=
  h.update (fun x => { x with
    nmiPending := x.nmiPending || p.lines.nmiEdge
    intPending := p.lines.intLevel }) fun _ => rfl

variable [Bus β]

/-- The instruction that the next step begins, fetched or supplied, if it begins one. -/
def begins? (p : Processor β) : Option Instruction :=
  Instruction.begun? p.mode p.step.trace.accesses

/-- What the processor does in a step, from registers that agree. -/
lemma alike_attempt (h : p.registers.Agree r) (quiet : p.lines.resetRequested = false)
    (other : p.begins? ≠ some (.push .af)) :
    p.attempt.Alike Advance.Agree { p with registers := r }.attempt := by
  rw [begins?, accesses_step quiet] at other
  exact (agree_sampled h).advance p.mode other

/-- A step comes to the same, is seen the same, and leaves processors that agree, if it does not
begin to push AF. -/
lemma step_of_essential {p q : Processor β} (same : p.essential = q.essential)
    (other : p.begins? ≠ some (.push .af)) :
    p.step.result = q.step.result ∧ p.step.trace = q.step.trace ∧
      p.step.processor.essential = q.step.processor.essential := by
  obtain ⟨r, h, rfl⟩ := essential_inv same
  cases hr : p.lines.resetRequested with
  | true =>
    rw [step_of_reset hr, step_of_reset (p := { p with registers := r }) hr]
    exact ⟨rfl, rfl, rfl⟩
  | false =>
    obtain ⟨bus, trace, ending⟩ := alike_attempt h hr other
    generalize hp : p.attempt.ending = endingP at ending
    generalize hq : ({ p with registers := r } : Processor β).attempt.ending = endingQ at ending
    cases ending with
    | @ok a a' agree =>
      obtain ⟨registers, mode, outcome⟩ := agree
      rw [step_of_ok hr hp, step_of_ok (p := { p with registers := r }) hr hq]
      refine ⟨congrArg Except.ok outcome, congrArg p.visible trace, ?_⟩
      simp only [essential, sampled, mode, outcome, bus]
      rw [registers]
    | @error fault left left' =>
      -- A step that stops short leaves the registers that it began with, and those agree.
      obtain rfl : left = p.sampled.registers := registers_of_abort hp
      obtain rfl : left' = { p with registers := r }.sampled.registers := registers_of_abort hq
      rw [step_of_error hr hp, step_of_error (p := { p with registers := r }) hr hq]
      refine ⟨rfl, ?_, ?_⟩
      · show p.visible _ = p.visible _
        rw [trace, h.pc]
      · exact congrArg₂ (fun left after => { p.sampled with registers := left, bus := after })
          (agree_sampled h) bus

/-- Flags that are not essential make no difference to whatever processors are put through, while no
step begins to push AF. -/
lemma lockstep_essential :
    Lockstep (fun p q : Processor β => p.essential = q.essential)
      fun p => p.begins? ≠ some (.push .af) where
  drive := fun same call => congrArg (fun x => x.drive call) same
  changeBus := fun same change => congrArg (fun x => { x with bus := change x.bus }) same
  step := step_of_essential

/-- Half carry, subtract and the two copied bits never steer execution. Of two processors on the
same bus that are the same but for these flags in F and in its shadow, whatever they are put
through, the steps come to the same and are seen the same, access by access, and the processors are
the same but for these flags in the end. This is so as long as no step begins to push AF, which
shows them. -/
theorem inessential_never_steers {p q : Processor β} (same : p.essential = q.essential)
    {stimuli : List (Stimulus β)}
    (other : ∀ x ∈ p.beforeSteps stimuli, x.begins? ≠ some (.push .af)) :
    p.results stimuli = q.results stimuli ∧ p.traces stimuli = q.traces stimuli ∧
      (p.under stimuli).essential = (q.under stimuli).essential :=
  lockstep_essential.run same other

/-- A program that exchanges AF with its shadow, once and again, jumps on carry, and comes to an
opcode without a meaning. The device that may interrupt it supplies `PUSH BC`. -/
def unmarked : Processor Ram where
  registers :=
    { af := 0xFF01, bc := 0x1234, shadow := { af := 0x1200 }, sp := 0x8000, iff1 := true }
  mode := .mode0
  lines := {}
  cycles := 0
  config := {}
  bus := (({} : Ram).withAcknowledge (some 0xC5)).load 0 [0x08, 0x08, 0x38, 0x02, 0x00, 0x00, 0xDD]

/-- The same with the other four flags set, in F and in its shadow. -/
def marked : Processor Ram :=
  { unmarked with
    registers := { unmarked.registers with af := 0xFF3B, shadow := { af := 0x123A } } }

/-- The program is interrupted after its first instruction. -/
def interrupted : List (Stimulus Ram) :=
  [.step, .drive (.driveInt true), .step, .step, .step, .step]

/-- The marks change places, and nothing else comes of them. -/
theorem inessential_never_steers_marked :
    marked.results interrupted =
        [.ok (.retired 4), .ok (.interrupted (.maskable .mode0) 13), .ok (.retired 4),
          .ok (.retired 12), .error (.illegal ⟨none, 0xDD, 6⟩)] ∧
      (marked.under interrupted).essential = (unmarked.under interrupted).essential := by
  have same : unmarked.essential = marked.essential := by decide
  have other : ∀ x ∈ unmarked.beforeSteps interrupted, x.begins? ≠ some (.push .af) := by
    decide +kernel
  obtain ⟨results, -, final⟩ := inessential_never_steers same other
  have steps : unmarked.results interrupted =
      [.ok (.retired 4), .ok (.interrupted (.maskable .mode0) 13), .ok (.retired 4),
        .ok (.retired 12), .error (.illegal ⟨none, 0xDD, 6⟩)] := by rfl
  exact ⟨results.symm.trans steps, final.symm⟩

end Processor

end Z80
