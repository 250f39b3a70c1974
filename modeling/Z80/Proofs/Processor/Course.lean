import Z80.Processor.Step
import Z80.Proofs.Execution.FlipFlop
import Z80.Proofs.Microprogram.Completion

/-!
# The courses of a step

A step without a reset that completes has taken one of five courses: it entered the handler of the
non-maskable interrupt, it answered a maskable interrupt with a call or with an instruction that was
supplied, it idled, or it ran the instruction at the program counter. `Course` says what made it take
each of them, what was seen on the bus, and what became of the flip-flops, and
`Processor.step_course` that there is no other.
-/

namespace Z80

open Microprogram

/-- The instruction that stands first in a log of accesses: fetched from the program counter, or
supplied by the interrupting device. -/
def Instruction.ofAccesses? : List Access → Option Instruction
  | .read _ opcode :: rest =>
    if opcode == Opcode.extendedPage then
      match rest with
      | .read _ extended :: _ => some (ofExtendedOpcode extended)
      | _ => none
    else some (ofOpcode opcode)
  | .acknowledge opcode :: _ => some (ofOpcode opcode)
  | _ => none

namespace FlipFlops

/-- After the entry of a non-maskable interrupt. -/
def enterNmi (s : FlipFlops) : FlipFlops :=
  { s with iff1 := false, nmiPending := false, halted := false }

/-- After the acknowledge cycle of a maskable interrupt. -/
def acknowledge (s : FlipFlops) : FlipFlops :=
  { s with iff1 := false, iff2 := false, halted := false }

/-- When the shadow of an enable is lifted. -/
def lift (s : FlipFlops) : FlipFlops := { s with eiExecuted := false }

end FlipFlops

namespace Registers

variable {β : Type} [Bus β] {bus after : β} {t : Trace}

/-- To enter the handler of the non-maskable interrupt changes its own flip-flops only. -/
lemma flipFlops_acceptNmi (r : Registers) (mode : InterruptMode) :
    (r.acceptNmi mode).Yields fun a =>
      a.outcome = .interrupted .nmi Cost.nmiEntry.cycles ∧
        a.registers.flipFlops = r.flipFlops.enterNmi :=
  ⟨rfl, rfl⟩

/-- A call touches no flip-flop. -/
lemma flipFlops_callTo (r : Registers) (target : Word) :
    (r.callTo target).Yields fun entered => entered.flipFlops = r.flipFlops :=
  rfl

/-- A maskable interrupt is accepted when it is pending, enabled and not held off. -/
lemma acceptsInt_iff (r : Registers) :
    r.acceptsInt = true ↔ r.intPending = true ∧ r.iff1 = true ∧ r.eiExecuted = false := by
  simp only [acceptsInt, Bool.and_eq_true, Bool.not_eq_true', and_assoc]

/-- A non-maskable interrupt that is pending comes first. -/
lemma advance_of_nmiPending {r : Registers} (pending : r.nmiPending = true) (mode : InterruptMode) :
    r.advance mode = r.acceptNmi mode := by
  simp only [advance, pending, if_true]

/-- A maskable interrupt that is accepted comes next. -/
lemma advance_of_acceptsInt {r : Registers} (quiet : r.nmiPending = false)
    (accepts : r.acceptsInt = true) (mode : InterruptMode) : r.advance mode = r.acceptInt mode := by
  simp only [advance, quiet, accepts, Bool.false_eq_true, if_false, if_true]

/-- A halted processor idles when no interrupt is honoured. -/
lemma advance_of_halted {r : Registers} (quiet : r.nmiPending = false)
    (rejects : r.acceptsInt = false) (halted : r.halted = true) (mode : InterruptMode) :
    r.advance mode =
      .done ⟨{ r with eiExecuted := false }, mode, .halted Cost.nop.cycles⟩ := by
  simp only [advance, quiet, rejects, halted, Bool.false_eq_true, if_false, if_true, pure_eq]

/-- A running processor fetches an instruction when no interrupt is honoured. -/
lemma advance_of_running {r : Registers} (quiet : r.nmiPending = false)
    (rejects : r.acceptsInt = false) (running : r.halted = false) (mode : InterruptMode) :
    r.advance mode =
      ({ r with eiExecuted := false }.fetchExecute mode).onAbort
        fun left => { left with eiExecuted := r.eiExecuted } := by
  simp only [advance, quiet, rejects, running, Bool.false_eq_true, if_false]

/-- To take note of what an instruction asks for moves nothing on the bus. -/
lemma settle_inv {done : Retirement} {mode selected : InterruptMode}
    (h : (done.settle mode).Completes bus selected after t) : after = bus ∧ t.accesses = [] := by
  unfold Retirement.settle at h
  cases he : done.effect with
  | none =>
    simp only [he] at h
    obtain ⟨-, rfl, rfl⟩ := h.done_inv
    exact ⟨rfl, rfl⟩
  | halt =>
    simp only [he] at h
    obtain ⟨t', h', rfl⟩ := h.report_inv
    obtain ⟨-, rfl, rfl⟩ := h'.done_inv
    exact ⟨rfl, rfl⟩
  | selectMode m =>
    simp only [he] at h
    obtain ⟨_, middle, t₁, t₂, hr, hd, rfl⟩ := h.bind_inv
    obtain ⟨-, rfl, rfl⟩ := hd.done_inv
    obtain ⟨rfl, silent⟩ := hr.tellRecords_inv
    rw [List.append_nil]
    exact ⟨rfl, silent⟩

/-- An instruction that was supplied was carried out after its operand bytes had been
acknowledged. -/
lemma runSupplied_inv {r : Registers} {opcode : Byte} {done : Retirement}
    (h : (r.runSupplied opcode).Completes bus done after t) :
    ∃ operands middle t₁ t₂,
      (acknowledgeBytes r ((Instruction.ofOpcode opcode).size - 1)).Completes bus operands middle t₁ ∧
      (((Instruction.ofOpcode opcode).execute
          { r with pc := r.pc - UInt16.ofNat (Instruction.ofOpcode opcode).size }).withSupplied
        (r.pc - UInt16.ofNat (Instruction.ofOpcode opcode).size + 1) operands).Completes
          middle done after t₂ ∧
      t = t₁ ++ t₂ :=
  h.bind_inv

/-- An answer in mode 0 was that of the supplied instruction, with its accesses and two cycles
more. -/
lemma answerInt_mode0_inv {r : Registers} {opcode : Byte}
    {entry : Registers × InterruptMode × Nat}
    (h : (r.answerInt .mode0 opcode).Completes bus entry after t) :
    ∃ done t', (r.runSupplied opcode).Completes bus done after t' ∧
      entry.1 = done.registers ∧ entry.2.2 = done.cycles + Cost.mode0Overhead.cycles ∧
      t.accesses = t'.accesses := by
  obtain ⟨done, middle, t₁, t₂, hrun, hrest, rfl⟩ := h.bind_inv
  obtain ⟨selected, middle', t₃, t₄, hs, hd, rfl⟩ := hrest.bind_inv
  obtain ⟨rfl, rfl, rfl⟩ := hd.done_inv
  obtain ⟨rfl, silent⟩ := settle_inv hs
  refine ⟨done, t₁, hrun, rfl, rfl, ?_⟩
  rw [Trace.accesses_append, Trace.accesses_append, silent]
  exact List.append_nil _

/-- A handler that was entered was entered on a byte that a device had given. -/
lemma enterMaskable_inv {r : Registers} {mode : InterruptMode}
    {entry : Registers × InterruptMode × Nat}
    (h : (r.enterMaskable mode).Completes bus entry after t) :
    ∃ byte middle t', Bus.acknowledge bus = (.ok byte, middle) ∧
      ({ r.withInterruptsEnabled false with halted := false }.answerInt mode byte).Completes
        middle entry after t' ∧
      t = .access (.acknowledge byte) :: t' :=
  h.acknowledgeByte_bind_inv

/-- A maskable interrupt that was accepted has led where its handler was entered. -/
lemma acceptInt_inv {r : Registers} {mode : InterruptMode} {a : Advance}
    (h : (r.acceptInt mode).Completes bus a after t) :
    ∃ entry t', (r.enterMaskable mode).Completes bus entry after t' ∧
      a = ⟨entry.1, entry.2.1, .interrupted (.maskable mode) entry.2.2⟩ ∧
      t.accesses = t'.accesses := by
  obtain ⟨entry, middle, t₁, t₂, hentry, hrest, rfl⟩ := h.bind_inv
  obtain ⟨t₃, hevent, rfl⟩ := hrest.tell_bind_inv
  obtain ⟨t₄, hend, rfl⟩ := hevent.tell_bind_inv
  obtain ⟨rfl, rfl, rfl⟩ := hend.done_inv
  refine ⟨entry, t₁, hentry.onAbort_inv, rfl, ?_⟩
  rw [Trace.accesses_append]
  exact List.append_nil _

/-- What a supplied instruction does to the flip-flops is what it does anywhere. -/
lemma flipFlops_runSupplied (r : Registers) (opcode : Byte) :
    (r.runSupplied opcode).Yields fun done =>
      done.registers.flipFlops = (Instruction.ofOpcode opcode).switch r.flipFlops := by
  apply Yields.bind (.of_forall (fun _ => trivial) _)
  intro operands _
  have placed := (Instruction.ofOpcode opcode).flipFlops_execute
    { r with pc := r.pc - UInt16.ofNat (Instruction.ofOpcode opcode).size }
  exact placed.withSupplied _ operands

/-- A page byte takes one read more, and any other opcode none. -/
lemma decodeRest_inv {now : Registers} {pc : Word} {opcode : Byte} {i : Instruction}
    (h : (Instruction.decodeRest now pc opcode).Completes bus i after t) :
    (opcode = Opcode.extendedPage ∧ ∃ extended, i = .ofExtendedOpcode extended ∧
        t.accesses = [.read (pc + 1) extended]) ∨
      (opcode ≠ Opcode.extendedPage ∧ i = .ofOpcode opcode ∧ t.accesses = []) := by
  unfold Instruction.decodeRest at h
  split at h
  case isTrue page =>
    obtain ⟨extended, middle, t', -, hd, rfl⟩ := h.readByte_bind_inv
    obtain ⟨rfl, -, rfl⟩ := hd.done_inv
    exact .inl ⟨beq_iff_eq.mp page, extended, rfl, rfl⟩
  case isFalse page =>
    obtain ⟨rfl, -, rfl⟩ := h.done_inv
    exact .inr ⟨fun same => page (beq_iff_eq.mpr same), rfl, rfl⟩

/-- The instruction that was decoded is the one that stands first in the log. -/
lemma ofAccesses_decodeRest {now : Registers} {pc : Word} {opcode : Byte} {i : Instruction}
    (h : (Instruction.decodeRest now pc opcode).Completes bus i after t) (rest : List Access) :
    Instruction.ofAccesses? (.read pc opcode :: (t.accesses ++ rest)) = some i := by
  obtain ⟨rfl, extended, rfl, seen⟩ | ⟨page, rfl, seen⟩ := decodeRest_inv h
  · rw [seen]
    rfl
  · simp only [seen, List.nil_append, Instruction.ofAccesses?, beq_iff_eq, page, if_false]

/-- To fetch and run an instruction takes the read of its first byte, the accesses of its decoding
and those of its execution, one after the other. Then note is taken of what it asks for. -/
lemma fetchExecute_stages {r : Registers} {mode : InterruptMode} {a : Advance}
    (h : (r.fetchExecute mode).Completes bus a after t) :
    ∃ (opcode : Byte) (i : Instruction) (done : Retirement) (bus₁ bus₂ bus₃ : β) (t₁ t₂ t₃ : Trace),
      (Instruction.decodeRest r r.pc opcode).Completes bus₁ i bus₂ t₁ ∧
      (i.execute r).Completes bus₂ done bus₃ t₂ ∧
      (done.settle mode).Completes bus₃ a.mode after t₃ ∧
      a.registers = done.registers ∧ a.outcome = .retired done.cycles ∧
      t.accesses = .read r.pc opcode :: (t₁.accesses ++ t₂.accesses) := by
  obtain ⟨opcode, bus₁, t₁, -, hstart, rfl⟩ := h.readByte_bind_inv
  obtain ⟨t₂, hdecode, rfl⟩ := hstart.tell_bind_inv
  obtain ⟨i, bus₂, t₃, t₄, hi, hdecoded, rfl⟩ := hdecode.bind_inv
  obtain ⟨t₅, hexecute, rfl⟩ := hdecoded.tell_bind_inv
  obtain ⟨done, bus₃, t₆, t₇, hdone, hsettle, rfl⟩ := hexecute.bind_inv
  obtain ⟨selected, bus₄, t₈, t₉, hs, hretired, rfl⟩ := hsettle.bind_inv
  obtain ⟨t₁₀, hend, rfl⟩ := hretired.tell_bind_inv
  obtain ⟨rfl, rfl, rfl⟩ := hend.done_inv
  obtain ⟨-, silent⟩ := settle_inv hs
  refine ⟨opcode, i, done, bus₁, bus₂, bus₃, t₃, t₆, t₈, hi, hdone, hs, rfl, rfl, ?_⟩
  simp only [Trace.accesses_append, Trace.accesses_access, Trace.accesses_report,
    Trace.accesses_nil, silent, List.append_nil]

/-- An instruction that was completed was fetched, decoded and carried out, in this order. -/
lemma fetchExecute_parts {r : Registers} {mode : InterruptMode} {a : Advance}
    (h : (r.fetchExecute mode).Completes bus a after t) :
    ∃ (opcode : Byte) (i : Instruction) (done : Retirement) (bus₁ bus₂ bus₃ : β) (t₁ t₂ : Trace),
      (Instruction.decodeRest r r.pc opcode).Completes bus₁ i bus₂ t₁ ∧
      (i.execute r).Completes bus₂ done bus₃ t₂ ∧
      a.registers = done.registers ∧ a.outcome = .retired done.cycles ∧
      t.accesses = .read r.pc opcode :: (t₁.accesses ++ t₂.accesses) := by
  obtain ⟨opcode, i, done, bus₁, bus₂, bus₃, t₁, t₂, -, decoded, executed, -, ends⟩ :=
    fetchExecute_stages h
  exact ⟨opcode, i, done, bus₁, bus₂, bus₃, t₁, t₂, decoded, executed, ends⟩

/-- An instruction that was completed is told by the accesses, and the flip-flops are as it leaves
them. -/
lemma fetchExecute_inv {r : Registers} {mode : InterruptMode} {a : Advance}
    (h : (r.fetchExecute mode).Completes bus a after t) :
    ∃ i cycles, a.outcome = .retired cycles ∧
      Instruction.ofAccesses? t.accesses = some i ∧
      a.registers.flipFlops = i.switch r.flipFlops := by
  obtain ⟨opcode, i, done, bus₁, bus₂, bus₃, t₁, t₂, hi, hdone, registers, outcome, seen⟩ :=
    fetchExecute_parts h
  refine ⟨i, done.cycles, outcome, ?_, ?_⟩
  · rw [seen]
    exact ofAccesses_decodeRest hi _
  · rw [registers]
    exact hdone.yields (i.flipFlops_execute r)

end Registers

/-- What a step without a reset has done when it completes: which course it took, and why. -/
inductive Course (r : Registers) (mode : InterruptMode) (a : Advance) (seen : List Access) : Prop where
  /-- It entered the handler of the non-maskable interrupt. -/
  | nmi (pending : r.nmiPending = true)
      (outcome : a.outcome = .interrupted .nmi Cost.nmiEntry.cycles)
      (flipFlops : a.registers.flipFlops = r.flipFlops.enterNmi)
  /-- It called the handler of a maskable interrupt. -/
  | called (quiet : r.nmiPending = false) (accepts : r.acceptsInt = true) (vectored : mode ≠ .mode0)
      (cycles : Nat) (outcome : a.outcome = .interrupted (.maskable mode) cycles)
      (byte : Byte) (rest : List Access) (shape : seen = .acknowledge byte :: rest)
      (flipFlops : a.registers.flipFlops = r.flipFlops.acknowledge)
  /-- It answered a maskable interrupt with the instruction that the device supplied. -/
  | supplied (quiet : r.nmiPending = false) (accepts : r.acceptsInt = true) (mode0 : mode = .mode0)
      (cycles : Nat) (outcome : a.outcome = .interrupted (.maskable .mode0) cycles)
      (byte : Byte) (rest : List Access) (shape : seen = .acknowledge byte :: rest)
      (flipFlops : a.registers.flipFlops =
        (Instruction.ofOpcode byte).switch r.flipFlops.acknowledge)
  /-- It was halted. -/
  | idle (quiet : r.nmiPending = false) (rejects : r.acceptsInt = false) (halted : r.halted = true)
      (outcome : a.outcome = .halted Cost.nop.cycles) (silent : seen = [])
      (flipFlops : a.registers.flipFlops = r.flipFlops.lift)
  /-- It ran the instruction at the program counter. -/
  | fetched (quiet : r.nmiPending = false) (rejects : r.acceptsInt = false)
      (running : r.halted = false) (cycles : Nat) (outcome : a.outcome = .retired cycles)
      (i : Instruction) (fetch : Instruction.ofAccesses? seen = some i)
      (flipFlops : a.registers.flipFlops = i.switch r.flipFlops.lift)

namespace Registers

variable {β : Type} [Bus β] {bus after : β} {t : Trace}

/-- A maskable interrupt takes the course of a called handler or of a supplied instruction. -/
lemma course_acceptInt {r : Registers} {mode : InterruptMode} {a : Advance}
    (quiet : r.nmiPending = false) (accepts : r.acceptsInt = true)
    (h : (r.acceptInt mode).Completes bus a after t) : Course r mode a t.accesses := by
  obtain ⟨entry, t₁, hentry, rfl, same⟩ := acceptInt_inv h
  obtain ⟨byte, middle, t₂, -, hanswer, rfl⟩ := enterMaskable_inv hentry
  cases mode with
  | mode0 =>
    obtain ⟨done, t₃, hrun, registers, -, -⟩ := answerInt_mode0_inv hanswer
    refine .supplied quiet accepts rfl _ rfl byte (Trace.accesses t₂) same ?_
    rw [registers]
    exact hrun.yields (flipFlops_runSupplied _ byte)
  | mode1 =>
    obtain ⟨entered, middle', t₃, t₄, hcall, hend, rfl⟩ := hanswer.bind_inv
    obtain ⟨rfl, -, -⟩ := hend.done_inv
    exact .called quiet accepts nofun _ rfl byte _ same (hcall.yields (flipFlops_callTo _ _))
  | mode2 =>
    obtain ⟨entered, middle', t₃, t₄, hcall, hend, rfl⟩ := hanswer.bind_inv
    obtain ⟨rfl, -, -⟩ := hend.done_inv
    exact .called quiet accepts nofun _ rfl byte _ same (hcall.yields (flipFlops_callTo _ _))

/-- What the processor does in a step takes one of the five courses. -/
theorem course_advance {r : Registers} {mode : InterruptMode} {a : Advance}
    (h : (r.advance mode).Completes bus a after t) : Course r mode a t.accesses := by
  unfold advance at h
  split at h
  case isTrue pending =>
    obtain ⟨outcome, flipFlops⟩ := h.yields (flipFlops_acceptNmi r mode)
    exact .nmi pending outcome flipFlops
  case isFalse hn =>
    have quiet : r.nmiPending = false := Bool.eq_false_iff.mpr hn
    split at h
    case isTrue accepts => exact course_acceptInt quiet accepts h
    case isFalse ha =>
      have rejects : r.acceptsInt = false := Bool.eq_false_iff.mpr ha
      split at h
      case isTrue halted =>
        obtain ⟨rfl, -, rfl⟩ := h.done_inv
        exact .idle quiet rejects halted rfl rfl rfl
      case isFalse hh =>
        obtain ⟨i, cycles, outcome, fetch, flipFlops⟩ := fetchExecute_inv h.onAbort_inv
        exact .fetched quiet rejects (Bool.eq_false_iff.mpr hh) cycles outcome i fetch flipFlops

end Registers

namespace Processor

variable {β : Type}

/-- A non-maskable interrupt waits, at the line or in its flip-flop. -/
def nmiWaiting (p : Processor β) : Bool := p.registers.nmiPending || p.lines.nmiEdge

/-- What is not seen without tracing is events. -/
lemma filterMap_visible {γ : Type} {f : Observation → Option γ}
    (unheard : ∀ e, f (.report (.event e)) = none) (p : Processor β) (t : Trace) :
    (p.visible t).filterMap f = t.filterMap f := by
  unfold visible
  split
  case isTrue => rfl
  case isFalse =>
    rw [List.filterMap_filter]
    congr 1
    funext seen
    cases seen with
    | access a => rfl
    | report r =>
      cases r with
      | event e => exact (unheard e).symm
      | record r => rfl

/-- Tracing makes no difference to the accesses. -/
lemma accesses_visible (p : Processor β) (t : Trace) : (p.visible t).accesses = t.accesses :=
  filterMap_visible (fun _ => rfl) p t

/-- A reset makes no access. -/
lemma accesses_step_of_reset [Bus β] {p : Processor β} (h : p.lines.resetRequested = true) :
    p.step.trace.accesses = [] := by
  rw [step_of_reset h, accesses_visible]
  rfl

/-- Without a reset the accesses of a step are those of its attempt. -/
lemma accesses_step [Bus β] {p : Processor β} (h : p.lines.resetRequested = false) :
    p.step.trace.accesses = p.attempt.trace.accesses := by
  obtain hr | ⟨-, ⟨a, ha⟩ | ⟨abort, ha⟩⟩ := p.step_cases
  · exact absurd (hr.symm.trans h) nofun
  · rw [step_of_ok h ha, accesses_visible]
  · rw [step_of_error h ha, accesses_visible, Trace.accesses_append]
    exact List.append_nil _

/-- A step that completes without a reset takes one of the five courses. -/
theorem step_course [Bus β] {p : Processor β} {a : Advance}
    (h : p.lines.resetRequested = false) (ha : p.attempt.ending = .ok a) :
    Course p.sampled.registers p.mode a p.step.trace.accesses := by
  rw [step_of_ok h ha, accesses_visible]
  exact Registers.course_advance (Completes.of_ending ha)

end Processor

end Z80
