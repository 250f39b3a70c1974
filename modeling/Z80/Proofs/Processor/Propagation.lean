import Z80.Proofs.Microprogram.Failure
import Z80.Proofs.Processor.Atomicity
import Z80.Proofs.Processor.Course

/-!
# Faults and the accesses that cause them

A failure of the bus ends the step and is passed on as it is: nothing is tried again, and nothing is
accessed after it. A step that gives up on an opcode has met it without a failure, at the program
counter or from the interrupting device (`MeetsIllegal`). Together this says what a fault of a step
stands for (`Processor.step_propagates`).
-/

namespace Z80

open Microprogram

/-- The log of a step that gave up on an opcode without a meaning, and the cause it names: the opcode
was read from the program counter, or after a page byte there, or supplied by the interrupting
device, for a place just before the program counter. -/
inductive MeetsIllegal (pc : Word) : List Access → IllegalOpcode → Prop where
  | fetched {opcode : Byte} (base : opcode ≠ Opcode.extendedPage)
      (unassigned : Instruction.ofOpcode opcode = .illegal none opcode) :
      MeetsIllegal pc [.read pc opcode] ⟨none, opcode, pc⟩
  | extended {opcode : Byte}
      (unassigned : Instruction.ofExtendedOpcode opcode =
        .illegal (some Opcode.extendedPage) opcode) :
      MeetsIllegal pc [.read pc Opcode.extendedPage, .read (pc + 1) opcode]
        ⟨some Opcode.extendedPage, opcode, pc⟩
  | supplied {opcode : Byte}
      (unassigned : Instruction.ofOpcode opcode = .illegal none opcode) :
      MeetsIllegal pc [.acknowledge opcode] ⟨none, opcode, pc - 1⟩

/-- Where every place to stop short is at an access, no opcode is given up on. -/
lemma Microprogram.Stops.neverIllegal {α : Type} {r : Registers} {p : Microprogram α}
    (hp : p.Stops r.Accessing) : p.NeverIllegal :=
  hp.imp fun _ _ h => h.2.2

namespace Instruction

variable {β : Type} [Bus β] {bus after : β} {t : Trace} {cause : IllegalOpcode} {left : Registers}

/-- An opcode without a meaning is decoded to an instruction that names it. -/
lemma ofOpcode_of_isIllegal (opcode : Byte) :
    (ofOpcode opcode).isIllegal = true → ofOpcode opcode = .illegal none opcode := by
  revert opcode
  exact Byte.forall_of_lt (by decide +kernel)

/-- An opcode of the extended page that means nothing is told with its page. -/
lemma ofExtendedOpcode_of_isIllegal (opcode : Byte) :
    (ofExtendedOpcode opcode).isIllegal = true →
      ofExtendedOpcode opcode = .illegal (some Opcode.extendedPage) opcode := by
  revert opcode
  exact Byte.forall_of_lt (by decide +kernel)

/-- An instruction that gives up on an opcode is that opcode, and has made no access. -/
lemma execute_illegal_inv {i : Instruction} {r : Registers} {first : Word} {bytes : List Byte}
    (h : ((i.execute r).withSupplied first bytes).Aborts bus ⟨.illegal cause, left⟩ after t) :
    i = .illegal cause.page cause.opcode ∧ cause.pc = r.pc ∧ t = [] := by
  cases legal : i.isIllegal with
  | false =>
    have accesses := (stops_execute_of_legal legal r).withSupplied first bytes
    exact absurd h accesses.neverIllegal.not_aborts
  | true =>
    cases i with
    | illegal page opcode =>
      cases h
      exact ⟨rfl, rfl, rfl⟩
    | _ => cases legal

end Instruction

namespace Registers

variable {β : Type} [Bus β] {bus after : β} {t : Trace} {cause : IllegalOpcode} {left : Registers}

/-- To acknowledge bytes is never an illegal opcode. -/
lemma neverIllegal_acknowledgeBytes (now : Registers) (n : Nat) :
    (acknowledgeBytes now n).NeverIllegal := by
  induction n with
  | zero => exact trivial
  | succ n ih =>
    refine ⟨nofun, ?_⟩
    intro value
    show NeverIllegal ((acknowledgeBytes now n).bind fun rest => .done (value :: rest))
    exact ih.bind_done

/-- To take note of what an instruction asks for, no opcode is needed. -/
lemma neverIllegal_settle (done : Retirement) (mode : InterruptMode) :
    (done.settle mode).NeverIllegal :=
  stops_settle done mode _

/-- An opcode that was decoded to no instruction is one that means nothing on its page. -/
lemma meetsIllegal_of_decodeRest {now : Registers} {pc : Word} {opcode : Byte} {i : Instruction}
    (h : (Instruction.decodeRest now pc opcode).Completes bus i after t)
    (named : i = .illegal cause.page cause.opcode) (place : cause.pc = pc) :
    MeetsIllegal pc (.read pc opcode :: t.accesses) cause := by
  have illegal : i.isIllegal = true := by rw [named]; rfl
  obtain ⟨page, byte, address⟩ := cause
  obtain rfl : address = pc := place
  obtain ⟨rfl, extended, rfl, seen⟩ | ⟨base, rfl, seen⟩ := decodeRest_inv h
  · have unassigned := Instruction.ofExtendedOpcode_of_isIllegal extended illegal
    obtain ⟨rfl, rfl⟩ := Instruction.illegal.inj (named.symm.trans unassigned)
    rw [seen]
    exact .extended unassigned
  · have unassigned := Instruction.ofOpcode_of_isIllegal opcode illegal
    obtain ⟨rfl, rfl⟩ := Instruction.illegal.inj (named.symm.trans unassigned)
    rw [seen]
    exact .fetched base unassigned

/-- The instruction at the program counter is given up on when its opcode has been read without a
failure and means nothing. -/
lemma fetchExecute_illegal_inv {r : Registers} {mode : InterruptMode}
    (h : (r.fetchExecute mode).Aborts bus ⟨.illegal cause, left⟩ after t) :
    MeetsIllegal r.pc t.accesses cause := by
  obtain ⟨_, failed⟩ | ⟨opcode, bus₁, t₁, hstart, rfl⟩ := h.readByte_bind_inv
  · cases failed
  obtain ⟨t₂, hdecode, rfl⟩ := hstart.tell_bind_inv
  obtain ⟨i, bus₂, t₃, t₄, hi, hdecoded, rfl⟩ := hdecode.bind_inv.resolve_left
    (Instruction.stops_decodeRest r r.pc opcode).neverIllegal.not_aborts
  obtain ⟨t₅, hexecute, rfl⟩ := hdecoded.tell_bind_inv
  -- Only the execution itself can give up, and what it gives up on is the opcode just decoded.
  obtain hillegal | ⟨done, bus₃, t₆, t₇, -, hrest, rfl⟩ := hexecute.bind_inv
  · rw [← withSupplied_nil 0 (i.execute r)] at hillegal
    obtain ⟨named, place, rfl⟩ := Instruction.execute_illegal_inv hillegal
    simp only [Trace.accesses_access, Trace.accesses_report, Trace.accesses_append,
      Trace.accesses_nil, List.append_nil]
    exact meetsIllegal_of_decodeRest hi named place
  · have noted : NeverIllegal ((done.settle mode).bind fun selected =>
        (tell (.event (.instructionRetired r.pc (.ofNat done.cycles)))).bind fun _ =>
          .done (Advance.mk done.registers selected (.retired done.cycles))) :=
      (neverIllegal_settle done mode).bind fun _ => trivial
    exact absurd hrest noted.not_aborts

/-- A supplied instruction is given up on when its opcode means nothing. No further byte has been
asked for then. -/
lemma runSupplied_illegal_inv {r : Registers} {opcode : Byte}
    (h : (r.runSupplied opcode).Aborts bus ⟨.illegal cause, left⟩ after t) :
    Instruction.ofOpcode opcode = .illegal none opcode ∧ cause = ⟨none, opcode, r.pc - 1⟩ ∧
      t.accesses = [] := by
  obtain ⟨operands, bus₁, t₁, t₂, hoperands, hexecute, rfl⟩ := h.bind_inv.resolve_left
    (neverIllegal_acknowledgeBytes r _).not_aborts
  obtain ⟨named, place, rfl⟩ := Instruction.execute_illegal_inv hexecute
  have illegal : (Instruction.ofOpcode opcode).isIllegal = true := by rw [named]; rfl
  have unassigned := Instruction.ofOpcode_of_isIllegal opcode illegal
  -- Such an instruction has a size of one, so no operand byte was asked for.
  rw [unassigned] at named place hoperands
  obtain ⟨page, byte, pc⟩ := cause
  obtain ⟨rfl, rfl⟩ := Instruction.illegal.inj named
  obtain rfl : pc = r.pc - 1 := place
  obtain ⟨-, -, rfl⟩ := Completes.done_inv hoperands
  exact ⟨unassigned, rfl, rfl⟩

/-- Only an instruction that the device supplied can be given up on in an answer to a maskable
interrupt. -/
lemma enterMaskable_illegal_inv {r : Registers} {mode : InterruptMode}
    (h : (r.enterMaskable mode).Aborts bus ⟨.illegal cause, left⟩ after t) :
    MeetsIllegal r.pc t.accesses cause := by
  obtain ⟨_, failed⟩ | ⟨data, bus₁, t₁, hanswer, rfl⟩ := h.acknowledgeByte_bind_inv
  · cases failed
  cases mode with
  | mode0 =>
    obtain hillegal | ⟨done, bus₂, t₂, t₃, -, hrest, rfl⟩ := Aborts.bind_inv hanswer
    · obtain ⟨unassigned, rfl, silent⟩ := runSupplied_illegal_inv hillegal
      rw [Trace.accesses_access, silent]
      exact .supplied unassigned
    · exact absurd hrest (neverIllegal_settle done _).bind_done.not_aborts
  | mode1 => exact absurd hanswer (stops_callTo _ _).neverIllegal.bind_done.not_aborts
  | mode2 => exact absurd hanswer (stops_callTo _ _).neverIllegal.bind_done.not_aborts

/-- A maskable interrupt that met an illegal opcode was supplied with it. -/
lemma acceptInt_illegal_inv {r : Registers} {mode : InterruptMode}
    (h : (r.acceptInt mode).Aborts bus ⟨.illegal cause, left⟩ after t) :
    MeetsIllegal r.pc t.accesses cause := by
  obtain hentry | ⟨entry, bus₁, t₁, t₂, -, hrest, rfl⟩ := h.bind_inv
  · obtain ⟨_, hentry⟩ := hentry.onAbort_inv
    exact enterMaskable_illegal_inv hentry
  · have noted : NeverIllegal ((tell (.record (.intAccepted entry.2.1 entry.1.pc))).bind fun _ =>
        (tell (.event (.interruptAccepted (.maskable mode) entry.1.pc))).bind fun _ =>
          .done (Advance.mk entry.1 entry.2.1 (.interrupted (.maskable mode) entry.2.2))) := trivial
    exact absurd hrest noted.not_aborts

/-- A step that gives up on an opcode has met it at the program counter or in the answer to a
maskable interrupt. -/
lemma advance_illegal_inv {r : Registers} {mode : InterruptMode}
    (h : (r.advance mode).Aborts bus ⟨.illegal cause, left⟩ after t) :
    MeetsIllegal r.pc t.accesses cause := by
  unfold advance at h
  split at h
  case isTrue =>
    exact absurd h (stops_acceptNmi r mode).neverIllegal.not_aborts
  case isFalse =>
    split at h
    case isTrue => exact acceptInt_illegal_inv h
    case isFalse =>
      split at h
      case isTrue => cases h
      case isFalse =>
        obtain ⟨_, hfetch⟩ := h.onAbort_inv
        exact fetchExecute_illegal_inv (r := { r with eiExecuted := false }) hfetch

end Registers

namespace MeetsIllegal

variable {pc : Word} {seen : List Access} {cause : IllegalOpcode}

/-- None of the accesses that met an opcode without a meaning has failed. -/
lemma completed (h : MeetsIllegal pc seen cause) : ∀ access ∈ seen, access.error? = none := by
  cases h with
  | fetched | extended | supplied => simp [Access.error?]

end MeetsIllegal

namespace Processor

variable {β : Type}

/-- An access that fails is the last one of its step, and its error is the result. -/
lemma step_failed [Bus β] {p : Processor β} {before later : List Access} {request : Request}
    {error : BusError} (h : p.step.trace.accesses = before ++ .failed request error :: later) :
    later = [] ∧ p.step.result = .error (.bus error) := by
  cases hr : p.lines.resetRequested with
  | true =>
    rw [accesses_step_of_reset hr] at h
    exact (Access.not_failed_nil h).elim
  | false =>
    rw [accesses_step hr] at h
    obtain ⟨last, left, ending⟩ := run_failed h
    exact ⟨last, by rw [step_of_error hr ending]⟩

/-- A step without a reset that faults is an attempt that stopped short with that fault. -/
lemma attempt_of_step_error [Bus β] {p : Processor β} {fault : Fault}
    (h : p.step.result = .error fault) :
    p.lines.resetRequested = false ∧ ∃ left, p.attempt.ending = .error ⟨fault, left⟩ := by
  obtain hr | ⟨hr, ⟨a, ha⟩ | ⟨abort, ha⟩⟩ := p.step_cases
  · rw [step_of_reset hr] at h
    cases h
  · rw [step_of_ok hr ha] at h
    cases h
  · rw [step_of_error hr ha] at h
    cases h
    exact ⟨hr, abort.registers, ha⟩

/-- A step that ends with the error of the bus has seen the access that failed, and seen it last. -/
lemma step_bus_fault [Bus β] {p : Processor β} {error : BusError}
    (h : p.step.result = .error (.bus error)) :
    ∃ before request, p.step.trace.accesses = before ++ [.failed request error] := by
  obtain ⟨hr, left, ending⟩ := attempt_of_step_error h
  rw [accesses_step hr]
  exact run_bus_fault ending

/-- A step that ends with an illegal opcode has read or been supplied with it. -/
lemma step_illegal [Bus β] {p : Processor β} {cause : IllegalOpcode}
    (h : p.step.result = .error (.illegal cause)) :
    MeetsIllegal p.registers.pc p.step.trace.accesses cause := by
  obtain ⟨hr, left, ending⟩ := attempt_of_step_error h
  rw [accesses_step hr]
  exact Registers.advance_illegal_inv (r := p.sampled.registers) (Aborts.of_ending ending)

/-- The log of a step misses no access. -/
lemma perform_step [Bus β] (p : Processor β) :
    Bus.perform p.bus (p.step.trace.accesses.map Access.request) =
      (p.step.trace.accesses, p.step.processor.bus) := by
  obtain hr | ⟨hr, ⟨a, ha⟩ | ⟨abort, ha⟩⟩ := p.step_cases
  · rw [accesses_step_of_reset hr, step_of_reset hr]
    rfl
  · rw [accesses_step hr, step_of_ok hr ha]
    exact perform_run _ _
  · rw [accesses_step hr, step_of_error hr ha]
    exact perform_run _ _

/-- Faults and accesses of a step, from whatever state and on whatever bus. The log has every access
to the bus, byte for byte. The first that fails is the last one, and its failure is the fault of the
step. A step faults with a failure of the bus only when its last access has failed so, and gives up on
an opcode only when no access has failed and the opcode it was given means nothing. -/
theorem step_propagates [Bus β] (p : Processor β) :
    Bus.perform p.bus (p.step.trace.accesses.map Access.request) =
        (p.step.trace.accesses, p.step.processor.bus) ∧
      (∀ before request error later,
        p.step.trace.accesses = before ++ .failed request error :: later →
          later = [] ∧ p.step.result = .error (.bus error)) ∧
      (∀ error, p.step.result = .error (.bus error) →
        ∃ before request, p.step.trace.accesses = before ++ [.failed request error]) ∧
      (∀ cause, p.step.result = .error (.illegal cause) →
        (∀ access ∈ p.step.trace.accesses, access.error? = none) ∧
          MeetsIllegal p.registers.pc p.step.trace.accesses cause) := by
  refine ⟨p.perform_step, ?_, ?_, ?_⟩
  · intro before request error later seen
    exact step_failed seen
  · intro error fault
    exact step_bus_fault fault
  · intro cause fault
    exact ⟨(step_illegal fault).completed, step_illegal fault⟩

end Processor

end Z80
