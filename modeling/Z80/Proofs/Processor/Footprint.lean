import Z80.Bus.Ram
import Z80.Proofs.Execution.Phases
import Z80.Proofs.Microprogram.Footprint
import Z80.Proofs.Processor.Course

/-!
# The footprint of a fetched instruction

The length of an instruction is stated in one place, its bytes are read in others, by the decoder and
by its operands, and the program counter moves in a third. They agree: a step that runs the
instruction at the program counter reads the bytes of its encoding one after the other, then at most
two bytes of data, then writes at most two, and goes on at the address after the encoding if the
instruction does not jump (`Processor.step_footprint`).
-/

namespace Z80

open Microprogram

namespace Instruction

variable {β : Type} [Bus β] {bus after : β} {t : Trace}

/-- An instruction reads its operand bytes, then data, and then writes. -/
lemma footprint_execute {i : Instruction} {r : Registers} {done : Retirement}
    (encodable : i.isEncodable = true) (h : (i.execute r).Completes bus done after t) :
    ∃ operands loaded stored, operands.length = i.operandBytes ∧
      loaded.length ≤ 2 ∧ stored.length ≤ 2 ∧
      t.accesses =
        Access.reads (r.pc + 1) operands ++ (Access.loads loaded ++ Access.stores stored) := by
  obtain ⟨operands, rest, middle, t', length, phase, hrest, seen⟩ :=
    (i.phases_execute r encodable).seen h
  obtain ⟨loaded, stored, few, fewer, moved⟩ := phase.seen hrest
  refine ⟨operands, loaded, stored, length, few, fewer, ?_⟩
  rw [seen, moved]

/-- Decoding and execution together read the bytes after the first. -/
lemma footprint_decoded {opcode : Byte} {i : Instruction} {r : Registers} {done : Retirement}
    {bus₁ bus₂ : β} {t₁ t₂ : Trace}
    (hdecode : (decodeRest r r.pc opcode).Completes bus i bus₁ t₁)
    (hexecute : (i.execute r).Completes bus₁ done bus₂ t₂) :
    ∃ others loaded stored, others.length + 1 = i.size ∧
      loaded.length ≤ 2 ∧ stored.length ≤ 2 ∧
      t₁.accesses ++ t₂.accesses =
        Access.reads (r.pc + 1) others ++ (Access.loads loaded ++ Access.stores stored) := by
  obtain ⟨-, extended, rfl, decoding⟩ | ⟨-, rfl, decoding⟩ := Registers.decodeRest_inv hdecode
  · obtain ⟨encodable, size, bare⟩ := encoding_ofExtendedOpcode extended
    obtain ⟨operands, loaded, stored, length, few, fewer, seen⟩ :=
      footprint_execute encodable hexecute
    obtain rfl : operands = [] := List.length_eq_zero_iff.mp (length.trans bare)
    refine ⟨[extended], loaded, stored, size.symm, few, fewer, ?_⟩
    rw [decoding, seen]
    rfl
  · obtain ⟨operands, loaded, stored, length, few, fewer, seen⟩ :=
      footprint_execute (isEncodable_ofOpcode opcode) hexecute
    refine ⟨operands, loaded, stored, ?_, few, fewer, ?_⟩
    · rw [length, size_ofOpcode]
    · rw [decoding, seen, List.nil_append]

end Instruction

/-- A step that retires an instruction had no interrupt to serve and was not halted. -/
lemma Course.fetches_of_retired {r : Registers} {mode : InterruptMode} {a : Advance}
    {seen : List Access} {cycles : Nat} (h : Course r mode a seen)
    (outcome : a.outcome = .retired cycles) :
    r.nmiPending = false ∧ r.acceptsInt = false ∧ r.halted = false := by
  cases h with
  | fetched quiet rejects running => exact ⟨quiet, rejects, running⟩
  | nmi _ other | called _ _ _ _ other | supplied _ _ _ _ other | idle _ _ _ other =>
    rw [outcome] at other
    cases other

namespace Processor

variable {β : Type}

/-- The registers an instruction is fetched with: the inputs have been sampled, and the shadow of an
enable is lifted. -/
def fetching (p : Processor β) : Registers := { p.sampled.registers with eiExecuted := false }

/-- What is sampled does not decide whether an instruction jumps. -/
lemma jumps_fetching (i : Instruction) (p : Processor β) :
    i.jumps p.fetching = i.jumps p.registers := by
  cases i <;> rfl

/-- A step that retires an instruction has fetched it and run it. -/
lemma step_retired_inv [Bus β] {p : Processor β} {cycles : Nat}
    (h : p.step.result = .ok (.retired cycles)) :
    ∃ t a, (p.fetching.fetchExecute p.mode).Completes p.bus a p.step.processor.bus t ∧
      p.step.processor.registers = a.registers ∧ p.step.trace.accesses = t.accesses := by
  obtain hr | ⟨hr, ⟨a, ha⟩ | ⟨abort, ha⟩⟩ := p.step_cases
  · rw [step_of_reset hr] at h
    cases h
  · have outcome : a.outcome = .retired cycles := by
      rw [step_of_ok hr ha] at h
      exact Except.ok.inj h
    obtain ⟨quiet, rejects, running⟩ := (step_course hr ha).fetches_of_retired outcome
    have completes : (p.sampled.registers.advance p.mode).Completes p.bus a p.attempt.bus
        p.attempt.trace := Completes.of_ending ha
    rw [Registers.advance_of_running quiet rejects running] at completes
    refine ⟨p.attempt.trace, a, ?_, ?_, accesses_step hr⟩
    · rw [step_of_ok hr ha]
      exact completes.onAbort_inv
    · rw [step_of_ok hr ha]
  · rw [step_of_error hr ha] at h
    cases h

/-- A step that retires an instruction reads the bytes of its encoding from the program counter on,
each once and in order, then at most two bytes of data, then writes at most two, and does nothing
else on the bus. An instruction that does not jump ends at the address after its encoding. -/
theorem step_footprint [Bus β] (p : Processor β) {cycles : Nat}
    (h : p.step.result = .ok (.retired cycles)) :
    ∃ i encoding loaded stored,
      Instruction.ofAccesses? p.step.trace.accesses = some i ∧
      p.step.trace.accesses =
        Access.reads p.registers.pc encoding ++ (Access.loads loaded ++ Access.stores stored) ∧
      encoding.length = i.size ∧ loaded.length ≤ 2 ∧ stored.length ≤ 2 ∧
      (i.jumps p.registers = false →
        p.step.processor.registers.pc = p.registers.pc + UInt16.ofNat i.size) := by
  obtain ⟨t, a, completes, registers, same⟩ := step_retired_inv h
  obtain ⟨opcode, i, done, bus₁, bus₂, bus₃, t₁, t₂, hdecode, hexecute, after, -, seen⟩ :=
    Registers.fetchExecute_parts completes
  obtain ⟨others, loaded, stored, length, few, fewer, moved⟩ :=
    Instruction.footprint_decoded hdecode hexecute
  refine ⟨i, opcode :: others, loaded, stored, ?_, ?_, length, few, fewer, ?_⟩
  · rw [same, seen]
    exact Registers.ofAccesses_decodeRest hdecode _
  · rw [same, seen, moved]
    rfl
  · intro straight
    rw [registers, after]
    exact hexecute.yields (Instruction.pc_execute ((jumps_fetching i p).trans straight))

/-- A processor two bytes before the end of memory, at an instruction of three bytes that stores a
word. -/
def acrossTheEnd : Processor Ram where
  registers := { pc := 0xFFFE, hl := 0xBEEF }
  mode := .mode0
  lines := {}
  cycles := 0
  config := {}
  bus := ({} : Ram).load 0xFFFE [0x22, 0x34, 0x12]

/-- The encoding is read over the end of memory, and the program counter follows. -/
theorem step_footprint_acrossTheEnd :
    acrossTheEnd.step.result = .ok (.retired 16) ∧
      Access.stores [(0x1234, 0xEF), (0x1235, 0xBE)] <:+ acrossTheEnd.step.trace.accesses ∧
      acrossTheEnd.step.processor.registers.pc = 0x0001 := by
  have h : acrossTheEnd.step.result = .ok (.retired 16) := by rfl
  obtain ⟨i, encoding, loaded, stored, first, seen, size, -, -, straight⟩ :=
    acrossTheEnd.step_footprint h
  have store : Instruction.ofAccesses? acrossTheEnd.step.trace.accesses =
      some (.loadWord .absolute (.register .hl)) := by decide +kernel
  obtain rfl : i = .loadWord .absolute (.register .hl) := Option.some.inj (first.symm.trans store)
  exact ⟨h, by decide +kernel, straight rfl⟩

end Processor

end Z80
