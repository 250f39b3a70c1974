import Z80.Proofs.Processor.Supplied

/-!
# Where a supplied instruction loads from

A supplied instruction takes its operand bytes from acknowledge cycles and its data from memory, but
which of the two a read is for goes by its address alone. So memory looks to the instruction as if its
operand bytes stood there just before the program counter, and data that is loaded from one of these
addresses is the byte that was supplied and not the byte in memory (`Processor.step_loads`). A load
from the second byte of its own encoding shows it (`Processor.not_loadsFrom_memory`).
-/

namespace Z80

namespace Microprogram

variable {α : Type}

/-- The access goes to the bus when the bytes are supplied. -/
def passes (first : Word) (bytes : List Byte) : Access → Bool
  | .read address _ => (suppliedAt first bytes address).isNone
  | _ => true

/-- What reads find where bytes are supplied: these bytes in the first place, and elsewhere what is in
memory. -/
def foundAt (m : Ram) (first : Word) (bytes : List Byte) (address : Word) : Byte :=
  (suppliedAt first bytes address).getD (m.peek address)

/-- Every read of the log finds what is in memory. -/
def ReadsOf (m : Ram) (seen : List Access) : Prop :=
  ∀ address value, .read address value ∈ seen → value = m.peek address

/-- What a data phase with so many reads shows when its reads find supplied bytes in the first place,
and where it ends. On memory where its reads find the same it completes alike. -/
structure DataLog (reads : Nat) (m : Ram) (first : Word) (bytes : List Byte) (p : Microprogram α)
    (value : α) (t : Trace) : Prop where
  found : ∀ address byte, .read address byte ∈ t.accesses →
    reads ≠ 0 ∧ byte = foundAt m first bytes address
  alike : ∀ other : Ram, other.romSize = m.romSize → ReadsOf other t.accesses →
    ∃ after, p.Completes other value after t

namespace DataLog

variable {reads : Nat} {m : Ram} {first address : Word} {bytes : List Byte} {byte : Byte}
  {now : Registers} {value : α} {t : Trace}

/-- What makes no access finds no data. -/
lemma done : DataLog reads m first bytes (.done value) value [] :=
  ⟨nofun, fun other _ _ => ⟨other, rfl⟩⟩

/-- A byte of data that is found as it should be may be read before the others. -/
lemma read {next : Byte → Microprogram α} (here : byte = foundAt m first bytes address)
    (h : DataLog reads m first bytes (next byte) value t) :
    DataLog (reads + 1) m first bytes (.read now address next) value
      (.access (.read address byte) :: t) := by
  constructor
  · intro a b seen
    obtain same | later := List.mem_cons.mp seen
    · cases same
      exact ⟨Nat.succ_ne_zero reads, here⟩
    · exact ⟨Nat.succ_ne_zero reads, (h.found a b later).2⟩
  · intro other rom finds
    have agrees : byte = other.peek address := finds address byte List.mem_cons_self
    obtain ⟨after, completes⟩ :=
      h.alike other rom fun a b later => finds a b (List.mem_cons_of_mem _ later)
    have answer : Bus.read other address = (.ok byte, other) := by
      rw [agrees]
      rfl
    exact ⟨after, .read answer completes⟩

/-- After a write there are no more reads. -/
lemma write {next : Microprogram α} (free : ¬ address < m.romSize)
    (h : DataLog 0 { m with memory := m.memory.set address byte } first bytes next value t) :
    DataLog reads m first bytes (.write now address byte next) value
      (.access (.write address byte) :: t) := by
  have none : ∀ a b, .read a b ∉ t.accesses := fun a b later => (h.found a b later).1 rfl
  constructor
  · intro a b seen
    obtain same | later := List.mem_cons.mp seen
    · cases same
    · exact absurd later (none a b)
  · intro other rom _
    obtain ⟨after, completes⟩ :=
      h.alike { other with memory := other.memory.set address byte } rom
        fun a b later => absurd later (none a b)
    exact ⟨after, .write (Ram.write_ok (rom ▸ free)) completes⟩

/-- A report is none of the data. -/
lemma report {r : Report} {next : Microprogram α}
    (h : DataLog reads m first bytes next value t) :
    DataLog reads m first bytes (.report r next) value (.report r :: t) := by
  refine ⟨h.found, ?_⟩
  intro other rom finds
  obtain ⟨after, completes⟩ := h.alike other rom finds
  exact ⟨after, .report completes⟩

end DataLog

/-- A data phase that completes with supplied bytes has a log of its own, and what is seen of the run is
that log without the reads that were answered with supplied bytes. -/
lemma Completes.dataLog {p : Microprogram α} {reads writes : Nat} {first : Word} {bytes : List Byte}
    {s s' : Scripted Ram} {value : α} {t : Trace} (phase : p.DataPhase reads writes)
    (h : (p.withSupplied first bytes).Completes s value s' t) :
    ∃ log : Trace, DataLog reads s.bus first bytes p value log ∧
      t.accesses = log.accesses.filter (passes first bytes) := by
  induction p generalizing reads writes s t with
  | done v =>
    obtain ⟨rfl, rfl, rfl⟩ := h.done_inv
    exact ⟨[], .done, rfl⟩
  | illegal now cause => cases h
  | read now address next ih =>
    cases reads with
    | zero => cases writes <;> exact phase.elim
    | succ reads =>
      unfold withSupplied at h
      split at h
      case h_1 byte supplied =>
        -- Answered from the supply: part of the data, but not seen on the bus.
        have here : byte = foundAt s.bus first bytes address := by
          rw [foundAt, supplied, Option.getD_some]
        have caught : ¬ passes first bytes (.read address byte) = true := by
          rw [passes, supplied]
          nofun
        obtain ⟨log, data, seen⟩ := ih byte (phase byte) h
        refine ⟨.access (.read address byte) :: log, .read here data, ?_⟩
        rw [seen]
        exact (List.filter_cons_of_neg caught).symm
      case h_2 unsupplied =>
        -- Answered by the bus: part of the data, and seen.
        obtain ⟨byte, middle, t₁, hread, hnext, rfl⟩ := h.read_inv
        obtain ⟨rfl, hbus, -⟩ := Scripted.read_ok_inv hread
        have here : s.bus.peek address = foundAt s.bus first bytes address := by
          rw [foundAt, unsupplied, Option.getD_none]
        have heard : passes first bytes (.read address (s.bus.peek address)) = true := by
          rw [passes, unsupplied]
          rfl
        obtain ⟨log, data, seen⟩ := ih _ (phase _) hnext
        rw [hbus] at data
        refine ⟨.access (.read address (s.bus.peek address)) :: log, .read here data, ?_⟩
        refine .trans (congrArg (_ :: ·) seen) ?_
        exact (List.filter_cons_of_pos heard).symm
  | write now address byte next ih =>
    obtain ⟨middle, t₁, hwrite, hnext, rfl⟩ := h.write_inv
    obtain ⟨free, hbus, -⟩ := Scripted.write_ok_inv hwrite
    cases writes with
    | zero => cases reads <;> exact phase.elim
    | succ writes =>
      have phase' : next.DataPhase 0 writes := by cases reads <;> exact phase
      obtain ⟨log, data, seen⟩ := ih phase' hnext
      rw [hbus] at data
      refine ⟨.access (.write address byte) :: log, .write free data, ?_⟩
      exact congrArg (_ :: ·) seen
  | acknowledge now next ih => cases reads <;> cases writes <;> exact phase.elim
  | report r next ih =>
    obtain ⟨t₁, hnext, rfl⟩ := h.report_inv
    have phase' : next.DataPhase reads writes := by cases reads <;> cases writes <;> exact phase
    obtain ⟨log, data, seen⟩ := ih phase' hnext
    exact ⟨.report r :: log, data.report, seen⟩

/-- Acknowledge cycles give one byte each, and change nothing in memory. -/
lemma Completes.asked {now : Registers} {n : Nat} {s s' : Scripted Ram} {bytes : List Byte} {t : Trace}
    (h : (acknowledgeBytes now n).Completes s bytes s' t) :
    bytes.length = n ∧ s'.bus = s.bus ∧ t.accesses = bytes.map .acknowledge := by
  induction n generalizing s bytes t with
  | zero =>
    obtain ⟨rfl, rfl, rfl⟩ := h.done_inv
    exact ⟨rfl, rfl, rfl⟩
  | succ n ih =>
    obtain ⟨byte, middle, t₁, hack, hnext, rfl⟩ := h.acknowledgeByte_bind_inv
    obtain ⟨bytes', middle', t₂, t₃, hrest, hend, rfl⟩ := hnext.bind_inv
    obtain ⟨rfl, rfl, rfl⟩ := hend.done_inv
    obtain ⟨length, bus, seen⟩ := ih hrest
    refine ⟨congrArg (· + 1) length, bus.trans (Scripted.bus_of_acknowledge hack), ?_⟩
    rw [List.append_nil, List.map_cons, ← seen]
    rfl

/-- Reads find supplied bytes as if they had been stored in memory. -/
lemma peek_load_eq_foundAt (m : Ram) (first address : Word) {bytes : List Byte}
    (h : bytes.length ≤ 65536) : (m.load first bytes).peek address = foundAt m first bytes address :=
  Memory.get_load m.memory first address h

end Microprogram

namespace Processor

open Microprogram

variable {p : Processor (Scripted Ram)} {cycles : Nat}

/-- The step has done what comes of the supplied instruction, its operand bytes known, when it finds
its data in the memory. These are its accesses to the data. -/
def LoadsFrom (p : Processor (Scripted Ram)) (memory : Ram) (opcode : Byte) (operands : List Byte)
    (cycles : Nat) (data : List Access) : Prop :=
  ∃ done after t,
    ((p.placedProgram opcode operands).answered operands).Completes memory done after t ∧
      t.accesses = data ∧ p.step.processor.registers = done.registers ∧ cycles = done.cycles + 2

/-- The address that the first operand byte of a supplied instruction is for. -/
def operandsAt (p : Processor (Scripted Ram)) (operands : List Byte) : Word :=
  p.placeOf (operands.length + 1) + 1

/-- The step has run the instruction of these bytes, and these are its accesses to the data. -/
structure RunsSupplied (p : Processor (Scripted Ram)) (opcode : Byte) (operands : List Byte)
    (cycles : Nat) (data : List Access) : Prop where
  size : (Instruction.ofOpcode opcode).size = operands.length + 1
  /-- There is an acknowledge cycle for each byte of the encoding. Of the data, what is at the
  addresses of the operand bytes is not read on the bus. -/
  accesses : p.step.trace.accesses = (opcode :: operands).map .acknowledge ++
    data.filter (passes (p.operandsAt operands) operands)
  /-- Memory looks as if the operand bytes stood in it. -/
  loads : p.LoadsFrom (p.bus.bus.load (p.operandsAt operands) operands) opcode operands cycles data
  found : ∀ address value, .read address value ∈ data →
    value = foundAt p.bus.bus (p.operandsAt operands) operands address
  /-- If no data is at the addresses of the operand bytes, all of it is found in memory as it is. -/
  apart : (∀ access ∈ data, passes (p.operandsAt operands) operands access = true) →
    p.LoadsFrom p.bus.bus opcode operands cycles data

/-- A step that answers an interrupt in mode 0 takes every byte of the encoding from an acknowledge
cycle and finds its data in memory in which the operand bytes stand just before the program counter:
a byte that is loaded from there is the operand byte and is not read on the bus, and every other one
is the byte that memory holds. -/
theorem step_loads (hs : p.step.result = .ok (.interrupted (.maskable .mode0) cycles)) :
    ∃ opcode operands data, p.RunsSupplied opcode operands cycles data := by
  obtain ⟨opcode, done, s, t, hack, hrun, registers, charge, seen⟩ := step_mode0_taken hs
  obtain ⟨operands, s', t₁, t₂, hask, hexec, rfl⟩ := Registers.runSupplied_inv hrun
  obtain ⟨length, bus, asked⟩ := hask.asked
  have hsize : (Instruction.ofOpcode opcode).size = operands.length + 1 := by
    have size := Instruction.size_ofOpcode opcode
    omega
  have short : operands.length ≤ 65536 := by
    have small := Instruction.size_ofOpcode_le opcode
    omega
  rw [hsize] at hexec
  have phases : (p.placedProgram opcode operands).ReadsThen (DataPhase 2 2)
      ((p.operandsAt operands).upFrom operands.length) := phases_placedProgram hsize
  have hrest : (((p.placedProgram opcode operands).answered operands).withSupplied
      (p.operandsAt operands) operands).Completes s' done p.step.processor.bus t₂ := by
    rw [← withSupplied_answered phases short]
    exact hexec
  obtain ⟨log, data, heard⟩ := hrest.dataLog (phases.answered (Word.length_upFrom _ _))
  rw [bus.trans (Scripted.bus_of_acknowledge hack)] at data
  refine ⟨opcode, operands, log.accesses, hsize, ?_, ?_, ?_, ?_⟩
  · rw [seen, Trace.accesses_append, asked, heard]
    rfl
  -- In memory that holds the operand bytes every read finds what it found.
  · obtain ⟨after, completes⟩ := data.alike
      (p.bus.bus.load (p.operandsAt operands) operands) rfl fun address byte found => by
        rw [peek_load_eq_foundAt _ _ _ short]
        exact (data.found address byte found).2
    exact ⟨done, after, log, completes, rfl, registers, charge⟩
  · intro address value found
    exact (data.found address value found).2
  -- When no read was answered from the supply, memory as it is answers them all.
  · intro apart
    obtain ⟨after, completes⟩ := data.alike p.bus.bus rfl fun address byte found => by
      have unsupplied := Option.isNone_iff_eq_none.mp (apart _ found)
      rw [(data.found address byte found).2, foundAt, unsupplied, Option.getD_none]
    exact ⟨done, after, log, completes, rfl, registers, charge⟩

/-- A device supplies a load of the accumulator from the address of the second byte of its own
encoding, as it would stand before the program counter. In memory there is another byte. -/
def suppliedLoad : Processor (Scripted Ram) where
  registers := { af := 0x0100, pc := 0x0100, sp := 0x8000, iff1 := true, iff2 := true }
  mode := .mode0
  lines := { intLevel := true }
  cycles := 0
  config := {}
  bus := { bus := ({} : Ram).load 0x00FE [0x77], queue := some [0x3A, 0xFE, 0x00] }

/-- A supplied load of the accumulator from an address of its own operand bytes runs as a supplied
instruction does. -/
theorem step_loads_suppliedLoad :
    suppliedLoad.step.result = .ok (.interrupted (.maskable .mode0) 15) ∧
      ∃ opcode operands data, suppliedLoad.RunsSupplied opcode operands 15 data :=
  ⟨rfl, step_loads rfl⟩

/-- The accumulator has taken the byte of the encoding, and not the byte that memory holds at the
address. -/
theorem not_loadsFrom_memory :
    suppliedLoad.step.result = .ok (.interrupted (.maskable .mode0) 15) ∧
      suppliedLoad.step.trace.accesses = [0x3A, 0xFE, 0x00].map .acknowledge ∧
      suppliedLoad.bus.bus.peek 0x00FE = 0x77 ∧ suppliedLoad.step.processor.registers.a = 0xFE ∧
      ∀ cycles data,
        ¬ suppliedLoad.LoadsFrom suppliedLoad.bus.bus 0x3A [0xFE, 0x00] cycles data := by
  have taken : suppliedLoad.step.processor.registers.a = 0xFE := rfl
  refine ⟨rfl, rfl, rfl, taken, ?_⟩
  rintro cycles data ⟨done, after, t, completes, -, registers, -⟩
  have loaded : done.registers.a = 0x77 := by
    cases completes
    rfl
  rw [registers, loaded] at taken
  cases taken

end Processor

end Z80
