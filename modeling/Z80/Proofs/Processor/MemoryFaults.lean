import Z80.Proofs.Execution.Stores
import Z80.Proofs.Processor.Events
import Z80.Proofs.Processor.Supplied

/-!
# Faults on memory

A processor on memory faults for three reasons. It meets an opcode without a meaning; it is to store
a byte in the read-only region; or it asks which interrupt came and nothing answers. Which of them it
is, and of which store, is known before the step (`Processor.FaultsWith`), and the step faults so and
in no other way (`Processor.result_error_iff`).
-/

namespace Z80

open Microprogram

/-- The bytes in front of an opcode of another page. -/
def Opcode.pageBytes : List Byte := [0xCB, 0xDD, extendedPage, 0xFD]

/-- The instruction whose encoding begins at the address. -/
def Ram.instructionAt (m : Ram) (pc : Word) : Instruction :=
  if m.peek pc == Opcode.extendedPage then .ofExtendedOpcode (m.peek (pc + 1))
  else .ofOpcode (m.peek pc)

namespace Processor

/-- The step answers a maskable interrupt: no reset and no other interrupt comes before it. -/
def answersInt {β : Type} (p : Processor β) : Bool :=
  !p.lines.resetRequested && !p.sampled.registers.nmiPending && p.sampled.registers.acceptsInt

/-- The addresses that an answer to a maskable interrupt stores to, in order, when the device has put
a byte on the bus. In mode 0 every byte of the instruction is that byte. -/
def answerStores (p : Processor Ram) (data : Byte) : List Word :=
  match p.mode with
  | .mode0 =>
    let i := Instruction.ofOpcode data
    i.storesAt (p.registers.placed i.size) (.ofHalves data data)
  | .mode1 | .mode2 => (p.registers.sp - 2).both

/-- The addresses that the step must store to, in order. -/
def storeAddresses (p : Processor Ram) : List Word :=
  if p.fetches then
    (p.bus.instructionAt p.registers.pc).storesAt p.registers
      (p.bus.memory.getWord (p.registers.pc + 1))
  else if p.answersInt then (p.bus.acknowledge.map p.answerStores).getD []
  else if !p.lines.resetRequested && p.nmiWaiting then (p.registers.sp - 2).both
  else []

/-- The step meets the fault, by what is in memory and what answers an acknowledge cycle. -/
inductive FaultsWith (p : Processor Ram) : Fault → Prop where
  /-- The opcode that is fetched means nothing. -/
  | fetched {page : Option Byte} {opcode : Byte} (fetches : p.fetches = true)
      (decoded : p.bus.instructionAt p.registers.pc = .illegal page opcode) :
      FaultsWith p (.illegal ⟨page, opcode, p.registers.pc⟩)
  /-- The byte that the interrupting device supplies means nothing on the base page. -/
  | supplied {data opcode : Byte} {page : Option Byte} (answers : p.answersInt = true)
      (mode : p.mode = .mode0) (acknowledge : p.bus.acknowledge = some data)
      (decoded : Instruction.ofOpcode data = .illegal page opcode) :
      FaultsWith p (.illegal ⟨page, opcode, p.registers.pc - 1⟩)
  /-- A byte is to be stored in the read-only region, and none before it. -/
  | readOnly {address : Word}
      (first : p.storeAddresses.find? (· < p.bus.romSize) = some address) :
      FaultsWith p (.bus (.readOnly address))
  /-- Nothing answers when an interrupt is to be answered. -/
  | noAcknowledge (answers : p.answersInt = true) (silent : p.bus.acknowledge = none) :
      FaultsWith p (.bus .noAcknowledge)

end Processor

/-- On the base page a byte in front of an opcode of another page means nothing. -/
lemma Instruction.ofOpcode_pageBytes :
    ∀ data ∈ Opcode.pageBytes, ofOpcode data = .illegal none data := by
  decide +kernel

namespace Ram

/-- A device that answers gives the same byte as often as it is asked, and memory stays as it is. -/
lemma completes_acknowledgeBytes {m : Ram} {data : Byte} (h : m.acknowledge = some data)
    (now : Registers) (n : Nat) :
    ∃ t, (acknowledgeBytes now n).Completes m (List.replicate n data) m t := by
  induction n with
  | zero => exact ⟨[], rfl⟩
  | succ n ih =>
    obtain ⟨t, rest⟩ := ih
    refine ⟨.access (.acknowledge data) :: (t ++ []), ?_⟩
    exact Completes.acknowledge (acknowledge_of_some h) (rest.bind rfl)

/-- Reading on after the first byte gives the instruction there. -/
lemma completes_decodeRest (m : Ram) (now : Registers) (pc : Word) :
    ∃ t, (Instruction.decodeRest now pc (m.peek pc)).Completes m (m.instructionAt pc) m t := by
  unfold Instruction.decodeRest instructionAt
  split
  case isTrue => exact ⟨_, Completes.read rfl rfl⟩
  case isFalse => exact ⟨[], rfl⟩

/-- What stands in memory is an instruction that has an encoding. -/
lemma isEncodable_instructionAt (m : Ram) (pc : Word) :
    (m.instructionAt pc).isEncodable = true := by
  unfold instructionAt
  split
  case isTrue => exact (Instruction.encoding_ofExtendedOpcode _).1
  case isFalse => exact Instruction.isEncodable_ofOpcode _

end Ram

/-- To write records to the log stores nothing. -/
lemma Microprogram.stores_tellRecords (records : List Record) : (tellRecords records).Stores [] := by
  induction records with
  | nil => exact rfl
  | cons r rest ih => exact ih

/-- What an instruction asks for is carried out without a store. -/
lemma Retirement.stores_settle (done : Retirement) (mode : InterruptMode) :
    (done.settle mode).Stores [] := by
  unfold settle
  cases done.effect with
  | none => exact rfl
  | halt => exact rfl
  | selectMode selected => exact (stores_tellRecords _).bind_nothing fun _ => rfl

namespace Registers

variable (r : Registers) (mode : InterruptMode) (m : Ram)

/-- A non-maskable interrupt faults exactly where its return address cannot be stored. -/
lemma fault_acceptNmi : ((r.acceptNmi mode).run m).fault? = m.refusal? (r.sp - 2).both := by
  have stores : (r.acceptNmi mode).Stores (r.sp - 2).both :=
    (r.stores_callTo nmiVector).bind_nothing fun _ => rfl
  exact stores.fault_run m

/-- A fetch faults like the instruction that is fetched. -/
lemma fault_fetchExecute :
    ((r.fetchExecute mode).run m).fault? = (((m.instructionAt r.pc).execute r).run m).fault? := by
  obtain ⟨t, decoded⟩ := m.completes_decodeRest r r.pc
  show (((Instruction.decodeRest r r.pc (m.peek r.pc)).bind _).run m).fault? = _
  rw [decoded.fault_bind]
  show ((((m.instructionAt r.pc).execute r).bind _).run m).fault? = _
  apply fault_bind_nothing
  intro done
  exact (done.stores_settle mode).bind_nothing fun _ => rfl

/-- An answer in mode 0 faults like the instruction that is supplied. -/
lemma fault_runSupplied {data : Byte} (h : m.acknowledge = some data) :
    let i := Instruction.ofOpcode data
    ((r.runSupplied data).run m).fault? =
      (((i.execute { r with pc := r.pc - UInt16.ofNat i.size }).withSupplied
        (r.pc - UInt16.ofNat i.size + 1) ([data, data].take i.operandBytes)).run m).fault? := by
  intro i
  have few := Instruction.operandBytes_le (Instruction.isEncodable_ofOpcode data)
  have count : i.size - 1 = i.operandBytes := by
    rw [Instruction.size_ofOpcode data]
    rfl
  -- Every acknowledge cycle is answered with the same byte.
  have bytes : List.replicate (i.size - 1) data = [data, data].take i.operandBytes := by
    show _ = (List.replicate 2 data).take i.operandBytes
    rw [List.take_replicate, count, Nat.min_eq_left few]
  obtain ⟨t, taken⟩ := Ram.completes_acknowledgeBytes h r (i.size - 1)
  rw [bytes] at taken
  exact taken.fault_bind

/-- A device in mode 0 brings about the fault of the instruction that it supplies. -/
lemma fault_answerInt_mode0 (data : Byte) :
    ((r.answerInt .mode0 data).run m).fault? = ((r.runSupplied data).run m).fault? := by
  apply fault_bind_nothing
  intro done
  exact (done.stores_settle .mode0).bind_nothing fun _ => rfl

/-- An answer in another mode is a call. -/
lemma fault_answerInt_called {mode : InterruptMode} (called : mode ≠ .mode0) (data : Byte) :
    ((r.answerInt mode data).run m).fault? = m.refusal? (r.sp - 2).both := by
  have stores : (r.answerInt mode data).Stores (r.sp - 2).both := by
    cases mode with
    | mode0 => exact absurd rfl called
    | mode1 => exact (r.stores_callTo mode1Vector).bind_nothing fun _ => rfl
    | mode2 => exact (r.stores_callTo (.ofHalves r.i data)).bind_nothing fun _ => rfl
  exact stores.fault_run m

/-- A maskable interrupt faults exactly where its handler cannot be entered. -/
lemma fault_acceptInt :
    ((r.acceptInt mode).run m).fault? = ((r.enterMaskable mode).run m).fault? := by
  rw [← fault_onAbort (r.enterMaskable mode) fun _ => r]
  apply fault_bind_nothing
  intro entry
  exact rfl

/-- Without a byte on the bus an interrupt is not answered. -/
lemma fault_enterMaskable_silent (silent : m.acknowledge = none) :
    ((r.enterMaskable mode).run m).fault? = some (.bus .noAcknowledge) := by
  show ((Microprogram.acknowledge r _).run m).fault? = _
  simp only [run, Ram.acknowledge_of_none silent]
  rfl

/-- With a byte on the bus the entry faults like the answer. -/
lemma fault_enterMaskable {data : Byte} (h : m.acknowledge = some data) :
    ((r.enterMaskable mode).run m).fault? =
      (({ r.withInterruptsEnabled false with halted := false }.answerInt mode data).run m).fault? := by
  show ((Microprogram.acknowledge r _).run m).fault? = _
  simp only [run, Ram.acknowledge_of_some h]
  rfl

end Registers

namespace Processor

variable {p : Processor Ram}

/-- An instruction is fetched when there is neither a reset nor an interrupt to be honoured and the
processor is not halted. -/
lemma fetches_iff : p.fetches = true ↔ p.lines.resetRequested = false ∧
    p.sampled.registers.nmiPending = false ∧ p.sampled.registers.acceptsInt = false ∧
      p.sampled.registers.halted = false := by
  simp only [fetches, Registers.fetches, Bool.and_eq_true, Bool.not_eq_true', and_assoc]

/-- A maskable interrupt is answered when it is accepted and neither a reset nor a non-maskable one
comes before it. -/
lemma answersInt_iff : p.answersInt = true ↔ p.lines.resetRequested = false ∧
    p.sampled.registers.nmiPending = false ∧ p.sampled.registers.acceptsInt = true := by
  simp only [answersInt, Bool.and_eq_true, Bool.not_eq_true', and_assoc]

/-- Without a reset a step faults exactly as its attempt does. -/
lemma result_error_iff_fault (unasked : p.lines.resetRequested = false) (fault : Fault) :
    p.step.result = .error fault ↔ p.attempt.fault? = some fault := by
  obtain hr | ⟨-, ⟨a, ha⟩ | ⟨abort, ha⟩⟩ := p.step_cases
  · exact absurd (hr.symm.trans unasked) nofun
  · rw [step_of_ok unasked ha, Completion.fault?, ha]
    exact ⟨nofun, nofun⟩
  · rw [step_of_error unasked ha, Completion.fault?, ha]
    constructor
    · intro h
      cases h
      rfl
    · intro h
      cases h
      rfl

/-- The attempt of a fetch faults like the instruction at the program counter. -/
lemma fault_attempt_of_fetches (h : p.fetches = true) :
    p.attempt.fault? = (((p.bus.instructionAt p.registers.pc).execute
      { p.sampled.registers with eiExecuted := false }).run p.bus).fault? := by
  obtain ⟨-, quiet, rejects, running⟩ := fetches_iff.mp h
  rw [attempt, Registers.advance_of_running quiet rejects running, fault_onAbort]
  exact Registers.fault_fetchExecute _ p.mode p.bus

/-- The attempt to answer an interrupt faults like its entry. -/
lemma fault_attempt_of_answersInt (h : p.answersInt = true) :
    p.attempt.fault? = ((p.sampled.registers.enterMaskable p.mode).run p.bus).fault? := by
  obtain ⟨-, quiet, accepts⟩ := answersInt_iff.mp h
  rw [attempt, Registers.advance_of_acceptsInt quiet accepts]
  exact Registers.fault_acceptInt _ p.mode p.bus

/-- No instruction is fetched where an interrupt is answered. -/
lemma not_fetches_of_answersInt (h : p.answersInt = true) : p.fetches = false := by
  obtain ⟨-, -, accepts⟩ := answersInt_iff.mp h
  cases hf : p.fetches with
  | false => rfl
  | true =>
    obtain ⟨-, -, rejects, -⟩ := fetches_iff.mp hf
    exact absurd (accepts.symm.trans rejects) nofun

/-- A step that fetches an instruction is to store what the instruction in memory stores. -/
lemma storeAddresses_of_fetches (h : p.fetches = true) :
    p.storeAddresses = (p.bus.instructionAt p.registers.pc).storesAt p.registers
      (p.bus.memory.getWord (p.registers.pc + 1)) := by
  rw [storeAddresses, if_pos h]

/-- A step that answers an interrupt is to store what the answer to the byte of the device
stores. -/
lemma storeAddresses_of_answersInt (h : p.answersInt = true) :
    p.storeAddresses = (p.bus.acknowledge.map p.answerStores).getD [] := by
  rw [storeAddresses, not_fetches_of_answersInt h, if_neg Bool.false_ne_true, if_pos h]

/-- A reset is to store nothing. -/
lemma storeAddresses_of_reset (h : p.lines.resetRequested = true) : p.storeAddresses = [] := by
  simp only [storeAddresses, fetches, answersInt, h, Bool.not_true, Bool.false_and,
    Bool.false_eq_true, if_false]

/-- To fetch an opcode that means nothing is a fault at its address. -/
lemma fault_fetched {page : Option Byte} {opcode : Byte} (h : p.fetches = true)
    (decoded : p.bus.instructionAt p.registers.pc = .illegal page opcode) :
    p.attempt.fault? = some (.illegal ⟨page, opcode, p.registers.pc⟩) := by
  rw [fault_attempt_of_fetches h, decoded]
  rfl

/-- An instruction that means something faults exactly where it cannot store. -/
lemma fault_fetched_legal (h : p.fetches = true)
    (legal : (p.bus.instructionAt p.registers.pc).isIllegal = false) :
    p.attempt.fault? = p.bus.refusal? p.storeAddresses := by
  rw [fault_attempt_of_fetches h, storeAddresses_of_fetches h]
  exact Instruction.fault_execute legal (p.bus.isEncodable_instructionAt p.registers.pc) _ p.bus

/-- To answer an interrupt for which no device gives a byte is a fault. -/
lemma fault_silent (h : p.answersInt = true) (silent : p.bus.acknowledge = none) :
    p.attempt.fault? = some (.bus .noAcknowledge) := by
  rw [fault_attempt_of_answersInt h]
  exact Registers.fault_enterMaskable_silent _ p.mode p.bus silent

/-- An answer in mode 0 faults like the instruction that is supplied. -/
lemma fault_attempt_mode0 {data : Byte} (h : p.answersInt = true) (mode : p.mode = .mode0)
    (acknowledge : p.bus.acknowledge = some data) :
    let i := Instruction.ofOpcode data
    p.attempt.fault? = (((i.execute (p.sampled.registers.placed i.size)).withSupplied
      (p.registers.pc - UInt16.ofNat i.size + 1)
      ([data, data].take i.operandBytes)).run p.bus).fault? := by
  intro i
  rw [fault_attempt_of_answersInt h, Registers.fault_enterMaskable _ p.mode p.bus acknowledge, mode,
    Registers.fault_answerInt_mode0, Registers.fault_runSupplied _ p.bus acknowledge]
  rfl

/-- To be supplied with an opcode that means nothing is a fault at the place before the program
counter. -/
lemma fault_supplied {data opcode : Byte} {page : Option Byte} (h : p.answersInt = true)
    (mode : p.mode = .mode0) (acknowledge : p.bus.acknowledge = some data)
    (decoded : Instruction.ofOpcode data = .illegal page opcode) :
    p.attempt.fault? = some (.illegal ⟨page, opcode, p.registers.pc - 1⟩) := by
  have one : (Instruction.ofOpcode data).size = 1 := by
    have size := Instruction.size_ofOpcode data
    rw [decoded] at size ⊢
    exact size
  rw [fault_attempt_mode0 h mode acknowledge, one, decoded]
  rfl

/-- A supplied instruction that means something faults exactly where it cannot store. -/
lemma fault_supplied_legal {data : Byte} (h : p.answersInt = true) (mode : p.mode = .mode0)
    (acknowledge : p.bus.acknowledge = some data)
    (legal : (Instruction.ofOpcode data).isIllegal = false) :
    p.attempt.fault? = p.bus.refusal? (p.answerStores data) := by
  have encodable := Instruction.isEncodable_ofOpcode data
  rw [fault_attempt_mode0 h mode acknowledge, answerStores, mode]
  exact Instruction.fault_withSupplied legal encodable (p.sampled.registers.placed _) data data p.bus

/-- The call of a handler faults exactly where the return address cannot be stored. -/
lemma fault_called {data : Byte} (h : p.answersInt = true) (called : p.mode ≠ .mode0)
    (acknowledge : p.bus.acknowledge = some data) :
    p.attempt.fault? = p.bus.refusal? (p.answerStores data) := by
  have stores : p.answerStores data = (p.registers.sp - 2).both := by
    unfold answerStores
    cases mode : p.mode with
    | mode0 => exact absurd mode called
    | mode1 | mode2 => rfl
  rw [fault_attempt_of_answersInt h, Registers.fault_enterMaskable _ p.mode p.bus acknowledge, stores]
  exact Registers.fault_answerInt_called _ p.bus called data

/-- The step has a fault of its own and stores nothing, or it is refused what it must store. -/
def FaultsAsForeseen (p : Processor Ram) : Prop :=
  (∃ own, p.attempt.fault? = some own ∧ p.FaultsWith own ∧ p.storeAddresses = []) ∨
    p.attempt.fault? = p.bus.refusal? p.storeAddresses

/-- A step that fetches an instruction faults as foreseen. -/
lemma foreseen_of_fetches (h : p.fetches = true) : p.FaultsAsForeseen := by
  cases decoded : p.bus.instructionAt p.registers.pc with
  | illegal page opcode =>
    refine .inl ⟨_, fault_fetched h decoded, .fetched h decoded, ?_⟩
    rw [storeAddresses_of_fetches h, decoded]
    rfl
  | _ => exact .inr (fault_fetched_legal h (by rw [decoded]; rfl))

/-- A step that answers an interrupt faults as foreseen. -/
lemma foreseen_of_answersInt (h : p.answersInt = true) : p.FaultsAsForeseen := by
  cases acknowledge : p.bus.acknowledge with
  | none =>
    refine .inl ⟨_, fault_silent h acknowledge, .noAcknowledge h acknowledge, ?_⟩
    rw [storeAddresses_of_answersInt h, acknowledge]
    rfl
  | some data =>
    have stores : p.storeAddresses = p.answerStores data := by
      rw [storeAddresses_of_answersInt h, acknowledge]
      rfl
    -- Only in mode 0 is the byte an instruction, which may have no meaning.
    by_cases mode : p.mode = .mode0
    · cases decoded : Instruction.ofOpcode data with
      | illegal page opcode =>
        refine .inl ⟨_, fault_supplied h mode acknowledge decoded,
          .supplied h mode acknowledge decoded, ?_⟩
        rw [stores, answerStores, mode, decoded]
        rfl
      | _ =>
        refine .inr ?_
        rw [stores]
        exact fault_supplied_legal h mode acknowledge (by rw [decoded]; rfl)
    · refine .inr ?_
      rw [stores]
      exact fault_called h mode acknowledge

/-- Without a fetch and without an answer, a step enters the handler of the non-maskable interrupt or
idles. -/
lemma foreseen_otherwise (unasked : p.lines.resetRequested = false) (fetching : p.fetches = false)
    (answering : p.answersInt = false) : p.FaultsAsForeseen := by
  refine .inr ?_
  rw [storeAddresses, fetching, answering, unasked, if_neg Bool.false_ne_true,
    if_neg Bool.false_ne_true]
  cases waiting : p.nmiWaiting with
  | true =>
    rw [attempt, Registers.advance_of_nmiPending waiting]
    exact Registers.fault_acceptNmi _ p.mode p.bus
  | false =>
    -- No interrupt is served, and what serves none and does not fetch is halted.
    have rejects : p.sampled.registers.acceptsInt = false := by
      cases accepts : p.sampled.registers.acceptsInt with
      | false => rfl
      | true =>
        have answers := answersInt_iff.mpr ⟨unasked, waiting, accepts⟩
        rw [answering] at answers
        cases answers
    have halted : p.sampled.registers.halted = true := by
      cases running : p.sampled.registers.halted with
      | true => rfl
      | false =>
        have fetches := fetches_iff.mpr ⟨unasked, waiting, rejects, running⟩
        rw [fetching] at fetches
        cases fetches
    rw [attempt, Registers.advance_of_halted waiting rejects halted]
    rfl

/-- Every step without a reset faults as foreseen. -/
lemma foreseen (unasked : p.lines.resetRequested = false) : p.FaultsAsForeseen := by
  cases fetching : p.fetches with
  | true => exact foreseen_of_fetches fetching
  | false =>
    cases answering : p.answersInt with
    | true => exact foreseen_of_answersInt answering
    | false => exact foreseen_otherwise unasked fetching answering

/-- What is foreseen happens. -/
lemma FaultsWith.fault_attempt {fault : Fault} (h : p.FaultsWith fault) :
    p.lines.resetRequested = false ∧ p.attempt.fault? = some fault := by
  cases h with
  | fetched fetches decoded => exact ⟨(fetches_iff.mp fetches).1, fault_fetched fetches decoded⟩
  | supplied answers mode acknowledge decoded =>
    exact ⟨(answersInt_iff.mp answers).1, fault_supplied answers mode acknowledge decoded⟩
  | noAcknowledge answers silent => exact ⟨(answersInt_iff.mp answers).1, fault_silent answers silent⟩
  | readOnly first =>
    have unasked : p.lines.resetRequested = false := by
      cases asked : p.lines.resetRequested with
      | false => rfl
      | true =>
        rw [storeAddresses_of_reset asked] at first
        cases first
    refine ⟨unasked, ?_⟩
    obtain ⟨own, -, -, nothing⟩ | refused := foreseen unasked
    · rw [nothing] at first
      cases first
    · rw [refused, Ram.refusal?, first]
      rfl

/-- Where everything can be written and an acknowledge cycle is answered, only an opcode is at fault. -/
lemma FaultsWith.illegal_of_free {fault : Fault} (h : p.FaultsWith fault) (free : p.bus.romSize = 0)
    (answered : p.bus.acknowledge.isSome = true) : ∃ cause, fault = .illegal cause := by
  cases h with
  | fetched _ _ | supplied _ _ _ _ => exact ⟨_, rfl⟩
  | readOnly first =>
    have below := List.find?_some first
    rw [free, decide_eq_true_eq] at below
    exact absurd below UInt16.not_lt_zero
  | noAcknowledge _ silent =>
    rw [silent] at answered
    cases answered

/-- A step on memory faults as is foreseen, and in no other way. -/
theorem result_error_iff (p : Processor Ram) (fault : Fault) :
    p.step.result = .error fault ↔ p.FaultsWith fault := by
  constructor
  · intro h
    obtain hr | ⟨unasked, -⟩ := p.step_cases
    · rw [step_of_reset hr] at h
      cases h
    · rw [result_error_iff_fault unasked] at h
      obtain ⟨own, happens, faults, -⟩ | refused := foreseen unasked
      · rw [happens] at h
        cases h
        exact faults
      · rw [refused] at h
        obtain ⟨address, first, rfl⟩ := Option.map_eq_some_iff.mp h
        exact .readOnly first
  · intro h
    obtain ⟨unasked, happens⟩ := h.fault_attempt
    exact (result_error_iff_fault unasked fault).mpr happens

end Processor

end Z80
