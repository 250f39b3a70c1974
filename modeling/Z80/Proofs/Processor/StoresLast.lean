import Z80.Proofs.Execution.Stores
import Z80.Proofs.Microprogram.Asks
import Z80.Proofs.Processor.Essential
import Z80.Proofs.Processor.Events

/-!
# Stores come last

Whatever the processor does in a step, it stores after it has read. Once a byte was stored, only another
store is asked for, the second byte of a word, and what was read before a word is stored is no data
(`Registers.storesLast_advance`): it is the instruction itself. There is one exception, the exchange of HL
with the word on top of the stack, which reads the word that it then overwrites.
-/

namespace Z80

open Microprogram

/-- No byte has been stored, or the latest access is the first store, another is asked for, and every
address that was read before is one of these. -/
inductive StoresLast (inside : Word → Prop) (seen : List Access) (request : Request) : Prop where
  | unwritten (h : ∀ address value, .write address value ∉ seen)
  | second (taken : List Access) (first : Word) (low : Byte) (address : Word) (value : Byte)
      (shape : seen = taken ++ [.write first low]) (asked : request = .write address value)
      (unwritten : ∀ address value, .write address value ∉ taken)
      (read : ∀ a v, .read a v ∈ taken → inside a)

namespace Access

variable {first address : Word} {value : Byte}

/-- No byte is stored where bytes are read. -/
lemma not_write_mem_reads {bytes : List Byte} : .write address value ∉ reads first bytes := by
  induction bytes generalizing first with
  | nil => exact List.not_mem_nil
  | cons byte rest ih =>
    intro found
    obtain same | later := List.mem_cons.mp found
    · cases same
    · exact ih later

/-- What is read of a row of bytes is read at one of their addresses. -/
lemma mem_upFrom_of_mem_reads {bytes : List Byte} (found : .read address value ∈ reads first bytes) :
    address ∈ first.upFrom bytes.length := by
  induction bytes generalizing first with
  | nil => cases found
  | cons byte rest ih =>
    obtain same | later := List.mem_cons.mp found
    · cases same
      exact List.mem_cons_self
    · exact List.mem_cons_of_mem _ (ih later)

/-- No byte is stored where bytes are loaded. -/
lemma not_write_mem_loads {loaded : List (Word × Byte)} :
    .write address value ∉ loads loaded := by
  intro found
  obtain ⟨moved, -, same⟩ := List.mem_map.mp found
  cases same

end Access

namespace StoresLast

variable {inside wide : Word → Prop} {front later seen : List Access} {request : Request}

/-- What is read before the first store may be looked for in a wider region. -/
lemma imp (h : StoresLast inside seen request) (widens : ∀ a, inside a → wide a) :
    StoresLast wide seen request := by
  cases h with
  | unwritten h => exact .unwritten h
  | second taken first low address value shape asked unwritten read =>
    exact .second taken first low address value shape asked unwritten
      fun a v found => widens a (read a v found)

/-- Other accesses may come before, if none is a store and what they read is among the addresses. -/
lemma append (h : StoresLast inside later request)
    (unwritten : ∀ address value, .write address value ∉ front)
    (read : ∀ a v, .read a v ∈ front → wide a) (widens : ∀ a, inside a → wide a) :
    StoresLast wide (front ++ later) request := by
  cases h with
  | unwritten h =>
    apply StoresLast.unwritten
    intro address value found
    obtain early | late := List.mem_append.mp found
    · exact unwritten address value early
    · exact h address value late
  | second taken first low address value shape asked unwritten' read' =>
    refine .second (front ++ taken) first low address value ?_ asked ?_ ?_
    · rw [shape, List.append_assoc]
    · intro address value found
      obtain early | late := List.mem_append.mp found
      · exact unwritten address value early
      · exact unwritten' address value late
    · intro a v found
      obtain early | late := List.mem_append.mp found
      · exact read a v early
      · exact widens a (read' a v late)

/-- Data is read before any is written. If two bytes are written, none is read, or it may be read
anywhere. -/
lemma of_dataPhase {α : Type} {p : Microprogram α} {reads writes : Nat}
    (phase : p.DataPhase reads writes) (most : writes ≤ 2)
    (few : reads = 0 ∨ writes ≤ 1 ∨ ∀ a, inside a) (h : p.Asks seen request) :
    StoresLast inside seen request := by
  obtain ⟨loaded, stored, rfl, none, last⟩ := phase.asks_inv h
  match stored with
  | [] =>
    apply StoresLast.unwritten
    intro address value found
    rw [Access.stores, List.map_nil, List.append_nil] at found
    exact Access.not_write_mem_loads found
  | [(first, low)] =>
    obtain ⟨fewer, address, value, asked⟩ := last (List.cons_ne_nil _ _)
    refine .second (Access.loads loaded) first low address value rfl asked
      (fun _ _ => Access.not_write_mem_loads) ?_
    intro a v found
    obtain rfl | single | anywhere := few
    · obtain rfl : loaded = [] := List.length_eq_zero_iff.mp (Nat.le_zero.mp none)
      cases found
    · exact absurd (Nat.lt_of_lt_of_le fewer single) (Nat.lt_irrefl 1)
    · exact anywhere a
  -- A third write would be more than the two there are.
  | one :: another :: others =>
    obtain ⟨fewer, -⟩ := last (List.cons_ne_nil _ _)
    rw [List.length_cons, List.length_cons] at fewer
    omega

end StoresLast

namespace Instruction

/-- The instruction takes a word of data out of memory and stores one. -/
def movesWord : Instruction → Bool
  | loadWord (.indirect _) (.indirect _) | loadWord (.indirect _) .absolute | exchangeTop => true
  | _ => false

/-- On the first page only `EX (SP),HL` both reads and stores a word in memory. -/
lemma movesWord_ofOpcode (opcode : Byte) :
    (ofOpcode opcode).movesWord = true → ofOpcode opcode = exchangeTop := by
  revert opcode
  exact Byte.forall_of_lt (by decide +kernel)

/-- No instruction of the extended page both reads and stores a word in memory. -/
lemma movesWord_ofExtendedOpcode (opcode : Byte) : (ofExtendedOpcode opcode).movesWord = false := by
  revert opcode
  exact Byte.forall_of_lt (by decide +kernel)

/-- The operand bytes are read first. Then either no more than one byte is written, or no data is
read. -/
lemma phases_execute_of_not_movesWord {i : Instruction} (r : Registers)
    (encodable : i.isEncodable = true) (apart : i.movesWord = false) :
    (i.execute r).ReadsThen (fun p => p.DataPhase 2 1 ∨ p.DataPhase 0 2)
      ((r.pc + 1).upFrom i.operandBytes) := by
  cases i with
  | loadByte target source =>
    cases target with
    | register name | indirect pointer =>
      cases source with
      | register _ => exact .inl trivial
      | immediate => exact ⟨rfl, fun _ => .inl trivial⟩
      | indirect _ => exact .inl fun _ => trivial
      | absolute => exact ⟨rfl, fun _ => ⟨rfl, fun _ => .inl fun _ => trivial⟩⟩
    | absolute =>
      cases source with
      | register _ => exact ⟨rfl, fun _ => ⟨rfl, fun _ => .inl trivial⟩⟩
      | _ => cases encodable
  | loadWord target source =>
    cases target with
    | register name =>
      cases source with
      | register _ => exact .inl trivial
      | immediate => exact ⟨rfl, fun _ => ⟨rfl, fun _ => .inl trivial⟩⟩
      | indirect _ => exact .inl fun _ _ => trivial
      | absolute => exact ⟨rfl, fun _ => ⟨rfl, fun _ => .inl fun _ _ => trivial⟩⟩
    | indirect pointer =>
      cases source with
      | register _ => exact .inr trivial
      | immediate => exact ⟨rfl, fun _ => ⟨rfl, fun _ => .inr trivial⟩⟩
      -- A word that goes from memory to memory has been set apart.
      | _ => cases apart
    | absolute =>
      cases source with
      | register _ => exact ⟨rfl, fun _ => ⟨rfl, fun _ => .inr trivial⟩⟩
      | _ => cases encodable
  | incByte target | decByte target =>
    cases target with
    | register name => exact .inl trivial
    | indirect pointer => exact .inl fun _ => trivial
    | absolute => cases encodable
  | alu operation source =>
    cases source with
    | register name => exact .inl trivial
    | immediate => exact ⟨rfl, fun _ => .inl trivial⟩
    | indirect pointer => exact .inl fun _ => trivial
    | absolute => exact ⟨rfl, fun _ => ⟨rfl, fun _ => .inl fun _ => trivial⟩⟩
  | exchangeTop => cases apart
  | jump condition => exact ⟨rfl, fun _ => ⟨rfl, fun _ => .inl trivial⟩⟩
  | jumpRelative condition | djnz => exact ⟨rfl, fun _ => .inl trivial⟩
  | call condition =>
    simp only [execute, body]
    split
    case isTrue => exact ⟨rfl, fun _ => ⟨rfl, fun _ => .inr trivial⟩⟩
    case isFalse => exact ⟨rfl, fun _ => ⟨rfl, fun _ => .inr trivial⟩⟩
  | ret condition =>
    simp only [execute, body]
    split
    case isTrue => exact .inl fun _ _ => trivial
    case isFalse => exact .inl trivial
  | retn | reti | pop _ => exact .inl fun _ _ => trivial
  | push _ | rst _ => exact .inr trivial
  | _ => exact .inl trivial

variable {i : Instruction} {r : Registers} {seen : List Access} {request : Request}

/-- What an instruction reads before it stores a word are its operand bytes, unless it moves a word. -/
lemma storesLast_execute (encodable : i.isEncodable = true) (h : (i.execute r).Asks seen request) :
    StoresLast (fun a => i.movesWord = true ∨ a ∈ (r.pc + 1).upFrom i.operandBytes) seen request := by
  -- Whatever the rest of the work stores last, the operand bytes were read before it.
  have taken : ∀ {bytes later},
      StoresLast (fun _ => i.movesWord = true) later request → bytes.length = i.operandBytes →
        StoresLast (fun a => i.movesWord = true ∨ a ∈ (r.pc + 1).upFrom i.operandBytes)
          (Access.reads (r.pc + 1) bytes ++ later) request := by
    intro bytes later last length
    apply last.append (fun _ _ => Access.not_write_mem_reads)
    · intro a v found
      rw [← length]
      exact .inr (Access.mem_upFrom_of_mem_reads found)
    · exact fun _ moves => .inl moves
  cases moves : i.movesWord with
  | false =>
    obtain ⟨bytes, rfl⟩ | ⟨bytes, rest, later, length, phase, asks, rfl⟩ :=
      (phases_execute_of_not_movesWord r encodable moves).asks_inv h
    · exact .unwritten fun _ _ => Access.not_write_mem_reads
    · rw [moves] at taken
      refine taken ?_ length
      obtain single | dataless := phase
      · exact .of_dataPhase single (Nat.le_succ 1) (.inr (.inl (Nat.le_refl 1))) asks
      · exact .of_dataPhase dataless (Nat.le_refl 2) (.inl rfl) asks
  | true =>
    obtain ⟨bytes, rfl⟩ | ⟨bytes, rest, later, length, phase, asks, rfl⟩ :=
      (i.phases_execute r encodable).asks_inv h
    · exact .unwritten fun _ _ => Access.not_write_mem_reads
    · rw [moves] at taken
      exact taken (.of_dataPhase phase (Nat.le_refl 2) (.inr (.inr fun _ => rfl)) asks) length

/-- A supplied instruction has its operand bytes already, and reads nothing before it stores a word,
unless it moves a word. -/
lemma storesLast_withSupplied {operands : List Byte} (encodable : i.isEncodable = true)
    (length : operands.length = i.operandBytes)
    (h : ((i.execute r).withSupplied (r.pc + 1) operands).Asks seen request) :
    StoresLast (fun _ => i.movesWord = true) seen request := by
  have few : operands.length ≤ 65536 := by
    rw [length]
    exact Nat.le_trans (operandBytes_le encodable) (by decide)
  -- An instruction that moves no word has at most one byte to store, or no data to read.
  cases moves : i.movesWord with
  | false =>
    have phases := phases_execute_of_not_movesWord r encodable moves
    rw [← length] at phases
    rw [withSupplied_answered phases few] at h
    obtain single | dataless := phases.answered (Word.length_upFrom _ _)
    · exact .of_dataPhase (single.withSupplied _ _) (Nat.le_succ 1) (.inr (.inl (Nat.le_refl 1))) h
    · exact .of_dataPhase (dataless.withSupplied _ _) (Nat.le_refl 2) (.inl rfl) h
  | true =>
    have phases := i.phases_execute r encodable
    rw [← length] at phases
    rw [withSupplied_answered phases few] at h
    have phase := phases.answered (Word.length_upFrom _ _)
    exact .of_dataPhase (phase.withSupplied _ _) (Nat.le_refl 2) (.inr (.inr fun _ => rfl)) h

/-- Decoding ends with an instruction after one more read, or at once. -/
lemma ends_decodeRest {now : Registers} {pc : Word} {opcode : Byte}
    (h : (decodeRest now pc opcode).Ends seen i) :
    (opcode = Opcode.extendedPage ∧ ∃ extended, i = ofExtendedOpcode extended ∧
        seen = [.read (pc + 1) extended]) ∨
      (opcode ≠ Opcode.extendedPage ∧ i = ofOpcode opcode ∧ seen = []) := by
  unfold decodeRest at h
  split at h
  case isTrue page =>
    obtain ⟨extended, later, rfl, rfl, rfl⟩ := h
    exact .inl ⟨beq_iff_eq.mp page, extended, rfl, rfl⟩
  case isFalse page =>
    obtain ⟨rfl, rfl⟩ := h
    exact .inr ⟨fun same => page (beq_iff_eq.mpr same), rfl, rfl⟩

end Instruction

namespace Registers

variable {r : Registers} {mode : InterruptMode} {seen : List Access} {request : Request}

/-- A call stores last of all. -/
lemma storesLast_callTo {inside : Word → Prop} {target : Word}
    (h : (r.callTo target).Asks seen request) : StoresLast inside seen request := by
  have phase : (r.callTo target).DataPhase 0 2 := trivial
  exact .of_dataPhase phase (Nat.le_refl 2) (.inl rfl) h

/-- Nothing is stored while bytes are acknowledged. -/
lemma unwritten_acknowledgeBytes {n : Nat} (h : (acknowledgeBytes r n).Asks seen request) :
    ∀ address value, .write address value ∉ seen := by
  induction n generalizing seen with
  | zero => exact h.elim
  | succ n ih =>
    cases seen with
    | nil => exact fun _ _ => List.not_mem_nil
    | cons access later =>
      obtain ⟨byte, rfl, asks⟩ := h
      intro address value found
      obtain same | after := List.mem_cons.mp found
      · cases same
      · exact ih (Asks.bind_silent_inv asks fun _ => trivial) address value after

/-- As many bytes are acknowledged as were asked for, and nothing else is seen. -/
lemma ends_acknowledgeBytes {n : Nat} {operands : List Byte}
    (h : (acknowledgeBytes r n).Ends seen operands) :
    operands.length = n ∧ seen = operands.map .acknowledge := by
  induction n generalizing seen operands with
  | zero =>
    obtain ⟨rfl, rfl⟩ := h
    exact ⟨rfl, rfl⟩
  | succ n ih =>
    obtain ⟨byte, later, rfl, ends⟩ := h
    have sequence : ((acknowledgeBytes r n).bind fun rest => .done (byte :: rest)).Ends later operands :=
      ends
    obtain ⟨rest, first, last, taken, ⟨rfl, rfl⟩, rfl⟩ := sequence.bind_inv
    obtain ⟨length, rfl⟩ := ih taken
    exact ⟨congrArg (· + 1) length, by rw [List.append_nil, List.map_cons]⟩

/-- A supplied instruction stores last of all, and only `EX (SP),HL` has read memory before. -/
lemma storesLast_runSupplied {opcode : Byte} (h : (r.runSupplied opcode).Asks seen request) :
    StoresLast (fun _ => Instruction.ofOpcode opcode = .exchangeTop) seen request := by
  obtain asks | ⟨operands, first, later, ends, asks, rfl⟩ := h.bind_inv
  · exact .unwritten (unwritten_acknowledgeBytes asks)
  · obtain ⟨length, rfl⟩ := ends_acknowledgeBytes ends
    have size : operands.length = (Instruction.ofOpcode opcode).operandBytes := by
      rw [length, Instruction.size_ofOpcode]
      rfl
    have last := Instruction.storesLast_withSupplied
      (r := { r with pc := r.pc - UInt16.ofNat (Instruction.ofOpcode opcode).size })
      (Instruction.isEncodable_ofOpcode opcode) size asks
    apply last.append
    · intro address value found
      obtain ⟨byte, -, same⟩ := List.mem_map.mp found
      cases same
    · intro address value found
      obtain ⟨byte, -, same⟩ := List.mem_map.mp found
      cases same
    · exact fun _ moves => Instruction.movesWord_ofOpcode opcode moves

/-- The answer to a maskable interrupt stores last of all, and only a supplied `EX (SP),HL` has read
memory before. -/
lemma storesLast_answerInt {data : Byte} (h : (r.answerInt mode data).Asks seen request) :
    StoresLast (fun _ => mode = .mode0 ∧ Instruction.ofOpcode data = .exchangeTop) seen request := by
  cases mode with
  | mode0 =>
    have last := storesLast_runSupplied (h.bind_silent_inv fun done =>
      (stops_settle done .mode0 _).bind fun _ => trivial)
    exact last.imp fun _ exchanges => ⟨rfl, exchanges⟩
  | mode1 => exact storesLast_callTo (h.bind_silent_inv fun _ => trivial)
  | mode2 => exact storesLast_callTo (h.bind_silent_inv fun _ => trivial)

/-- When an interrupt is accepted, data is read before a word is stored only if the device has supplied
the exchange. -/
lemma storesLast_acceptInt (h : (r.acceptInt mode).Asks seen request) :
    StoresLast (fun _ => Instruction.begun? mode seen = some .exchangeTop) seen request := by
  have entry : (r.enterMaskable mode).Asks seen request :=
    (h.bind_silent_inv fun _ => trivial).onAbort_inv
  cases seen with
  | nil => exact .unwritten fun _ _ => List.not_mem_nil
  | cons access later =>
    obtain ⟨data, rfl, asks⟩ := entry
    have last := storesLast_answerInt asks
    show StoresLast _ ([.acknowledge data] ++ later) request
    apply last.append
    · intro address value found
      cases List.mem_singleton.mp found
    · intro address value found
      cases List.mem_singleton.mp found
    · rintro _ ⟨rfl, exchanges⟩
      exact congrArg some exchanges

/-- Nothing is seen before the second byte of an opcode is read. -/
lemma unwritten_decodeRest {pc : Word} {opcode : Byte}
    (h : (Instruction.decodeRest r pc opcode).Asks seen request) : seen = [] := by
  unfold Instruction.decodeRest at h
  split at h
  case isTrue =>
    cases seen with
    | nil => rfl
    | cons access later =>
      obtain ⟨byte, -, impossible⟩ := h
      exact impossible.elim
  case isFalse => exact h.elim

/-- What is read before a word is stored is the encoding of the instruction. -/
lemma storesLast_decoded {opcode : Byte} {i : Instruction} {first later : List Access}
    (decodes : (Instruction.decodeRest r r.pc opcode).Ends first i)
    (asks : (i.execute r).Asks later request) :
    Instruction.ofAccesses? (.read r.pc opcode :: (first ++ later)) = some i ∧
      StoresLast (fun a => i = .exchangeTop ∨ a ∈ r.pc.upFrom i.size)
        (.read r.pc opcode :: (first ++ later)) request := by
  obtain ⟨rfl, extended, rfl, rfl⟩ | ⟨base, rfl, rfl⟩ := Instruction.ends_decodeRest decodes
  · obtain ⟨encodable, size, bare⟩ := Instruction.encoding_ofExtendedOpcode extended
    have last := Instruction.storesLast_execute encodable asks
    rw [Instruction.movesWord_ofExtendedOpcode, bare] at last
    refine ⟨rfl, ?_⟩
    rw [size]
    show StoresLast _ (Access.reads r.pc [Opcode.extendedPage, extended] ++ later) request
    apply last.append
    · exact fun _ _ => Access.not_write_mem_reads
    · exact fun _ _ found => .inr (Access.mem_upFrom_of_mem_reads found)
    · rintro a (moves | operand)
      · cases moves
      · cases operand
  -- On the base page only `EX (SP),HL` moves a word without operand bytes.
  · have last := Instruction.storesLast_execute (Instruction.isEncodable_ofOpcode opcode) asks
    refine ⟨?_, ?_⟩
    · simp only [Instruction.ofAccesses?, beq_iff_eq, base, if_false]
    · rw [Instruction.size_ofOpcode]
      show StoresLast _ (Access.reads r.pc [opcode] ++ later) request
      apply last.append
      · exact fun _ _ => Access.not_write_mem_reads
      · intro a v found
        cases List.mem_singleton.mp found
        exact .inr List.mem_cons_self
      · rintro a (moves | operand)
        · exact .inl (Instruction.movesWord_ofOpcode opcode moves)
        · exact .inr (List.mem_cons_of_mem _ operand)

/-- An instruction that was fetched stores last of all, and has read only its own bytes before,
unless it is `EX (SP),HL`. -/
lemma storesLast_fetchExecute (h : (r.fetchExecute mode).Asks seen request) :
    StoresLast (fun a => Instruction.begun? mode seen = some .exchangeTop ∨
      ∃ i, Instruction.begun? mode seen = some i ∧ a ∈ r.pc.upFrom i.size) seen request := by
  cases seen with
  | nil => exact .unwritten fun _ _ => List.not_mem_nil
  | cons access later =>
    obtain ⟨opcode, rfl, asks⟩ := h
    have decoding : ((Instruction.decodeRest r r.pc opcode).bind fun i =>
        (tell (.record (.decoded r.pc i))).bind fun _ => (i.execute r).bind fun done =>
          (done.settle mode).bind fun after =>
            (tell (.event (.instructionRetired r.pc (.ofNat done.cycles)))).bind fun _ =>
              .done (Advance.mk done.registers after (.retired done.cycles))).Asks later request := asks
    obtain here | ⟨i, first, rest, decodes, executing, rfl⟩ := decoding.bind_inv
    -- Still decoding: only the opcode has been read.
    · obtain rfl := unwritten_decodeRest here
      apply StoresLast.unwritten
      intro address value found
      cases List.mem_singleton.mp found
    · have executes : (i.execute r).Asks rest request := Asks.bind_silent_inv executing fun done =>
        (stops_settle done mode _).bind fun _ => trivial
      obtain ⟨decoded, last⟩ := storesLast_decoded decodes executes
      apply last.imp
      rintro a (rfl | inside)
      · exact .inl decoded
      · exact .inr ⟨i, decoded, inside⟩

/-- An instruction is fetched where neither an interrupt nor a halt comes before it. -/
lemma fetches_of_not (hn : ¬ r.nmiPending = true) (ha : ¬ r.acceptsInt = true)
    (hh : ¬ r.halted = true) : r.fetches = true := by
  simp only [fetches, Bool.eq_false_iff.mpr hn, Bool.eq_false_iff.mpr ha, Bool.eq_false_iff.mpr hh,
    Bool.not_false, Bool.and_self]

/-- A step that begins with a read fetches an instruction. -/
lemma advance_read_inv {address : Word} {value : Byte} {later : List Access}
    (h : (r.advance mode).Asks (.read address value :: later) request) :
    address = r.pc ∧ r.fetches = true := by
  unfold advance at h
  split at h
  case isTrue =>
    obtain ⟨impossible, -⟩ := h
    cases impossible
  case isFalse hn =>
    split at h
    case isTrue =>
      obtain ⟨_, impossible, -⟩ := h
      cases impossible
    case isFalse ha =>
      split at h
      case isTrue => exact h.elim
      case isFalse hh =>
        obtain ⟨opcode, same, -⟩ := h
        cases same
        exact ⟨rfl, fetches_of_not hn ha hh⟩

/-- Once a byte was stored in a step, only another store is asked for. What was read before are the
bytes of the instruction that the step has fetched, unless the instruction exchanges HL with the word
on top of the stack. -/
theorem storesLast_advance (h : (r.advance mode).Asks seen request) :
    StoresLast (fun a => Instruction.begun? mode seen = some .exchangeTop ∨
      r.fetches = true ∧ ∃ i, Instruction.begun? mode seen = some i ∧ a ∈ r.pc.upFrom i.size)
      seen request := by
  unfold advance at h
  split at h
  case isTrue => exact storesLast_callTo (h.bind_silent_inv fun _ => trivial)
  case isFalse hn =>
    split at h
    case isTrue => exact (storesLast_acceptInt h).imp fun _ exchanges => .inl exchanges
    case isFalse ha =>
      split at h
      case isTrue => exact h.elim
      case isFalse hh =>
        apply (storesLast_fetchExecute h.onAbort_inv).imp
        rintro a (exchanges | inside)
        · exact .inl exchanges
        · exact .inr ⟨fetches_of_not hn ha hh, inside⟩

end Registers

end Z80
