import Z80.Proofs.Bus.Success
import Z80.Proofs.Execution.Frame
import Z80.Proofs.Memory.Load
import Z80.Proofs.Microprogram.Phases

/-!
# Loads

A load moves one value. Where it takes it from and where it puts it are cells: halves of word
registers and bytes of memory (`Cell`), found with the registers and memory as they are before
(`Instruction.moves?`), a word as two cells with the low byte first. After the load the cells that it
loads hold what the cells it takes from have held, and nothing else has changed but the program
counter (`Instruction.load_moves`). The cells may overlap each other, the registers that hold the
address, and the bytes of the load itself.
-/

namespace Z80

/-- A place for a byte: a half of a word register, or an address in memory. -/
inductive Cell where
  | half (name : WordRegister) (half : Half)
  | memory (address : Word)
  deriving DecidableEq, Repr

namespace Cell

/-- The byte that the cell holds. -/
def read (r : Registers) (m : Memory) : Cell → Byte
  | half name side =>
    match side with
    | .high => (r.readWord name).high
    | .low => (r.readWord name).low
  | memory address => m.get address

/-- The cell of a byte register. -/
def ofByte (name : ByteRegister) : List Cell := [half name.pair name.half]

/-- The cells of a word register, the low half first. -/
def ofWord (name : WordRegister) : List Cell := [half name .low, half name .high]

/-- The cells of memory at an address and the ones that follow, so many of them. -/
def upFrom (address : Word) (n : Nat) : List Cell := (address.upFrom n).map memory

/-- The cells hold the values now, and every other cell holds what it held. -/
structure Placed (cells : List Cell) (values : List Byte) (r : Registers) (m : Memory)
    (r' : Registers) (m' : Memory) : Prop where
  here : cells.map (read r' m') = values
  elsewhere : ∀ cell ∉ cells, cell.read r' m' = cell.read r m

section

variable (r : Registers) (m : Memory)

/-- A word that is written to a register pair is in its two halves, and nothing else is changed. -/
lemma placed_writeWord (name : WordRegister) (value : Word) :
    Placed (ofWord name) [value.low, value.high] r m (r.writeWord name value) m where
  here := by
    show [((r.writeWord name value).readWord name).low,
      ((r.writeWord name value).readWord name).high] = _
    rw [r.readWord_writeWord]
  elsewhere := by
    intro cell outside
    cases cell with
    | memory address => rfl
    | half other side =>
      have apart : other ≠ name := by
        rintro rfl
        apply outside
        cases side with
        | low => exact List.mem_cons_self
        | high => exact List.mem_cons_of_mem _ List.mem_cons_self
      cases side with
      | low => exact congrArg Word.low (r.readWord_writeWord_ne value apart)
      | high => exact congrArg Word.high (r.readWord_writeWord_ne value apart)

/-- A byte that is written to a register is in its half of the pair, and nothing else is changed. -/
lemma placed_writeByte (name : ByteRegister) (value : Byte) :
    Placed (ofByte name) [value] r m (r.writeByte name value) m where
  here := congrArg (fun byte => [byte]) (r.readByte_writeByte name value)
  elsewhere := by
    intro cell outside
    cases cell with
    | memory address => rfl
    | half other side =>
      by_cases same : other = name.pair
      · -- The other half of the pair that is written.
        subst same
        have apart : side ≠ name.half := by
          rintro rfl
          exact outside List.mem_cons_self
        unfold Registers.writeByte
        cases side <;> cases half : name.half <;>
          simp_all [read, Word.withHigh, Word.withLow]
      · cases side with
        | low => exact congrArg Word.low (r.readWord_writeWord_ne _ same)
        | high => exact congrArg Word.high (r.readWord_writeWord_ne _ same)

end

/-- An address near enough to the first is among the cells counted from there. -/
lemma mem_upFrom {first address : Word} {n : Nat} (near : (address - first).toNat < n) :
    memory address ∈ upFrom first n := by
  induction n generalizing first with
  | zero => exact absurd near (Nat.not_lt_zero _)
  | succ n ih =>
    by_cases same : address = first
    · subst same
      exact List.mem_cons_self
    · rw [Word.toNat_offset_succ same] at near
      exact List.mem_cons_of_mem _ (ih (Nat.lt_of_succ_lt_succ near))

/-- Bytes that are loaded are in the cells counted from their address, and nothing else is
changed. -/
lemma placed_load (r : Registers) (m : Memory) (address : Word) {values : List Byte}
    (few : values.length ≤ 65536) :
    Placed (upFrom address values.length) values r m r (m.load address values) where
  here := by
    induction values generalizing m address with
    | nil => rfl
    | cons value rest ih =>
      have first : (m.load address (value :: rest)).get address = value := by
        rw [Memory.get_load m address address few, UInt16.sub_self]
        rfl
      have later := ih (m.set address value) (address + 1) (Nat.le_of_succ_le few)
      exact congr (congrArg List.cons first) later
  elsewhere := by
    intro cell outside
    cases cell with
    | half name side => rfl
    | memory other =>
      have far : values.length ≤ (other - address).toNat :=
        Nat.le_of_not_lt fun near => outside (mem_upFrom near)
      show (m.load address values).get other = m.get other
      rw [Memory.get_load m address other few, List.getElem?_eq_none far]
      rfl

end Cell

/-- The cells of an operand, when a register has these and a value in memory has so many bytes. -/
def Source.cells {ρ : Type} (held : ρ → List Cell) (width : Nat) (r : Registers) (m : Memory) :
    Source ρ → List Cell
  | .register name => held name
  | .immediate => Cell.upFrom (r.pc + 1) width
  | .indirect pointer => Cell.upFrom (r.readWord pointer) width
  | .absolute => Cell.upFrom (m.getWord (r.pc + 1)) width

open Microprogram

/-- What stands in the cells of a byte operand is read, and memory stays. -/
lemma ByteSource.completes_read (s : ByteSource) (r : Registers) (m : Ram) :
    ∃ value t, (ByteSource.read s r).Completes m value m t ∧
      (s.cells Cell.ofByte 1 r m.memory).map (Cell.read r m.memory) = [value] := by
  cases s with
  | register name => exact ⟨r.readByte name, [], rfl, rfl⟩
  | immediate | indirect _ => exact ⟨_, _, .read rfl rfl, rfl⟩
  | absolute => exact ⟨_, _, .read rfl (.read rfl (.read rfl rfl)), rfl⟩

/-- What stands in the cells of a word operand is read, and memory stays. -/
lemma WordSource.completes_read (s : WordSource) (r : Registers) (m : Ram) :
    ∃ value t, (WordSource.read s r).Completes m value m t ∧
      (s.cells Cell.ofWord 2 r m.memory).map (Cell.read r m.memory) = [value.low, value.high] := by
  cases s with
  | register name => exact ⟨r.readWord name, [], rfl, rfl⟩
  | immediate | indirect _ =>
    refine ⟨_, _, .read rfl (.read rfl rfl), ?_⟩
    rw [Word.low_ofHalves, Word.high_ofHalves]
    rfl
  | absolute =>
    refine ⟨_, _, .read rfl (.read rfl (.read rfl (.read rfl rfl))), ?_⟩
    rw [Word.low_ofHalves, Word.high_ofHalves]
    rfl

section Writes

variable {m : Ram} (unguarded : m.romSize = 0) (r : Registers)

include unguarded

/-- A byte operand is written to its cells, and to no other. -/
lemma ByteTarget.completes_write (t : ByteTarget) (value : Byte) :
    ∃ after memory seen, (ByteTarget.write t r value).Completes m after { m with memory } seen ∧
      Cell.Placed (t.toSource.cells Cell.ofByte 1 r m.memory) [value] r m.memory after memory := by
  have free := Ram.write_unguarded unguarded
  have few : [value].length ≤ 65536 := Nat.le_of_ble_eq_true rfl
  cases t with
  | register name => exact ⟨_, m.memory, [], rfl, Cell.placed_writeByte r m.memory name value⟩
  | indirect pointer =>
    exact ⟨r, _, _, .write (free _ value m.memory) rfl, Cell.placed_load r m.memory _ few⟩
  | absolute =>
    exact ⟨r, _, _, .read rfl (.read rfl (.write (free _ value m.memory) rfl)),
      Cell.placed_load r m.memory _ few⟩

/-- A word operand is written to its cells, and to no other. -/
lemma WordTarget.completes_write (t : WordTarget) (value : Word) :
    ∃ after memory seen, (WordTarget.write t r value).Completes m after { m with memory } seen ∧
      Cell.Placed (t.toSource.cells Cell.ofWord 2 r m.memory) [value.low, value.high] r m.memory
        after memory := by
  have free := Ram.write_unguarded unguarded
  have few : [value.low, value.high].length ≤ 65536 := Nat.le_of_ble_eq_true rfl
  cases t with
  | register name => exact ⟨_, m.memory, [], rfl, Cell.placed_writeWord r m.memory name value⟩
  | indirect pointer =>
    exact ⟨r, _, _, .write (free _ value.low m.memory) (.write (free _ value.high _) rfl),
      Cell.placed_load r m.memory _ few⟩
  | absolute =>
    exact ⟨r, _, _, .read rfl (.read rfl
      (.write (free _ value.low m.memory) (.write (free _ value.high _) rfl))),
      Cell.placed_load r m.memory _ few⟩

end Writes

namespace Cell

variable {cell : Cell} {address : Word} {n : Nat}

/-- A cell of memory is no half of the program counter. -/
lemma ne_pc_of_mem_upFrom (found : cell ∈ upFrom address n) (side : Half) :
    cell ≠ half .pc side := by
  obtain ⟨_, _, rfl⟩ := List.mem_map.mp found
  exact nofun

/-- A move of the program counter shows in its own halves only. -/
lemma read_withPc (other : ∀ side, cell ≠ half .pc side) (r : Registers) (m : Memory) (pc : Word) :
    cell.read { r with pc } m = cell.read r m := by
  cases cell with
  | memory address => rfl
  | half name side =>
    cases name with
    | pc => exact absurd rfl (other side)
    | _ => rfl

end Cell

/-- A target that is plain has no half of the program counter for a cell. -/
lemma ByteTarget.ne_pc_of_mem_cells {t : ByteTarget} {r : Registers} {m : Memory} {cell : Cell}
    (found : cell ∈ t.toSource.cells Cell.ofByte 1 r m) (side : Half) : cell ≠ .half .pc side := by
  cases t with
  | register name =>
    obtain rfl := List.mem_singleton.mp found
    cases name <;> exact nofun
  | indirect _ | absolute => exact Cell.ne_pc_of_mem_upFrom found side

/-- The target of a word is not the program counter, unless it is named. -/
lemma WordTarget.ne_pc_of_mem_cells {t : WordTarget} (plain : t.isPlain = true) {r : Registers}
    {m : Memory} {cell : Cell} (found : cell ∈ t.toSource.cells Cell.ofWord 2 r m) (side : Half) :
    cell ≠ .half .pc side := by
  cases t with
  | register name =>
    have other : name ≠ .pc := bne_iff_ne.mp (Bool.and_eq_true_iff.mp plain).2
    obtain rfl | found := List.mem_cons.mp found
    · exact fun same => other (Cell.half.inj same).1
    · obtain rfl := List.mem_singleton.mp found
      exact fun same => other (Cell.half.inj same).1
  | indirect _ | absolute => exact Cell.ne_pc_of_mem_upFrom found side

namespace Instruction

/-- The cells that a load takes its value from and those that it puts it in, found before it is
executed. -/
def moves? (i : Instruction) (r : Registers) (m : Memory) : Option (List Cell × List Cell) :=
  match i with
  | loadByte target source =>
    some (source.cells Cell.ofByte 1 r m, target.toSource.cells Cell.ofByte 1 r m)
  | loadWord target source =>
    some (source.cells Cell.ofWord 2 r m, target.toSource.cells Cell.ofWord 2 r m)
  | _ => none

section

variable {i : Instruction} {r : Registers} {m : Ram} {sources targets : List Cell}

/-- No load that can be decoded has the program counter for its target. -/
lemma ne_pc_of_moves (plain : i.isPlain = true) {memory : Memory}
    (load : i.moves? r memory = some (sources, targets)) {cell : Cell} (found : cell ∈ targets)
    (side : Half) : cell ≠ .half .pc side := by
  cases i with
  | loadByte target source =>
    cases load
    exact ByteTarget.ne_pc_of_mem_cells found side
  | loadWord target source =>
    cases load
    exact WordTarget.ne_pc_of_mem_cells plain found side
  | _ => cases load

/-- Before the program counter moves, the value of a load stands where it is put, and nothing else has
changed. -/
lemma completes_body_of_moves (unguarded : m.romSize = 0)
    (load : i.moves? r m.memory = some (sources, targets)) (following : Word) :
    ∃ after memory t, (i.body r following).Completes m (after, .next) { m with memory } t ∧
      Cell.Placed targets (sources.map (Cell.read r m.memory)) r m.memory after memory := by
  cases i with
  | loadByte target source =>
    cases load
    obtain ⟨value, t₁, reads, held⟩ := ByteSource.completes_read source r m
    obtain ⟨after, memory, t₂, writes, placed⟩ :=
      ByteTarget.completes_write unguarded r target value
    rw [held]
    exact ⟨after, memory, _, reads.bind (writes.bind rfl), placed⟩
  | loadWord target source =>
    cases load
    obtain ⟨value, t₁, reads, held⟩ := WordSource.completes_read source r m
    obtain ⟨after, memory, t₂, writes, placed⟩ :=
      WordTarget.completes_write unguarded r target value
    rw [held]
    exact ⟨after, memory, _, reads.bind (writes.bind rfl), placed⟩
  | _ => cases load

/-- A load changes no flag, no flip-flop, and neither the vector base nor the shadow pairs. -/
lemma keeps_of_moves {after : Registers} {memory : Memory}
    (load : i.moves? r memory = some (sources, targets)) (spares : i.Spares r after)
    (switched : after.flipFlops = i.switch r.flipFlops) :
    after.flags = r.flags ∧ after.i = r.i ∧ after.shadow = r.shadow ∧
      after.flipFlops = r.flipFlops := by
  cases i with
  | loadByte _ _ | loadWord _ _ =>
    exact ⟨spares.flags_eq rfl, spares.vector nofun, spares.shadow nofun nofun, switched⟩
  | _ => cases load

/-- On memory without a read-only region a load that an opcode means completes, whatever the registers
and memory are. The cells that it loads then hold what those it takes from have held. Every other half
of a register and every other byte of memory is as before but for the program counter, which has moved
over the load, and so are the flags, the vector base, the shadow pairs and the flip-flops. -/
theorem load_moves (decoded : i.Decoded) (unguarded : m.romSize = 0)
    (load : i.moves? r m.memory = some (sources, targets)) :
    ∃ done memory t, (i.execute r).Completes m done { m with memory } t ∧
      targets.map (Cell.read done.registers memory) = sources.map (Cell.read r m.memory) ∧
      (∀ cell ∉ targets, (∀ side, cell ≠ .half .pc side) →
        cell.read done.registers memory = cell.read r m.memory) ∧
      done.registers.pc = r.pc + UInt16.ofNat i.size ∧ done.registers.flags = r.flags ∧
      done.registers.i = r.i ∧ done.registers.shadow = r.shadow ∧
      done.registers.flipFlops = r.flipFlops := by
  obtain ⟨after, memory, t, body, placed⟩ :=
    completes_body_of_moves unguarded load (r.pc + UInt16.ofNat i.size)
  have completes : (i.execute r).Completes m (i.retire _ after .next) { m with memory } (t ++ []) :=
    body.bind rfl
  have spares := completes.yields (spares_execute decoded.isPlain r)
  have switched := completes.yields (i.flipFlops_execute r)
  refine ⟨_, memory, _, completes, ?_, ?_, rfl, keeps_of_moves load spares switched⟩
  · rw [← placed.here]
    apply List.map_congr_left
    intro cell found
    exact Cell.read_withPc (ne_pc_of_moves decoded.isPlain load found) after memory _
  · intro cell outside other
    rw [← placed.elsewhere cell outside]
    exact Cell.read_withPc other after memory _

end

/-- A store of HL at the last address but one, to the last address. -/
def ontoItself : Ram := ({} : Ram).load 0xFFFE [0x22, 0xFF, 0xFF]

/-- The operand of the store is past the end of memory, and the word is stored over it and over the
end of memory. -/
theorem load_moves_ontoItself :
    (loadWord .absolute (.register .hl)).Decoded ∧
      ∃ done memory t,
        ((loadWord .absolute (.register .hl)).execute { hl := 0x1234, pc := 0xFFFE }).Completes
            ontoItself done { ontoItself with memory } t ∧
          memory.get 0xFFFF = 0x34 ∧ memory.get 0 = 0x12 ∧ memory.get 0xFFFE = 0x22 ∧
          done.registers.pc = 1 := by
  have decoded : (loadWord .absolute (.register .hl)).Decoded := .base 0x22
  have load : (loadWord .absolute (.register .hl)).moves? { hl := 0x1234, pc := 0xFFFE }
      ontoItself.memory = some ([.half .hl .low, .half .hl .high], [.memory 0xFFFF, .memory 0]) := by
    decide +kernel
  obtain ⟨done, memory, t, completes, loaded, kept, pc, -⟩ := load_moves decoded rfl load
  have stored : [memory.get 0xFFFF, memory.get 0] = [0x34, 0x12] := loaded
  have before : memory.get 0xFFFE = ontoItself.memory.get 0xFFFE :=
    kept (.memory 0xFFFE) (by decide) nofun
  have opcode : ontoItself.memory.get 0xFFFE = 0x22 := by decide +kernel
  exact ⟨decoded, done, memory, t, completes, List.head_eq_of_cons_eq stored,
    List.head_eq_of_cons_eq (List.tail_eq_of_cons_eq stored), before.trans opcode, pc⟩

end Instruction

end Z80
