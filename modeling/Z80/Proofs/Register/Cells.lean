import Mathlib.Tactic.Lemma
import Z80.Register.Bank

/-!
# Registers as cells

Eight byte registers are halves of four pairs, and the pairs change places with shadows. All the same
each half of a register is like a cell of its own (`ByteCell`): whatever is written to a bank and in
whatever order, it answers as a set of cells does in which a byte access is to one cell and a word
access to two, the high one and the low one (`Registers.answers_as_cells`). Each write does to the
cells of a bank what it does to the bank (`Registers.cells_write`), and each read looks at some of
them only (`Cells.read_store`).
-/

namespace Z80

/-- A flip-flop of the register bank. -/
inductive FlipFlop where
  | iff1
  | iff2
  | nmiPending
  | intPending
  | eiExecuted
  | halted
  deriving DecidableEq, Repr

/-- What holds a byte by itself: a half of a pair, of the shadow of a pair, of SP or of PC, or I. -/
inductive ByteCell where
  | main (name : ByteRegister)
  | shadow (name : ByteRegister)
  | sp (half : Half)
  | pc (half : Half)
  | i
  deriving DecidableEq, Repr

/-- The two cells of a word register. -/
def WordRegister.cell : WordRegister → Half → ByteCell
  | .af, .high => .main .a
  | .af, .low => .main .f
  | .bc, .high => .main .b
  | .bc, .low => .main .c
  | .de, .high => .main .d
  | .de, .low => .main .e
  | .hl, .high => .main .h
  | .hl, .low => .main .l
  | .sp, half => .sp half
  | .pc, half => .pc half

/-- What may be written to a register bank. -/
inductive RegisterWrite where
  | byte (name : ByteRegister) (value : Byte)
  | word (name : WordRegister) (value : Word)
  | a (value : Byte)
  | flags (value : Byte)
  | pc (value : Word)
  | sp (value : Word)
  | i (value : Byte)
  | shadow (pairs : ShadowPairs)
  | exchangeAf
  | exchangePairs
  | interruptsEnabled (enabled : Bool)
  | flipFlop (name : FlipFlop) (value : Bool)
  deriving DecidableEq, Repr

/-- What may be read of a register bank. -/
inductive RegisterRead where
  | byte (name : ByteRegister)
  | word (name : WordRegister)
  | a
  | flags
  | pc
  | sp
  | i
  | shadow
  | flipFlop (name : FlipFlop)
  deriving DecidableEq, Repr

/-- What a read comes back with. -/
inductive RegisterValue where
  | byte (value : Byte)
  | word (value : Word)
  | pairs (value : ShadowPairs)
  | bit (value : Bool)
  deriving DecidableEq, Repr

/-- The cells that a read looks at. -/
def RegisterRead.cells : RegisterRead → List ByteCell
  | byte name => [.main name]
  | word name => [name.cell .high, name.cell .low]
  | a => [.main .a]
  | flags => [.main .f]
  | pc => [.pc .high, .pc .low]
  | sp => [.sp .high, .sp .low]
  | i => [.i]
  | shadow => [.a, .f, .b, .c, .d, .e, .h, .l].map .shadow
  | flipFlop _ => []

/-- A byte in each cell, and a bit in each flip-flop. -/
@[ext]
structure Cells where
  byte : ByteCell → Byte
  flipFlop : FlipFlop → Bool

namespace Cells

/-- The word that two cells hold. -/
def word (c : Cells) (high low : ByteCell) : Word := .ofHalves (c.byte high) (c.byte low)

/-- The cells when a value was put in one of them. -/
def store (c : Cells) (cell : ByteCell) (value : Byte) : Cells :=
  { c with byte := fun other => if other = cell then value else c.byte other }

/-- The cells when the halves of a word were put in two of them. -/
def storeWord (c : Cells) (high low : ByteCell) (value : Word) : Cells :=
  (c.store high value.high).store low value.low

/-- The cells when one flip-flop was set. -/
def setFlipFlop (c : Cells) (name : FlipFlop) (value : Bool) : Cells :=
  { c with flipFlop := fun other => if other = name then value else c.flipFlop other }

/-- The cells of these registers change places with those of their shadows. -/
def exchange (c : Cells) (names : List ByteRegister) : Cells :=
  { c with byte := fun
      | .main name => if name ∈ names then c.byte (.shadow name) else c.byte (.main name)
      | .shadow name => if name ∈ names then c.byte (.main name) else c.byte (.shadow name)
      | cell => c.byte cell }

def write (c : Cells) : RegisterWrite → Cells
  | .byte name value => c.store (.main name) value
  | .word name value => c.storeWord (name.cell .high) (name.cell .low) value
  | .a value => c.store (.main .a) value
  | .flags value => c.store (.main .f) value
  | .pc value => c.storeWord (.pc .high) (.pc .low) value
  | .sp value => c.storeWord (.sp .high) (.sp .low) value
  | .i value => c.store .i value
  | .shadow pairs =>
    c.storeWord (.shadow .a) (.shadow .f) pairs.af
      |>.storeWord (.shadow .b) (.shadow .c) pairs.bc
      |>.storeWord (.shadow .d) (.shadow .e) pairs.de
      |>.storeWord (.shadow .h) (.shadow .l) pairs.hl
  | .exchangeAf => c.exchange [.a, .f]
  | .exchangePairs => c.exchange [.b, .c, .d, .e, .h, .l]
  | .interruptsEnabled enabled => (c.setFlipFlop .iff1 enabled).setFlipFlop .iff2 enabled
  | .flipFlop name value => c.setFlipFlop name value

def read (c : Cells) : RegisterRead → RegisterValue
  | .byte name => .byte (c.byte (.main name))
  | .word name => .word (c.word (name.cell .high) (name.cell .low))
  | .a => .byte (c.byte (.main .a))
  | .flags => .byte (c.byte (.main .f))
  | .pc => .word (c.word (.pc .high) (.pc .low))
  | .sp => .word (c.word (.sp .high) (.sp .low))
  | .i => .byte (c.byte .i)
  | .shadow => .pairs {
      af := c.word (.shadow .a) (.shadow .f)
      bc := c.word (.shadow .b) (.shadow .c)
      de := c.word (.shadow .d) (.shadow .e)
      hl := c.word (.shadow .h) (.shadow .l) }
  | .flipFlop name => .bit (c.flipFlop name)

def writeAll (c : Cells) (writes : List RegisterWrite) : Cells := writes.foldl write c

/-- A cell holds what was put there. -/
lemma byte_store_self (c : Cells) (cell : ByteCell) (value : Byte) :
    (c.store cell value).byte cell = value :=
  if_pos rfl

/-- To put a value in one cell leaves the others as they are. -/
lemma byte_store_ne (c : Cells) {cell other : ByteCell} (apart : other ≠ cell) (value : Byte) :
    (c.store cell value).byte other = c.byte other :=
  if_neg apart

/-- What a read comes back with depends on the cells that it looks at. -/
lemma read_congr {c d : Cells} {what : RegisterRead}
    (bytes : ∀ cell ∈ what.cells, c.byte cell = d.byte cell) (bits : c.flipFlop = d.flipFlop) :
    c.read what = d.read what := by
  cases what with
  | flipFlop name => exact congrArg RegisterValue.bit (congrFun bits name)
  | byte _ | a | flags | i => exact congrArg RegisterValue.byte (bytes _ (List.mem_singleton_self _))
  | word _ | pc | sp | shadow =>
    simp only [RegisterRead.cells, List.map_cons, List.map_nil, List.forall_mem_cons] at bytes
    simp only [read, word, bytes]

/-- A read that does not look at a cell does not see what is stored there. -/
lemma read_store (c : Cells) {cell : ByteCell} {what : RegisterRead} (unseen : cell ∉ what.cells)
    (value : Byte) : (c.store cell value).read what = c.read what := by
  refine read_congr (fun other seen => ?_) rfl
  have apart : other ≠ cell := by
    rintro rfl
    exact unseen seen
  exact c.byte_store_ne apart value

end Cells

/-- The half of a shadow pair that a byte register changes places with. -/
def ShadowPairs.readByte (s : ShadowPairs) : ByteRegister → Byte
  | .a => s.af.high
  | .f => s.af.low
  | .b => s.bc.high
  | .c => s.bc.low
  | .d => s.de.high
  | .e => s.de.low
  | .h => s.hl.high
  | .l => s.hl.low

/-- The half of a word. -/
def Word.half (w : Word) : Half → Byte
  | .high => w.high
  | .low => w.low

namespace Registers

def flipFlop (r : Registers) : FlipFlop → Bool
  | .iff1 => r.iff1
  | .iff2 => r.iff2
  | .nmiPending => r.nmiPending
  | .intPending => r.intPending
  | .eiExecuted => r.eiExecuted
  | .halted => r.halted

def withFlipFlop (r : Registers) (name : FlipFlop) (value : Bool) : Registers :=
  match name with
  | .iff1 => { r with iff1 := value }
  | .iff2 => { r with iff2 := value }
  | .nmiPending => { r with nmiPending := value }
  | .intPending => { r with intPending := value }
  | .eiExecuted => { r with eiExecuted := value }
  | .halted => { r with halted := value }

def write (r : Registers) : RegisterWrite → Registers
  | .byte name value => r.writeByte name value
  | .word name value => r.writeWord name value
  | .a value => r.withA value
  | .flags value => r.withFlags value
  | .pc value => { r with pc := value }
  | .sp value => { r with sp := value }
  | .i value => { r with i := value }
  | .shadow pairs => { r with shadow := pairs }
  | .exchangeAf => r.exchangeAf
  | .exchangePairs => r.exchangePairs
  | .interruptsEnabled enabled => r.withInterruptsEnabled enabled
  | .flipFlop name value => r.withFlipFlop name value

def read (r : Registers) : RegisterRead → RegisterValue
  | .byte name => .byte (r.readByte name)
  | .word name => .word (r.readWord name)
  | .a => .byte r.a
  | .flags => .byte r.flags
  | .pc => .word r.pc
  | .sp => .word r.sp
  | .i => .byte r.i
  | .shadow => .pairs r.shadow
  | .flipFlop name => .bit (r.flipFlop name)

def writeAll (r : Registers) (writes : List RegisterWrite) : Registers := writes.foldl write r

/-- The cells that a bank shows. -/
def cells (r : Registers) : Cells where
  byte
    | .main name => r.readByte name
    | .shadow name => r.shadow.readByte name
    | .sp half => r.sp.half half
    | .pc half => r.pc.half half
    | .i => r.i
  flipFlop := r.flipFlop

/-- To write a byte register is to put a value in its cell. -/
lemma cells_writeByte (r : Registers) (name : ByteRegister) (value : Byte) :
    (r.writeByte name value).cells = r.cells.store (.main name) value := by
  refine Cells.ext (funext fun cell => ?_) (by cases name <;> rfl)
  cases cell with
  | main other =>
    by_cases same : other = name
    · subst same
      exact (r.readByte_writeByte other value).trans (r.cells.byte_store_self _ value).symm
    · have apart : ByteCell.main other ≠ .main name := fun h => same (ByteCell.main.inj h)
      exact (r.readByte_writeByte_ne value same).trans (r.cells.byte_store_ne apart value).symm
  | shadow _ | sp _ | pc _ | i => cases name <;> rfl

/-- To write a register pair is to put its halves in their two cells. -/
lemma cells_writeWord (r : Registers) (name : WordRegister) (value : Word) :
    (r.writeWord name value).cells = r.cells.storeWord (name.cell .high) (name.cell .low) value := by
  refine Cells.ext (funext fun cell => ?_) (by cases name <;> rfl)
  cases cell with
  | main other => cases name <;> cases other <;> rfl
  | sp half | pc half => cases name <;> cases half <;> rfl
  | shadow _ | i => cases name <;> rfl

/-- To set the shadow pairs is to put their halves in their eight cells. -/
lemma cells_withShadow (r : Registers) (pairs : ShadowPairs) :
    ({ r with shadow := pairs } : Registers).cells = r.cells.write (.shadow pairs) := by
  refine Cells.ext (funext fun cell => ?_) rfl
  cases cell with
  | shadow name => cases name <;> rfl
  | main _ | sp _ | pc _ | i => rfl

/-- The exchange of the accumulator and the flags is one of the cells of both. -/
lemma cells_exchangeAf (r : Registers) : r.exchangeAf.cells = r.cells.exchange [.a, .f] := by
  refine Cells.ext (funext fun cell => ?_) rfl
  cases cell with
  | main name | shadow name => cases name <;> rfl
  | sp _ | pc _ | i => rfl

/-- The exchange of the other pairs is one of their six cells. -/
lemma cells_exchangePairs (r : Registers) :
    r.exchangePairs.cells = r.cells.exchange [.b, .c, .d, .e, .h, .l] := by
  refine Cells.ext (funext fun cell => ?_) rfl
  cases cell with
  | main name | shadow name => cases name <;> rfl
  | sp _ | pc _ | i => rfl

/-- To set a flip-flop of the bank is to set that of the cells. -/
lemma cells_withFlipFlop (r : Registers) (name : FlipFlop) (value : Bool) :
    (r.withFlipFlop name value).cells = r.cells.setFlipFlop name value := by
  refine Cells.ext (by cases name <;> rfl) (funext fun other => ?_)
  cases name <;> cases other <;> rfl

/-- A write does to the cells of a bank what it does to the bank. -/
theorem cells_write (r : Registers) (w : RegisterWrite) :
    (r.write w).cells = r.cells.write w := by
  cases w with
  | byte name value => exact r.cells_writeByte name value
  | word name value => exact r.cells_writeWord name value
  | a value => exact r.cells_writeByte .a value
  | flags value => exact r.cells_writeByte .f value
  | pc value => exact r.cells_writeWord .pc value
  | sp value => exact r.cells_writeWord .sp value
  | i value => exact Cells.ext (funext fun cell => by cases cell <;> rfl) rfl
  | shadow pairs => exact r.cells_withShadow pairs
  | exchangeAf => exact r.cells_exchangeAf
  | exchangePairs => exact r.cells_exchangePairs
  | interruptsEnabled enabled =>
    have first := r.cells_withFlipFlop .iff1 enabled
    have second := (r.withFlipFlop .iff1 enabled).cells_withFlipFlop .iff2 enabled
    rw [first] at second
    exact second
  | flipFlop name value => exact r.cells_withFlipFlop name value

/-- Writes to the bank are writes to its cells, one after the other. -/
lemma cells_writeAll (r : Registers) (writes : List RegisterWrite) :
    (r.writeAll writes).cells = r.cells.writeAll writes :=
  (List.foldl_hom cells fun r w => (r.cells_write w).symm).symm

/-- A bank is read as its cells are. -/
theorem read_cells (r : Registers) (what : RegisterRead) : r.cells.read what = r.read what := by
  cases what with
  | word name => cases name <;> exact congrArg RegisterValue.word (Word.ofHalves_high_low _)
  | pc | sp => exact congrArg RegisterValue.word (Word.ofHalves_high_low _)
  | shadow =>
    show RegisterValue.pairs {
      af := .ofHalves r.shadow.af.high r.shadow.af.low
      bc := .ofHalves r.shadow.bc.high r.shadow.bc.low
      de := .ofHalves r.shadow.de.high r.shadow.de.low
      hl := .ofHalves r.shadow.hl.high r.shadow.hl.low } = .pairs r.shadow
    simp only [Word.ofHalves_high_low]
  | byte _ | a | flags | i | flipFlop _ => rfl

/-- Two byte registers that make up a word register hold its two halves. -/
lemma readWord_of_halves (r : Registers) {high low : ByteRegister} (pair : high.pair = low.pair)
    (upper : high.half = .high) (lower : low.half = .low) :
    r.readWord high.pair = .ofHalves (r.readByte high) (r.readByte low) := by
  rw [readByte, readByte, upper, lower, ← pair]
  exact (Word.ofHalves_high_low _).symm

/-- What is written to a bank, in whatever order, is read as from cells of which each holds a byte by
itself. A byte write is not seen by reads that do not look at its cell, among them that of the other
half, and a pair is always read as its two halves are. -/
theorem answers_as_cells (r : Registers) (writes : List RegisterWrite) :
    (∀ what, (r.writeAll writes).read what = (r.cells.writeAll writes).read what) ∧
      (∀ name value what, ByteCell.main name ∉ what.cells →
        ((r.writeAll writes).writeByte name value).read what = (r.writeAll writes).read what) ∧
      ∀ high low : ByteRegister, high.pair = low.pair → high.half = .high → low.half = .low →
        (r.writeAll writes).readWord high.pair =
          .ofHalves ((r.writeAll writes).readByte high) ((r.writeAll writes).readByte low) := by
  refine ⟨fun what => ?_, fun name value what unseen => ?_, fun high low => ?_⟩
  · rw [← cells_writeAll, read_cells]
  · rw [← read_cells, cells_writeByte, Cells.read_store _ unseen, read_cells]
  · exact (r.writeAll writes).readWord_of_halves

/-- What is written to C while BC is in the shadows stays in the pair that changes with it. B is read
as before when C is written once more, and BC as B and C are. -/
theorem answers_as_cells_exchanged :
    let writes : List RegisterWrite :=
      [.word .bc 0x1234, .exchangePairs, .byte .c 0xFF, .exchangePairs, .byte .c 0x56]
    let r : Registers := Registers.writeAll {} writes
    r.read .shadow = .pairs { af := 0, bc := 0x00FF, de := 0, hl := 0 } ∧
      ByteCell.main .c ∉ (RegisterRead.byte .b).cells ∧
      (r.writeByte .c 0x78).read (.byte .b) = .byte 0x12 ∧
      ByteRegister.b.pair = ByteRegister.c.pair ∧ ByteRegister.b.half = .high ∧
      ByteRegister.c.half = .low ∧ r.readWord .bc = .ofHalves 0x12 0x56 := by
  intro writes r
  obtain ⟨answers, undisturbed, agree⟩ := answers_as_cells {} writes
  have b : r.read (.byte .b) = .byte 0x12 := answers (.byte .b)
  have c : r.read (.byte .c) = .byte 0x56 := answers (.byte .c)
  refine ⟨answers .shadow, by decide, ?_, rfl, rfl, rfl, ?_⟩
  · exact (undisturbed .c 0x78 (.byte .b) (by decide)).trans b
  · have halves : r.readWord .bc = .ofHalves (r.readByte .b) (r.readByte .c) :=
      agree .b .c rfl rfl rfl
    rw [halves, RegisterValue.byte.inj b, RegisterValue.byte.inj c]

end Registers

end Z80
