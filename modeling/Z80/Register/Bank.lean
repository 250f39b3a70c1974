import Z80.Register.Name
import Z80.Flag.Update

/-!
# The register bank

Everything a programmer can see of the processor's state: four pairs and their shadows, program
counter and stack pointer, the interrupt vector base, the two interrupt-enable flip-flops, and the
flip-flops that hold pending requests, the one-instruction shadow of an enable, and a halt.

Byte registers are views of the pairs, so a byte write goes through the pair and leaves the other
half alone (`Registers.readByte_writeByte`, `Registers.readByte_writeByte_ne`).
-/

namespace Z80

/-- The shadow pairs, which only the exchange operations reach. -/
structure ShadowPairs where
  af : Word := 0
  bc : Word := 0
  de : Word := 0
  hl : Word := 0
  deriving DecidableEq, Repr

/-- The register bank. Its defaults are the state after power-on. -/
structure Registers where
  /-- Accumulator and flags. -/
  af : Word := 0xFFFF
  bc : Word := 0
  de : Word := 0
  hl : Word := 0
  shadow : ShadowPairs := {}
  pc : Word := 0
  sp : Word := 0xFFFF
  /-- High byte of the mode 2 vector. -/
  i : Byte := 0
  iff1 : Bool := false
  /-- The copy of the enable that a return from a non-maskable interrupt restores. -/
  iff2 : Bool := false
  nmiPending : Bool := false
  /-- The level of the maskable interrupt line when it was last sampled. -/
  intPending : Bool := false
  /-- The last instruction enabled interrupts, which holds them off for one instruction more. -/
  eiExecuted : Bool := false
  halted : Bool := false
  deriving DecidableEq, Repr

namespace Registers

/-- The bank after a reset. The pending flip-flop takes the level of the interrupt line. -/
def reset (intLevel : Bool) : Registers := { intPending := intLevel }

/-- What a register pair holds. -/
def readWord (r : Registers) : WordRegister → Word
  | .af => r.af
  | .bc => r.bc
  | .de => r.de
  | .hl => r.hl
  | .sp => r.sp
  | .pc => r.pc

def writeWord (r : Registers) (name : WordRegister) (value : Word) : Registers :=
  match name with
  | .af => { r with af := value }
  | .bc => { r with bc := value }
  | .de => { r with de := value }
  | .hl => { r with hl := value }
  | .sp => { r with sp := value }
  | .pc => { r with pc := value }

/-- What a byte register holds, as a half of its pair. -/
def readByte (r : Registers) (name : ByteRegister) : Byte :=
  match name.half with
  | .high => (r.readWord name.pair).high
  | .low => (r.readWord name.pair).low

/-- Writes a byte register and leaves the other half of its pair. -/
def writeByte (r : Registers) (name : ByteRegister) (value : Byte) : Registers :=
  r.writeWord name.pair <|
    match name.half with
    | .high => (r.readWord name.pair).withHigh value
    | .low => (r.readWord name.pair).withLow value

def a (r : Registers) : Byte := r.readByte .a

def withA (r : Registers) (value : Byte) : Registers := r.writeByte .a value

def flags (r : Registers) : Byte := r.readByte .f

def withFlags (r : Registers) (value : Byte) : Registers := r.writeByte .f value

/-- Every flag of the mask is set. -/
def flagIsSet (r : Registers) (mask : Byte) : Bool := Flag.isSet r.flags mask

def carry (r : Registers) : Bool := r.flagIsSet Flag.carry

/-- The flags take what the update decides, and keep the rest. -/
def updateFlags (r : Registers) (u : FlagUpdate) : Registers := r.withFlags (u.apply r.flags)

/-- Both enable flip-flops are set to the same. -/
def withInterruptsEnabled (r : Registers) (enabled : Bool) : Registers :=
  { r with iff1 := enabled, iff2 := enabled }

/-- The accumulator and the flags change places with their shadow pair. -/
def exchangeAf (r : Registers) : Registers :=
  { r with af := r.shadow.af, shadow := { r.shadow with af := r.af } }

/-- The three other pairs change places with their shadow pairs. -/
def exchangePairs (r : Registers) : Registers :=
  { r with
    bc := r.shadow.bc
    de := r.shadow.de
    hl := r.shadow.hl
    shadow := { r.shadow with bc := r.bc, de := r.de, hl := r.hl } }

/-- The pairs `DE` and `HL` change places. -/
def exchangeDeHl (r : Registers) : Registers := { r with de := r.hl, hl := r.de }

/-- A register pair reads as it was written. -/
@[simp] theorem readWord_writeWord (r : Registers) (name : WordRegister) (value : Word) :
    (r.writeWord name value).readWord name = value := by
  cases name <;> rfl

/-- To write one register pair does not change another. -/
theorem readWord_writeWord_ne (r : Registers) {name other : WordRegister} (value : Word)
    (h : other ≠ name) : (r.writeWord name value).readWord other = r.readWord other := by
  cases name <;> cases other <;> first | rfl | exact absurd rfl h

/-- A byte register reads as it was written. -/
@[simp] theorem readByte_writeByte (r : Registers) (name : ByteRegister) (value : Byte) :
    (r.writeByte name value).readByte name = value := by
  unfold readByte writeByte
  cases name.half <;> simp [Word.withHigh, Word.withLow]

/-- A byte write leaves every other byte register, the other half of its pair included. -/
theorem readByte_writeByte_ne (r : Registers) {name other : ByteRegister} (value : Byte)
    (h : other ≠ name) : (r.writeByte name value).readByte other = r.readByte other := by
  unfold readByte writeByte
  by_cases hp : other.pair = name.pair
  · have hh : other.half ≠ name.half := fun hh => h (ByteRegister.eq_of_pair_half hp hh)
    rw [hp]
    cases ho : other.half <;> cases hn : name.half <;>
      simp_all [Word.withHigh, Word.withLow]
  · rw [readWord_writeWord_ne _ _ hp]

end Registers

end Z80
