import Z80.Register.Name

/-!
# Operands

Where an instruction takes a value from and where it puts one. The same four addressing forms serve
bytes and words: a register, a value that follows the opcode, memory at an address held in a
register, and memory at an address that follows the opcode.
-/

namespace Z80

/-- Where a value is taken from. -/
inductive Source (ρ : Type) where
  | register (name : ρ)
  | immediate
  | indirect (pointer : WordRegister)
  | absolute
  deriving DecidableEq, Repr

/-- Where a value is put. -/
inductive Target (ρ : Type) where
  | register (name : ρ)
  | indirect (pointer : WordRegister)
  | absolute
  deriving DecidableEq, Repr

namespace Source

/-- How many bytes the operand adds to the encoding when an immediate value has `width` bytes. -/
def encodedBytes {ρ : Type} (width : Nat) : Source ρ → Nat
  | register _ | indirect _ => 0
  | immediate => width
  | absolute => 2

/-- Reading the operand needs the bus. -/
def isMemory {ρ : Type} : Source ρ → Bool
  | register _ => false
  | _ => true

end Source

namespace Target

/-- The place a value is put, as a place to take one from. -/
def toSource {ρ : Type} : Target ρ → Source ρ
  | register name => .register name
  | indirect pointer => .indirect pointer
  | absolute => .absolute

/-- How many bytes the operand adds to the encoding. -/
def encodedBytes {ρ : Type} : Target ρ → Nat
  | register _ | indirect _ => 0
  | absolute => 2

/-- Writing the operand needs the bus. -/
def isMemory {ρ : Type} : Target ρ → Bool
  | register _ => false
  | _ => true

/-- A place takes as many bytes of the encoding to be read as to be written. -/
theorem encodedBytes_toSource {ρ : Type} (width : Nat) (t : Target ρ) :
    t.toSource.encodedBytes width = t.encodedBytes := by
  cases t <;> rfl

/-- A place is in memory to be read if it is to be written. -/
theorem isMemory_toSource {ρ : Type} (t : Target ρ) : t.toSource.isMemory = t.isMemory := by
  cases t <;> rfl

end Target

abbrev ByteSource := Source ByteRegister

abbrev ByteTarget := Target ByteRegister

abbrev WordSource := Source WordRegister

abbrev WordTarget := Target WordRegister

end Z80
