/-!
# Register names

The eight byte registers are halves of four pairs. Together with the stack pointer and the program
counter the pairs are the six word registers. Opcodes name registers by small fields.
-/

namespace Z80

/-- The registers of eight bits. -/
inductive ByteRegister where
  | a
  | f
  | b
  | c
  | d
  | e
  | h
  | l
  deriving DecidableEq, Repr

/-- The registers of sixteen bits. -/
inductive WordRegister where
  | af
  | bc
  | de
  | hl
  | sp
  | pc
  deriving DecidableEq, Repr

/-- Where a byte sits in a word. -/
inductive Half where
  | high
  | low
  deriving DecidableEq, Repr

namespace ByteRegister

def pair : ByteRegister → WordRegister
  | a | f => .af
  | b | c => .bc
  | d | e => .de
  | h | l => .hl

def half : ByteRegister → Half
  | a | b | d | h => .high
  | f | c | e | l => .low

/-- The registers by the value of their opcode field. The field that is left out means the byte
in memory at HL. -/
def table : List (Option ByteRegister) :=
  [some b, some c, some d, some e, some h, some l, none, some a]

/-- The register of a three-bit opcode field, unless the field means memory. -/
def ofField? (field : Nat) : Option ByteRegister := table[field]?.join

def name : ByteRegister → String
  | a => "A"
  | f => "F"
  | b => "B"
  | c => "C"
  | d => "D"
  | e => "E"
  | h => "H"
  | l => "L"

/-- A byte register is determined by its pair and its half. -/
theorem eq_of_pair_half {r s : ByteRegister} (hp : r.pair = s.pair) (hh : r.half = s.half) :
    r = s := by
  cases r <;> cases s <;> simp_all [pair, half]

end ByteRegister

namespace WordRegister

/-- The registers by the value of their opcode field, as loads and word arithmetic use it. -/
def table : List WordRegister := [bc, de, hl, sp]

/-- The register of a two-bit opcode field, as loads and word arithmetic use it. -/
def ofField? (field : Nat) : Option WordRegister := table[field]?

/-- The registers by the value of their opcode field, as pushes and pops use it. -/
def stackTable : List WordRegister := [bc, de, hl, af]

/-- The register of a two-bit opcode field, as pushes and pops use it. -/
def ofStackField? (field : Nat) : Option WordRegister := stackTable[field]?

def name : WordRegister → String
  | af => "AF"
  | bc => "BC"
  | de => "DE"
  | hl => "HL"
  | sp => "SP"
  | pc => "PC"

end WordRegister

end Z80
