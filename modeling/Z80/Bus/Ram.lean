import Z80.Bus.Basic
import Z80.Memory.Basic

/-!
# Memory on the bus

A bus that is nothing but memory: every read succeeds, writes fail in the read-only region at the
bottom, and acknowledge cycles are answered with one fixed byte or not at all.
-/

namespace Z80

/-- Memory with a read-only region at the bottom and an answer to acknowledge cycles. -/
structure Ram where
  memory : Memory := .blank
  /-- Addresses below this one cannot be written over the bus. -/
  romSize : Word := 0
  /-- The byte that answers acknowledge cycles; without one they fail. -/
  acknowledge : Option Byte := some 0xFF
  deriving DecidableEq

namespace Ram

/-- Blank memory that is read-only below an address. -/
def withRom (romSize : Word) : Ram := { romSize }

/-- Stores bytes from an address on, over the end of memory to its beginning. The read-only region
does not count. -/
def load (r : Ram) (address : Word) (bytes : List Byte) : Ram :=
  { r with memory := r.memory.load address bytes }

/-- Reads a byte without an access. -/
def peek (r : Ram) (address : Word) : Byte := r.memory.get address

def withAcknowledge (r : Ram) (answer : Option Byte) : Ram := { r with acknowledge := answer }

def read (r : Ram) (address : Word) : Except BusError Byte × Ram := (.ok (r.peek address), r)

/-- Writes a byte outside the read-only region. -/
def write (r : Ram) (address : Word) (value : Byte) : Except BusError Unit × Ram :=
  if address < r.romSize then (.error (.readOnly address), r)
  else (.ok (), { r with memory := r.memory.set address value })

/-- Answers an acknowledge cycle with the fixed byte, if there is one. -/
def answerAcknowledge (r : Ram) : Except BusError Byte × Ram :=
  match r.acknowledge with
  | some byte => (.ok byte, r)
  | none => (.error .noAcknowledge, r)

instance : Bus Ram where
  read := read
  write := write
  acknowledge := answerAcknowledge

end Ram

end Z80
