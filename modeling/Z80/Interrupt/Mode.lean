/-!
# Interrupt modes

How the processor answers a maskable interrupt: by running an instruction that the interrupting
device supplies, by a call to a fixed address, or by a call to an address the device selects.
-/

namespace Z80

/-- How the processor answers a maskable interrupt. -/
inductive InterruptMode where
  | mode0
  | mode1
  | mode2
  deriving DecidableEq, Repr

namespace InterruptMode

/-- The number an `IM` instruction selects the mode by. -/
def number : InterruptMode → Nat
  | mode0 => 0
  | mode1 => 1
  | mode2 => 2

def table : List InterruptMode := [mode0, mode1, mode2]

def ofNumber? (n : Nat) : Option InterruptMode := table[n]?

/-- A mode is found under its number. -/
theorem ofNumber?_number (m : InterruptMode) : ofNumber? m.number = some m := by
  cases m <;> rfl

end InterruptMode

/-- Where an accepted interrupt came from and how it was answered. -/
inductive InterruptSource where
  | nmi
  | maskable (mode : InterruptMode)
  deriving DecidableEq, Repr

end Z80
