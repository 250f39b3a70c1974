/-!
# Control lines

The inputs that reach a processor from outside: a reset request, the non-maskable interrupt line,
which counts by its rising edges, and the maskable interrupt line, which counts by its level. They
may be driven at any time and are looked at between instructions.

Main statements: each call changes its own inputs only, so calls on different inputs can change
places (`Lines.apply_comm`).
-/

namespace Z80

/-- The inputs of a processor as they were driven last, and what is remembered of them. -/
structure Lines where
  resetRequested : Bool := false
  nmiLevel : Bool := false
  /-- The non-maskable interrupt line rose since this was last looked at. -/
  nmiEdge : Bool := false
  intLevel : Bool := false
  deriving DecidableEq, Repr

/-- Something done to the inputs from outside. -/
inductive LineCall where
  | requestReset
  | driveNmi (level : Bool)
  | driveInt (level : Bool)
  deriving DecidableEq, Repr

namespace LineCall

/-- Two calls are on the same input. -/
def sameInput : LineCall → LineCall → Bool
  | requestReset, requestReset => true
  | driveNmi _, driveNmi _ => true
  | driveInt _, driveInt _ => true
  | _, _ => false

end LineCall

namespace Lines

def requestReset (l : Lines) : Lines := { l with resetRequested := true }

/-- Drives the non-maskable interrupt line. A rise is remembered even if the line drops again. -/
def driveNmi (l : Lines) (level : Bool) : Lines :=
  { l with nmiLevel := level, nmiEdge := l.nmiEdge || (level && !l.nmiLevel) }

def driveInt (l : Lines) (level : Bool) : Lines := { l with intLevel := level }

def apply (l : Lines) : LineCall → Lines
  | .requestReset => l.requestReset
  | .driveNmi level => l.driveNmi level
  | .driveInt level => l.driveInt level

/-- The inputs when the reset request has been taken note of. -/
def takeReset (l : Lines) : Lines := { l with resetRequested := false }

/-- The inputs when the rise of the non-maskable interrupt line has been taken note of. -/
def takeNmiEdge (l : Lines) : Lines := { l with nmiEdge := false }

/-- Calls on different inputs may come in either order. -/
theorem apply_comm (l : Lines) {c d : LineCall} (h : c.sameInput d = false) :
    (l.apply c).apply d = (l.apply d).apply c := by
  cases c with
  | requestReset =>
    cases d with
    | requestReset => cases h
    | driveNmi _ => rfl
    | driveInt _ => rfl
  | driveNmi _ =>
    cases d with
    | requestReset => rfl
    | driveNmi _ => cases h
    | driveInt _ => rfl
  | driveInt _ =>
    cases d with
    | requestReset => rfl
    | driveNmi _ => rfl
    | driveInt _ => cases h

end Lines

end Z80
