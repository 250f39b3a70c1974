import Z80.Interrupt.Line

/-!
# Line handles

The inputs of a processor may be driven from several places, each through a handle of its own.
Handles that were made from one another belong to one family and drive the same inputs; a handle that
is made afresh begins a family of its own.
-/

namespace Z80

/-- Families of inputs, and for each handle the family it drives. -/
structure LinePool where
  families : List Lines := [{}]
  handles : List Nat := [0]
  deriving DecidableEq, Repr

namespace LinePool

/-- The family of a handle, if there is such a handle. -/
def family? (p : LinePool) (handle : Nat) : Option Nat := p.handles[handle]?

/-- The inputs that a handle shows, if there is such a handle. -/
def lines? (p : LinePool) (handle : Nat) : Option Lines := do
  let family ← p.family? handle
  p.families[family]?

/-- Drives the inputs of the family of a handle. -/
def apply (p : LinePool) (handle : Nat) (call : LineCall) : LinePool :=
  match p.family? handle with
  | some family => { p with families := p.families.modify family (·.apply call) }
  | none => p

/-- Adds a handle of the family of another. -/
def share (p : LinePool) (handle : Nat) : LinePool :=
  match p.family? handle with
  | some family => { p with handles := p.handles ++ [family] }
  | none => p

/-- Adds a handle with inputs of its own. -/
def addFresh (p : LinePool) : LinePool :=
  { families := p.families ++ [{}], handles := p.handles ++ [p.families.length] }

/-- The inputs seen through each handle. -/
def view (p : LinePool) : List Lines :=
  p.handles.filterMap fun family => p.families[family]?

end LinePool

end Z80
