import Z80.Flag.Basic

/-!
# Flag updates

What an operation does to the flag byte: some bits become one, some become zero, the others stay.
Updates are laid over one another, and of two updates that decide the same bit the later one wins.

Main statement: laying one update over another acts like applying them in turn
(`FlagUpdate.apply_overlay`).
-/

namespace Z80

/-- The bits an operation forces to one and the bits it forces to zero. -/
structure FlagUpdate where
  set : Byte
  clear : Byte
  deriving DecidableEq, Repr

namespace FlagUpdate

def none : FlagUpdate := ⟨0, 0⟩

def sets (mask : Byte) : FlagUpdate := ⟨mask, 0⟩

def clears (mask : Byte) : FlagUpdate := ⟨0, mask⟩

/-- Gives the flags of the mask the state they have in `values`. -/
def assign (mask values : Byte) : FlagUpdate := ⟨values &&& mask, ~~~values &&& mask⟩

/-- Forces the flags of the mask to the state `enabled`. -/
def flag (mask : Byte) (enabled : Bool) : FlagUpdate :=
  if enabled then sets mask else clears mask

/-- The bits that are decided. -/
def affected (u : FlagUpdate) : Byte := u.set ||| u.clear

/-- Leaves the flags of the mask as they are and decides the others like `u`. -/
def without (u : FlagUpdate) (mask : Byte) : FlagUpdate := ⟨u.set &&& ~~~mask, u.clear &&& ~~~mask⟩

/-- Lays `v` over `u`: what `v` decides goes by `v`, the rest by `u`. -/
def overlay (u v : FlagUpdate) : FlagUpdate :=
  ⟨u.set &&& ~~~v.affected ||| v.set, u.clear &&& ~~~v.affected ||| v.clear⟩

/-- The flags as the update decides them, and the others as they were. -/
def apply (u : FlagUpdate) (flags : Byte) : Byte := (flags ||| u.set) &&& ~~~u.clear

/-- No bit is decided both ways. -/
def Consistent (u : FlagUpdate) : Prop := u.set &&& u.clear = 0

/-- Overlaid updates act one after the other. -/
theorem apply_overlay (u v : FlagUpdate) (flags : Byte) :
    (u.overlay v).apply flags = v.apply (u.apply flags) := by
  apply UInt8.toBitVec_inj.mp
  ext i hi
  simp only [apply, overlay, affected, UInt8.toBitVec_and, UInt8.toBitVec_or, UInt8.toBitVec_not,
    BitVec.getElem_and, BitVec.getElem_or, BitVec.getElem_not]
  cases u.set.toBitVec[i] <;> cases u.clear.toBitVec[i] <;> cases v.set.toBitVec[i] <;>
    cases v.clear.toBitVec[i] <;> cases flags.toBitVec[i] <;> rfl

end FlagUpdate

end Z80
