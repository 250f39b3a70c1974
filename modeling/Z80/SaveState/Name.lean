import Z80.SaveState.Basic

/-!
# Saved names

The things that are saved under a name: registers, interrupt modes, the sources of interrupts, the
kinds of fault.
-/

namespace Z80

def ByteRegister.all : List ByteRegister := [a, f, b, c, d, e, h, l]

def WordRegister.all : List WordRegister := [af, bc, de, hl, sp, pc]

def InterruptMode.savedName : InterruptMode → String
  | mode0 => "Mode0"
  | mode1 => "Mode1"
  | mode2 => "Mode2"

def InterruptSource.savedName : InterruptSource → String
  | nmi => "Nmi"
  | maskable mode => mode.savedName

def InterruptSource.all : List InterruptSource := nmi :: InterruptMode.table.map maskable

def FaultClass.savedName : FaultClass → String
  | decode => "Decode"
  | bus => "Bus"

namespace Saved

instance : Saved ByteRegister := ofNames ByteRegister.name ByteRegister.all

instance : Saved WordRegister := ofNames WordRegister.name WordRegister.all

instance : Saved InterruptMode := ofNames InterruptMode.savedName InterruptMode.table

instance : Saved InterruptSource := ofNames InterruptSource.savedName InterruptSource.all

instance : Saved FaultClass := ofNames FaultClass.savedName [.decode, .bus]

end Saved

end Z80
