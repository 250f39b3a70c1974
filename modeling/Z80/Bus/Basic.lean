import Z80.Text.Hex

/-!
# Buses

A bus answers three kinds of access: it reads a byte, it writes a byte, and it answers an interrupt
acknowledge cycle with a byte. Each access may fail and may change the bus, whether it fails or not.
Words cross the bus as two byte accesses, the low byte at the lower address first.
-/

namespace Z80

/-- Why a bus did not complete an access. -/
inductive BusError where
  /-- Nothing answers at the address. -/
  | unmapped (address : Word)
  /-- A write to storage that cannot be written. -/
  | readOnly (address : Word)
  /-- A device failed for a reason of its own. -/
  | device (address : Word) (reason : String)
  /-- Nothing answered an acknowledge cycle. -/
  | noAcknowledge
  deriving DecidableEq, Repr

namespace BusError

/-- The address that was accessed, if the failure has one. -/
def address? : BusError → Option Word
  | unmapped address | readOnly address | device address _ => some address
  | noAcknowledge => none

def message : BusError → String
  | unmapped address => "no device mapped at " ++ Hex.word address
  | readOnly address => "write to read-only address " ++ Hex.word address
  | device address reason => "device at " ++ Hex.word address ++ " failed: " ++ reason
  | noAcknowledge => "interrupt acknowledge cycle was not answered"

end BusError

/-- What can be attached to a processor. Every access gives its answer and the bus afterwards. -/
class Bus (β : Type) where
  read : β → Word → Except BusError Byte × β
  write : β → Word → Byte → Except BusError Unit × β
  acknowledge : β → Except BusError Byte × β

/-- What is asked of a bus. -/
inductive Request where
  | read (address : Word)
  | write (address : Word) (value : Byte)
  | acknowledge
  deriving DecidableEq, Repr

/-- One access as it was met on the bus: completed, with the byte that was moved, or failed. -/
inductive Access where
  | read (address : Word) (value : Byte)
  | write (address : Word) (value : Byte)
  | acknowledge (value : Byte)
  | failed (request : Request) (error : BusError)
  deriving DecidableEq, Repr

/-- What was asked for. -/
def Access.request : Access → Request
  | .read address _ => .read address
  | .write address value => .write address value
  | .acknowledge _ => .acknowledge
  | .failed request _ => request

/-- The failure of an access that failed. -/
def Access.error? : Access → Option BusError
  | .failed _ error => some error
  | _ => none

end Z80
