import Z80.Microprogram.Basic

/-!
# Supplied bytes

An interrupting device may supply an instruction whose operand bytes never were in memory. The
instruction is run as if it stood at some address, and every read in the range of its operand bytes
is answered with the bytes that were supplied, without an access on the bus.
-/

namespace Z80.Microprogram

variable {α : Type}

/-- The supplied byte for an address when the first one is for the address `first`. -/
def suppliedAt (first : Word) (bytes : List Byte) (address : Word) : Option Byte :=
  bytes[(address - first).toNat]?

/-- Answers reads from the supplied bytes where they reach and leaves the others to the bus. -/
def withSupplied (first : Word) (bytes : List Byte) : Microprogram α → Microprogram α
  | done value => done value
  | illegal now cause => illegal now cause
  | read now address next =>
    match suppliedAt first bytes address with
    | some value => (next value).withSupplied first bytes
    | none => read now address fun value => (next value).withSupplied first bytes
  | write now address value next => write now address value (next.withSupplied first bytes)
  | acknowledge now next => acknowledge now fun value => (next value).withSupplied first bytes
  | report r next => report r (next.withSupplied first bytes)

/-- Where nothing is supplied, everything is read from the bus. -/
@[simp] theorem withSupplied_nil (first : Word) (p : Microprogram α) :
    p.withSupplied first [] = p := by
  induction p with
  | done value => rfl
  | illegal now cause => rfl
  | read now address next ih => exact congrArg (read now address) (funext ih)
  | write now address value next ih => exact congrArg (write now address value) ih
  | acknowledge now next ih => exact congrArg (acknowledge now) (funext ih)
  | report r next ih => exact congrArg (report r) ih

/-- What holds for all that the bus can answer holds also when some of it is supplied. -/
theorem Yields.withSupplied {P : α → Prop} {p : Microprogram α} (hp : p.Yields P) (first : Word)
    (bytes : List Byte) : (p.withSupplied first bytes).Yields P := by
  induction p with
  | done value => exact hp
  | illegal now cause => exact trivial
  | read now address next ih =>
    unfold Microprogram.withSupplied
    split
    case h_1 value _ => exact ih value (hp value)
    case h_2 => exact fun value => ih value (hp value)
  | write now address value next ih => exact ih hp
  | acknowledge now next ih => exact fun value => ih value (hp value)
  | report r next ih => exact ih hp

/-- A microprogram that is supplied with bytes stops short nowhere else. -/
theorem Stops.withSupplied {P : Registers → Option Request → Prop} {p : Microprogram α}
    (hp : p.Stops P) (first : Word) (bytes : List Byte) :
    (p.withSupplied first bytes).Stops P := by
  induction p with
  | done value => exact trivial
  | illegal now cause => exact hp
  | read now address next ih =>
    unfold Microprogram.withSupplied
    split
    case h_1 value _ => exact ih value (hp.2 value)
    case h_2 => exact ⟨hp.1, fun value => ih value (hp.2 value)⟩
  | write now address value next ih => exact ⟨hp.1, ih hp.2⟩
  | acknowledge now next ih => exact ⟨hp.1, fun value => ih value (hp.2 value)⟩
  | report r next ih => exact ih hp

end Z80.Microprogram
