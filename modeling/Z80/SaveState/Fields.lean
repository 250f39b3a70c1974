import Z80.SaveState.Name

/-!
# Saved fields

The things that are saved field by field: the register bank, a configuration, bus errors and events.
-/

namespace Z80.Saved

def saveShadow (s : ShadowPairs) : Value := .list [save s.af, save s.bc, save s.de, save s.hl]

/-- Restores the shadow pairs from a list of exactly four words. -/
def restoreShadow (v : Value) : Option ShadowPairs := do
  match ← v.list? with
  | [af, bc, de, hl] =>
    return { af := ← restore af, bc := ← restore bc, de := ← restore de, hl := ← restore hl }
  | _ => none

instance : Saved ShadowPairs where
  save := saveShadow
  restore := restoreShadow

/-- The fields of a saved register bank, in their order. -/
def registerNames : List String :=
  ["af", "bc", "de", "hl", "shadow", "pc", "sp", "i", "iff1", "iff2", "nmi_pending", "int_pending",
    "ei_executed", "halted"]

def saveRegisters (r : Registers) : Value :=
  .fields (registerNames.zip
    [save r.af, save r.bc, save r.de, save r.hl, save r.shadow, save r.pc, save r.sp, save r.i,
      save r.iff1, save r.iff2, save r.nmiPending, save r.intPending, save r.eiExecuted,
      save r.halted])

/-- Reads a register bank from its members, all of which have to be there. -/
def restoreRegisters (v : Value) : Option Registers := do
  match ← v.members? registerNames with
  | [af, bc, de, hl, shadow, pc, sp, i, iff1, iff2, nmiPending, intPending, eiExecuted, halted] =>
    return {
      af := ← restore af
      bc := ← restore bc
      de := ← restore de
      hl := ← restore hl
      shadow := ← restore shadow
      pc := ← restore pc
      sp := ← restore sp
      i := ← restore i
      iff1 := ← restore iff1
      iff2 := ← restore iff2
      nmiPending := ← restore nmiPending
      intPending := ← restore intPending
      eiExecuted := ← restore eiExecuted
      halted := ← restore halted }
  | _ => none

instance : Saved Registers where
  save := saveRegisters
  restore := restoreRegisters

instance : Saved Config where
  save c :=
    .fields [("tracing_enabled", save c.tracing), ("reset_interrupt_mode", save c.resetMode)]
  restore v := do
    match ← v.members? ["tracing_enabled", "reset_interrupt_mode"] with
    | [tracing, mode] => return { tracing := ← restore tracing, resetMode := ← restore mode }
    | _ => none

def saveBusError : BusError → Value
  | .unmapped address => .ofCase "Unmapped" [("addr", save address)]
  | .readOnly address => .ofCase "ReadOnly" [("addr", save address)]
  | .device address reason => .ofCase "Device" [("addr", save address), ("reason", save reason)]
  | .noAcknowledge => .text "NoAcknowledge"

/-- Reads a bus error from the case it is written as. -/
def restoreBusError (v : Value) : Option BusError := do
  match ← v.case? with
  | ("Unmapped", content) =>
    match ← content.select? ["addr"] with
    | [address] => return .unmapped (← restore address)
    | _ => none
  | ("ReadOnly", content) =>
    match ← content.select? ["addr"] with
    | [address] => return .readOnly (← restore address)
    | _ => none
  | ("Device", content) =>
    match ← content.select? ["addr", "reason"] with
    | [address, reason] => return .device (← restore address) (← restore reason)
    | _ => none
  | ("NoAcknowledge", .null) => return .noAcknowledge
  | _ => none

instance : Saved BusError where
  save := saveBusError
  restore := restoreBusError

def saveEvent : Event → Value
  | .instructionStart pc opcode =>
    .ofCase "InstructionStart" [("pc", save pc), ("opcode", save opcode)]
  | .instructionRetired pc cycles =>
    .ofCase "InstructionRetired" [("pc", save pc), ("cycles", save cycles)]
  | .interruptAccepted source vector =>
    .ofCase "InterruptAccepted" [("source", save source), ("vector", save vector)]
  | .reset => .text "Reset"
  | .faultRaised pc kind => .ofCase "FaultRaised" [("pc", save pc), ("fault_class", save kind)]

/-- Reads an event from the case it is written as. -/
def restoreEvent (v : Value) : Option Event := do
  match ← v.case? with
  | ("InstructionStart", content) =>
    match ← content.select? ["pc", "opcode"] with
    | [pc, opcode] => return .instructionStart (← restore pc) (← restore opcode)
    | _ => none
  | ("InstructionRetired", content) =>
    match ← content.select? ["pc", "cycles"] with
    | [pc, cycles] => return .instructionRetired (← restore pc) (← restore cycles)
    | _ => none
  | ("InterruptAccepted", content) =>
    match ← content.select? ["source", "vector"] with
    | [source, vector] => return .interruptAccepted (← restore source) (← restore vector)
    | _ => none
  | ("Reset", .null) => return .reset
  | ("FaultRaised", content) =>
    match ← content.select? ["pc", "fault_class"] with
    | [pc, kind] => return .faultRaised (← restore pc) (← restore kind)
    | _ => none
  | _ => none

instance : Saved Event where
  save := saveEvent
  restore := restoreEvent

end Z80.Saved
