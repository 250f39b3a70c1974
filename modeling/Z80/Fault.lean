import Z80.Bus.Basic

/-!
# Faults

Why a step of the processor stopped short: the opcode it met means nothing, or the bus did not
complete an access. A failure of the bus is passed on as it is.
-/

namespace Z80

/-- An opcode without a meaning, and the address of the first byte of its encoding. -/
structure IllegalOpcode where
  page : Option Byte
  opcode : Byte
  pc : Word
  deriving DecidableEq, Repr

/-- The text tells the page, if there is one, the opcode and its address. -/
def IllegalOpcode.message (c : IllegalOpcode) : String :=
  let opcode :=
    match c.page with
    | some page => Hex.byte page ++ " " ++ Hex.byte c.opcode
    | none => Hex.byte c.opcode
  "illegal opcode " ++ opcode ++ " at " ++ Hex.word c.pc

/-- Why a step stopped short. -/
inductive Fault where
  | illegal (cause : IllegalOpcode)
  | bus (error : BusError)
  deriving DecidableEq, Repr

/-- The two kinds of fault that an embedder tells apart. -/
inductive FaultClass where
  | decode
  | bus
  deriving DecidableEq, Repr

namespace Fault

def kind : Fault → FaultClass
  | illegal _ => .decode
  | bus _ => .bus

def message : Fault → String
  | illegal cause => cause.message
  | bus error => error.message

end Fault

end Z80
