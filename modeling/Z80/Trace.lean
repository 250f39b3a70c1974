import Z80.Fault
import Z80.Instruction.Text

/-!
# Traces

What can be seen of a processor while it works, in order: the accesses it makes on the bus, the
events it reports to whoever follows its execution, and the records it writes to its log.
-/

namespace Z80

/-- A milestone of execution. -/
inductive Event where
  /-- The first byte of an instruction was read. -/
  | instructionStart (pc : Word) (opcode : Byte)
  /-- The instruction at an address was completed. -/
  | instructionRetired (pc : Word) (cycles : UInt32)
  /-- An interrupt was accepted and the processor went to its handler. -/
  | interruptAccepted (source : InterruptSource) (vector : Word)
  | reset
  /-- The step that began at an address stopped short. -/
  | faultRaised (pc : Word) (kind : FaultClass)
  deriving DecidableEq, Repr

/-- How much a record of the log matters. -/
inductive Level where
  | trace
  | debug
  | warn
  deriving DecidableEq, Repr

/-- An entry of the log. -/
inductive Record where
  | decoded (pc : Word) (instruction : Instruction)
  | modeSelected (mode : InterruptMode)
  | halted (resume : Word)
  | reset
  | nmiAccepted
  | intAccepted (mode : InterruptMode) (handler : Word)
  | faulted (fault : Fault) (pc : Word)
  deriving DecidableEq, Repr

namespace Record

def level : Record → Level
  | decoded _ _ => .trace
  | faulted _ _ => .warn
  | _ => .debug

/-- The line that an entry is in the log. -/
def text : Record → String
  | decoded pc instruction => Hex.word pc ++ "  " ++ instruction.text
  | modeSelected mode => "interrupt mode " ++ toString mode.number
  | halted resume => "halted, resume at " ++ Hex.word resume
  | reset => "reset"
  | nmiAccepted => "NMI accepted"
  | intAccepted mode handler =>
    "INT accepted in mode " ++ toString mode.number ++ ", handler " ++ Hex.word handler
  | faulted fault pc => fault.message ++ " (step at " ++ Hex.word pc ++ ")"

end Record

/-- What a processor tells of itself. -/
inductive Report where
  | event (e : Event)
  | record (r : Record)
  deriving DecidableEq, Repr

/-- What can be seen of a processor from outside. -/
inductive Observation where
  | access (a : Access)
  | report (r : Report)
  deriving DecidableEq, Repr

namespace Observation

def access? : Observation → Option Access
  | access a => some a
  | report _ => none

def event? : Observation → Option Event
  | report (.event e) => some e
  | _ => none

def record? : Observation → Option Record
  | report (.record r) => some r
  | _ => none

end Observation

/-- What was seen, in the order in which it was seen. -/
abbrev Trace := List Observation

namespace Trace

def accesses (t : Trace) : List Access := t.filterMap Observation.access?

def events (t : Trace) : List Event := t.filterMap Observation.event?

def records (t : Trace) : List Record := t.filterMap Observation.record?

/-- No access is seen in an empty trace. -/
@[simp] theorem accesses_nil : Trace.accesses [] = [] := rfl

/-- An access that is seen counts as one. -/
@[simp] theorem accesses_access (a : Access) (t : Trace) :
    Trace.accesses (.access a :: t) = a :: t.accesses := rfl

/-- A report is no access. -/
@[simp] theorem accesses_report (r : Report) (t : Trace) :
    Trace.accesses (.report r :: t) = t.accesses := rfl

/-- The accesses of a trace come before those of the trace after it. -/
@[simp] theorem accesses_append (t u : Trace) :
    Trace.accesses (t ++ u) = t.accesses ++ u.accesses := List.filterMap_append

/-- The events of a trace come before those of the trace after it. -/
@[simp] theorem events_append (t u : Trace) :
    Trace.events (t ++ u) = t.events ++ u.events := List.filterMap_append

/-- The records of a trace come before those of the trace after it. -/
@[simp] theorem records_append (t u : Trace) :
    Trace.records (t ++ u) = t.records ++ u.records := List.filterMap_append

end Trace

end Z80
