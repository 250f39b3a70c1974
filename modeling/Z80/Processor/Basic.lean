import Z80.Interrupt.Line
import Z80.Register.Bank
import Z80.Trace

/-!
# The processor

A processor is its registers, its interrupt mode, the inputs it looks at, a count of the clock cycles
it was charged, its configuration, and the bus it is attached to.
-/

namespace Z80

/-- What is chosen when a processor is made. -/
structure Config where
  tracing : Bool := false
  /-- The interrupt mode after power-on and after every reset. -/
  resetMode : InterruptMode := .mode0
  deriving DecidableEq, Repr

/-- A processor with the bus it is attached to. -/
structure Processor (β : Type) where
  registers : Registers
  mode : InterruptMode
  lines : Lines
  cycles : Nat
  config : Config
  bus : β
  deriving DecidableEq, Repr

namespace Processor

variable {β : Type}

/-- A processor after power-on. -/
def withConfig (bus : β) (config : Config) : Processor β where
  registers := {}
  mode := config.resetMode
  lines := {}
  cycles := 0
  config := config
  bus := bus

/-- A processor after power-on, in the usual configuration. -/
def new (bus : β) : Processor β := withConfig bus {}

def drive (p : Processor β) (call : LineCall) : Processor β :=
  { p with lines := p.lines.apply call }

def resetCycles (p : Processor β) : Processor β := { p with cycles := 0 }

/-- What is written to the log when the interrupt mode becomes the given one: nothing if it was that
one before. -/
def modeRecords (old new : InterruptMode) : List Record :=
  if new = old then [] else [.modeSelected new]

/-- Selects an interrupt mode from outside. The log tells it if it is another one. -/
def selectMode (p : Processor β) (mode : InterruptMode) : Processor β × Trace :=
  ({ p with mode }, (modeRecords p.mode mode).map fun r => .report (.record r))

/-- Begins anew: the registers and the mode of power-on, the rise of the non-maskable interrupt line
forgotten, the level of the maskable one sampled, and no reset requested any more. The count of
cycles goes on. -/
def reset (p : Processor β) : Processor β × Trace :=
  ({ p with
      registers := .reset p.lines.intLevel
      mode := p.config.resetMode
      lines := p.lines.takeReset.takeNmiEdge },
    [.report (.record .reset)])

end Processor

end Z80
