import Z80.Memory.Change
import Z80.Bus.Ram
import Z80.Bus.Scripted
import Z80.Interrupt.Pool
import Z80.Processor.Run
import Z80.SaveState.Fields
import Z80.Proofs.Processor.Atomicity
import Z80.Proofs.Execution.Abort
import Z80.Proofs.Bus.Success
import Z80.Proofs.Execution.Phases
import Z80.Proofs.Memory.Load
import Z80.Proofs.Microprogram.Completion
import Z80.Proofs.Execution.FlipFlop
import Z80.Proofs.Processor.Course
import Z80.Proofs.Session.Basic
import Z80.Proofs.Session.Nmi
import Z80.Proofs.Session.Shadow
import Z80.Proofs.Microprogram.Placed
import Z80.Proofs.Processor.Supplied
import Z80.Proofs.Microprogram.Footprint
import Z80.Proofs.Processor.Footprint
import Z80.Proofs.Microprogram.Failure
import Z80.Proofs.Processor.Propagation
import Z80.Proofs.Run.Account
import Z80.Proofs.Run.Slices
import Z80.Proofs.Processor.Lockstep
import Z80.Proofs.Processor.Reset
import Z80.Proofs.Session.FlipFlop
import Z80.Proofs.Flag.Bit
import Z80.Proofs.Flag.Exact
import Z80.Proofs.Flag.Carry
import Z80.Proofs.Execution.CarryChain
import Z80.Proofs.Execution.RotateChain
import Z80.Proofs.Execution.Exchange
import Z80.Proofs.Execution.Essential
import Z80.Proofs.Processor.Essential
import Z80.Proofs.Memory.Image
import Z80.Proofs.Microprogram.Storage
import Z80.Proofs.Execution.Stack
import Z80.Proofs.Run.Storage
import Z80.Proofs.Microprogram.Reports
import Z80.Proofs.Execution.Mute
import Z80.Proofs.Processor.Events
import Z80.Proofs.Microprogram.Stores
import Z80.Proofs.Execution.Stores
import Z80.Proofs.Processor.MemoryFaults
import Z80.Proofs.Flag.Table
import Z80.Proofs.Microprogram.Checked
import Z80.Proofs.Instruction.Checked
import Z80.Proofs.Execution.Checked
import Z80.Proofs.Processor.Checked
import Z80.Proofs.SaveState.RoundTrip
import Z80.Proofs.Processor.SuppliedLoads
import Z80.Proofs.Flag.States
import Z80.Proofs.Flag.Outcome
import Z80.Proofs.Execution.Arithmetic
import Z80.Proofs.Microprogram.Concludes
import Z80.Proofs.Execution.Transfer
import Z80.Proofs.Processor.Handler
import Z80.Proofs.Microprogram.Asks
import Z80.Proofs.Processor.StoresLast
import Z80.Proofs.Bus.Steady
import Z80.Proofs.Bus.Transient
import Z80.Proofs.Processor.Restart
import Z80.Proofs.Processor.TornExchange
import Z80.Proofs.Processor.TornStore
import Z80.Proofs.Flag.Layers
import Z80.Proofs.Execution.Frame
import Z80.Proofs.Execution.Load
import Z80.Proofs.Processor.Wake
import Z80.Proofs.Session.Halt
import Z80.Proofs.Processor.Mode
import Z80.Proofs.Session.Mode
import Z80.Proofs.Bus.ByteMap
import Z80.Proofs.Register.Cells
import Z80.Proofs.Interrupt.History
import Z80.Proofs.Interrupt.Family
import Z80.Proofs.Session.Drivers
