import Z80.Proofs.Execution.Stack
import Z80.Proofs.Execution.Transfer
import Z80.Proofs.Processor.MemoryFaults

/-!
# Interrupt handlers

On memory without a read-only region, a step that accepts an interrupt and calls a handler leaves the
interrupted address on the stack and changes nothing else in memory (`Processor.EntersHandler`).
However the handler got there, where the stack pointer stands as it did and the two cells are intact,
a return leads back (`Processor.GoesBack`).

Main statement: entry and return are inverse (`Processor.handler_returns`). In between IFF2 alone
decides what becomes of IFF1: the entry of a non-maskable interrupt leaves IFF2 alone, and that of a
maskable one clears both.
-/

namespace Z80

open Microprogram

namespace Ram

/-- Memory when a word has been pushed. -/
def pushed (m : Ram) (sp value : Word) : Ram :=
  { m with memory := (m.memory.set (sp - 2) value.low).set (sp - 2 + 1) value.high }

variable (m : Ram) (sp value address : Word)

/-- A word that was pushed is found on the stack, and memory holds the same everywhere else. -/
lemma peek_pushed :
    (m.pushed sp value).peek address =
      if address = sp - 2 + 1 then value.high
      else if address = sp - 2 then value.low else m.peek address := by
  rw [pushed, peek_set { m with memory := m.memory.set (sp - 2) value.low }, peek_set]

end Ram

/-- On memory without a read-only region a call completes, and stores the program counter under the
stack. -/
lemma Registers.completes_callTo {m : Ram} (unguarded : m.romSize = 0) (r : Registers)
    (target : Word) :
    (r.callTo target).Completes m { r with sp := r.sp - 2, pc := target } (m.pushed r.sp r.pc)
      [.access (.write (r.sp - 2) r.pc.low), .access (.write (r.sp - 2 + 1) r.pc.high)] := by
  have free := Ram.write_unguarded unguarded
  exact Completes.write (free _ r.pc.low m.memory) (.write (free _ r.pc.high _) rfl)

/-- When the answer to a maskable interrupt is a call, the interrupt is accepted with it. -/
lemma Registers.completes_acceptInt {m : Ram} (unguarded : m.romSize = 0) {r : Registers}
    {mode : InterruptMode} {data : Byte} {vector : Word} {cycles : Nat}
    (answer : m.acknowledge = some data)
    (calls : { r.withInterruptsEnabled false with halted := false }.answerInt mode data =
      ({ r.withInterruptsEnabled false with halted := false }.callTo vector).bind
        fun entered => .done (entered, mode, cycles)) :
    ∃ t, (r.acceptInt mode).Completes m
      ⟨{ r with
          pc := vector
          sp := r.sp - 2
          iff1 := false
          iff2 := false
          halted := false }, mode, .interrupted (.maskable mode) cycles⟩ (m.pushed r.sp r.pc) t := by
  have called := { r.withInterruptsEnabled false with halted := false }.completes_callTo unguarded
    vector
  have answered := called.bind (f := fun entered => .done (entered, mode, cycles)) rfl
  rw [← calls] at answered
  have entered : (r.enterMaskable mode).Completes m _ _ _ :=
    Completes.acknowledge (Ram.acknowledge_of_some answer) answered
  exact ⟨_, (entered.onAbort fun _ => r).bind (.report (.report rfl))⟩

/-- A word that stands on top of the stack is taken. -/
lemma Registers.completes_pop {m : Ram} {r : Registers} {value : Word}
    (low : m.peek r.sp = value.low) (high : m.peek (r.sp + 1) = value.high) :
    r.pop.Completes m (value, { r with sp := r.sp + 2 }) m
      [.access (.read r.sp value.low), .access (.read (r.sp + 1) value.high)] := by
  show (Microprogram.read r r.sp fun low => .read r (r.sp + 1) fun high =>
    .done (Word.ofHalves high low, { r with sp := r.sp + 2 })).Completes ..
  have readLow : Bus.read m r.sp = (.ok value.low, m) :=
    congrArg (fun byte => (Except.ok byte, m)) low
  have readHigh : Bus.read m (r.sp + 1) = (.ok value.high, m) :=
    congrArg (fun byte => (Except.ok byte, m)) high
  apply Completes.read readLow
  apply Completes.read readHigh
  rw [Word.ofHalves_high_low]
  rfl

/-- An instruction that asks nothing more of the processor is fetched and run on memory like it is
executed there. -/
lemma Registers.completes_fetchExecute {m after : Ram} {r : Registers} {i : Instruction}
    {done : Retirement} {t : Trace} (stands : m.instructionAt r.pc = i)
    (executes : (i.execute r).Completes m done after t) (plain : done.effect = .none)
    (mode : InterruptMode) :
    ∃ t', (r.fetchExecute mode).Completes m ⟨done.registers, mode, .retired done.cycles⟩ after t' := by
  obtain ⟨t₁, decoded⟩ := m.completes_decodeRest r r.pc
  rw [stands] at decoded
  have settled : (done.settle mode).Completes after mode after [] := by
    rw [Retirement.settle, plain]
    rfl
  have retired : ((done.settle mode).bind fun selected =>
      (tell (.event (.instructionRetired r.pc (.ofNat done.cycles)))).bind fun _ =>
        .done (Advance.mk done.registers selected (.retired done.cycles))).Completes after
      ⟨done.registers, mode, .retired done.cycles⟩ after _ := settled.bind (.tell_bind rfl)
  exact ⟨_, Completes.read rfl (.tell_bind (Completes.bind decoded
    (.tell_bind (executes.bind retired))))⟩

/-- The registers back where an interrupt came, as they are but for IFF1. -/
def Registers.backTo (r origin : Registers) (iff1 : Bool) : Registers :=
  { r with pc := origin.pc, sp := origin.sp, iff1 }

namespace Processor

/-- Where the handler of an interrupt stands: at a fixed address, or at the one that the interrupt
vector base and the byte of the device make up. -/
inductive Vectors (p : Processor Ram) : InterruptSource → Word → Prop where
  | nmi : Vectors p .nmi 0x0066
  | mode1 : Vectors p (.maskable .mode1) 0x0038
  | mode2 (data : Byte) (answer : p.bus.acknowledge = some data) :
      Vectors p (.maskable .mode2) (.ofHalves p.registers.i data)

/-- The step has gone to the handler. It has stored the interrupted address under the stack, its low
byte first, and nothing else. IFF1 is clear, and IFF2 too unless the interrupt was not maskable. -/
structure EntersHandler (p : Processor Ram) (source : InterruptSource) (vector : Word) : Prop where
  registers : p.step.processor.registers =
    { p.sampled.registers with
      pc := vector
      sp := p.registers.sp - 2
      iff1 := false
      iff2 := source == .nmi && p.registers.iff2
      nmiPending := false
      halted := false }
  low : p.step.processor.bus.peek (p.registers.sp - 2) = p.registers.pc.low
  high : p.step.processor.bus.peek (p.registers.sp - 1) = p.registers.pc.high
  elsewhere : ∀ address, address ≠ p.registers.sp - 2 → address ≠ p.registers.sp - 1 →
    p.step.processor.bus.peek address = p.bus.peek address

/-- The processor stands with its stack as it was when a handler was entered, whatever has become of
the rest. -/
structure KeepsReturn (q entered : Processor Ram) : Prop where
  sp : q.registers.sp = entered.registers.sp
  low : q.bus.peek entered.registers.sp = entered.bus.peek entered.registers.sp
  high : q.bus.peek (entered.registers.sp + 1) = entered.bus.peek (entered.registers.sp + 1)

/-- The instruction leads from the processor back to where an interrupt came, with this in IFF1. It
does so when it is executed, and when it is what the next step fetches. -/
structure GoesBack (q : Processor Ram) (origin : Registers) (i : Instruction)
    (iff1 : Bool) : Prop where
  execute : ∃ t, (i.execute q.registers).Completes q.bus
    ⟨q.registers.backTo origin iff1, i.cycles true, .none⟩ q.bus t
  step : q.fetches = true → q.bus.instructionAt q.registers.pc = i →
    q.step.result = .ok (.retired (i.cycles true)) ∧ q.step.processor.bus = q.bus ∧
      q.step.processor.registers =
        { q.sampled.registers.backTo origin iff1 with eiExecuted := false }

variable {p : Processor Ram} {source : InterruptSource} {vector : Word}

/-- A call that was made as the answer to an interrupt has entered the handler. -/
lemma EntersHandler.of_attempt {cycles : Nat} {t : Trace} (unasked : p.lines.resetRequested = false)
    (attempt : p.attempt =
      ⟨.ok ⟨{ p.sampled.registers with
          pc := vector
          sp := p.registers.sp - 2
          iff1 := false
          iff2 := source == .nmi && p.registers.iff2
          nmiPending := false
          halted := false }, p.mode, .interrupted source cycles⟩,
        p.bus.pushed p.registers.sp p.registers.pc, t⟩) :
    p.EntersHandler source vector := by
  have step := step_of_ok unasked (congrArg Completion.ending attempt)
  have memory : p.step.processor.bus = p.bus.pushed p.registers.sp p.registers.pc := by
    rw [step, attempt]
  constructor
  · rw [step]
  · rw [memory, Ram.peek_pushed, if_neg (Word.ne_add_one _), if_pos rfl]
  · rw [memory, Ram.peek_pushed, Word.sub_two_add_one, if_pos rfl]
  · intro address notLow notHigh
    rw [memory, Ram.peek_pushed, Word.sub_two_add_one, if_neg notHigh, if_neg notLow]

/-- A non-maskable interrupt that is pending enters its handler, if no memory is read-only. -/
lemma enters_nmi (unguarded : p.bus.romSize = 0) (unasked : p.lines.resetRequested = false)
    (pending : p.sampled.registers.nmiPending = true) : p.EntersHandler .nmi 0x0066 := by
  have called := p.sampled.registers.completes_callTo unguarded nmiVector
  apply EntersHandler.of_attempt unasked
  rw [attempt, Registers.advance_of_nmiPending pending]
  exact called.bind (.report (.report rfl))

/-- In modes 1 and 2 an interrupt that is accepted, with a byte on the bus, is answered with a call. -/
lemma enters_maskable {data : Byte} (unguarded : p.bus.romSize = 0) (answers : p.answersInt = true)
    (answer : p.bus.acknowledge = some data) (vectored : p.mode ≠ .mode0) :
    ∃ vector, p.Vectors (.maskable p.mode) vector ∧ p.EntersHandler (.maskable p.mode) vector := by
  obtain ⟨unasked, quiet, accepts⟩ := answersInt_iff.mp answers
  -- In both modes the answer is a call, and only its target differs.
  have enters : ∀ {vector cycles}, { p.sampled.registers.withInterruptsEnabled false with
      halted := false }.answerInt p.mode data =
        ({ p.sampled.registers.withInterruptsEnabled false with halted := false }.callTo vector).bind
          (fun entered => .done (entered, p.mode, cycles)) →
      p.EntersHandler (.maskable p.mode) vector := by
    intro vector cycles calls
    obtain ⟨t, accepted⟩ := Registers.completes_acceptInt unguarded answer calls
    rw [quiet] at accepted
    apply EntersHandler.of_attempt unasked
    rw [attempt, Registers.advance_of_acceptsInt quiet accepts]
    exact accepted
  cases mode : p.mode with
  | mode0 => exact absurd mode vectored
  | mode1 =>
    rw [mode] at enters
    exact ⟨_, .mode1, enters rfl⟩
  | mode2 =>
    rw [mode] at enters
    exact ⟨_, .mode2 data answer, enters rfl⟩

/-- A step that accepts an interrupt and calls its handler enters it. -/
lemma enters_of_interrupted {cycles : Nat} (unguarded : p.bus.romSize = 0)
    (called : source ≠ .maskable .mode0) (accepted : p.step.result = .ok (.interrupted source cycles)) :
    ∃ vector, p.Vectors source vector ∧ p.EntersHandler source vector := by
  obtain asked | ⟨unasked, ⟨a, ha⟩ | ⟨abort, ha⟩⟩ := p.step_cases
  · rw [step_of_reset asked] at accepted
    cases accepted
  · have course := step_course unasked ha
    rw [step_of_ok unasked ha] at accepted
    have outcome : a.outcome = .interrupted source cycles := Except.ok.inj accepted
    cases course with
    | nmi pending kind =>
      rw [kind] at outcome
      cases outcome
      exact ⟨_, .nmi, enters_nmi unguarded unasked pending⟩
    | called quiet accepts vectored _ kind =>
      rw [kind] at outcome
      cases outcome
      have answers := answersInt_iff.mpr ⟨unasked, quiet, accepts⟩
      cases answer : p.bus.acknowledge with
      | none =>
        -- Without a byte on the bus the step would have faulted.
        have silent := fault_silent answers answer
        rw [Completion.fault?, ha] at silent
        cases silent
      | some data => exact enters_maskable unguarded answers answer vectored
    | supplied _ _ mode0 _ kind =>
      rw [kind] at outcome
      cases outcome
      exact absurd rfl called
    | idle _ _ _ kind =>
      rw [kind] at outcome
      cases outcome
    | fetched _ _ _ _ kind =>
      rw [kind] at outcome
      cases outcome
  · rw [step_of_error unasked ha] at accepted
    cases accepted

/-- What an instruction does that the next step fetches, if it completes and asks nothing more of the
processor. -/
lemma step_of_fetches {q : Processor Ram} {i : Instruction} {done : Retirement} {after : Ram}
    {t : Trace} (fetches : q.fetches = true) (stands : q.bus.instructionAt q.registers.pc = i)
    (executes : (i.execute { q.sampled.registers with eiExecuted := false }).Completes q.bus done after t)
    (plain : done.effect = .none) :
    q.step.result = .ok (.retired done.cycles) ∧ q.step.processor.bus = after ∧
      q.step.processor.registers = done.registers := by
  obtain ⟨unasked, quiet, rejects, running⟩ := fetches_iff.mp fetches
  obtain ⟨t', fetched⟩ := Registers.completes_fetchExecute
    (r := { q.sampled.registers with eiExecuted := false }) stands executes plain q.mode
  have attempt : q.attempt = ⟨.ok ⟨done.registers, q.mode, .retired done.cycles⟩, after, t'⟩ := by
    rw [Processor.attempt, Registers.advance_of_running quiet rejects running]
    exact fetched.onAbort _
  rw [step_of_ok unasked (congrArg Completion.ending attempt), attempt]
  exact ⟨rfl, rfl, rfl⟩

variable {q : Processor Ram} {origin : Registers}

/-- What the execution of an instruction makes of all registers with this stack pointer, the next step
makes of the registers it has sampled. -/
lemma GoesBack.of_execute {i : Instruction} (iff1 : Registers → Bool)
    (execute : ∀ r : Registers, r.sp = q.registers.sp → ∃ t, (i.execute r).Completes q.bus
      ⟨r.backTo origin (iff1 r), i.cycles true, .none⟩ q.bus t)
    (kept : iff1 { q.sampled.registers with eiExecuted := false } = iff1 q.registers) :
    q.GoesBack origin i (iff1 q.registers) := by
  refine ⟨execute q.registers rfl, ?_⟩
  intro fetches stands
  obtain ⟨t, executes⟩ := execute { q.sampled.registers with eiExecuted := false } rfl
  rw [kept] at executes
  exact step_of_fetches fetches stands executes rfl

/-- Where the interrupted address stands on top of the stack, and the stack ended under it, the three
returns lead back. -/
lemma goesBack (low : q.bus.peek q.registers.sp = origin.pc.low)
    (high : q.bus.peek (q.registers.sp + 1) = origin.pc.high)
    (sp : q.registers.sp + 2 = origin.sp) :
    q.GoesBack origin .retn q.registers.iff2 ∧ q.GoesBack origin .reti q.registers.iff2 ∧
      q.GoesBack origin (.ret none) q.registers.iff1 := by
  have popped : ∀ r : Registers, r.sp = q.registers.sp →
      ∃ t, r.pop.Completes q.bus (origin.pc, { r with sp := origin.sp }) q.bus t := by
    intro r same
    rw [← same] at low high sp
    rw [← sp]
    exact ⟨_, Registers.completes_pop low high⟩
  -- Each of the returns is a pop, and they differ in IFF1 alone.
  refine ⟨?_, ?_, ?_⟩
  · apply GoesBack.of_execute Registers.iff2 ?_ rfl
    intro r same
    obtain ⟨t, taken⟩ := popped r same
    exact ⟨_, Completes.bind (Completes.bind taken rfl) rfl⟩
  · apply GoesBack.of_execute Registers.iff2 ?_ rfl
    intro r same
    obtain ⟨t, taken⟩ := popped r same
    exact ⟨_, Completes.bind (Completes.bind taken rfl) rfl⟩
  · apply GoesBack.of_execute Registers.iff1 ?_ rfl
    intro r same
    obtain ⟨t, taken⟩ := popped r same
    exact ⟨_, Completes.bind (Completes.bind taken rfl) rfl⟩

/-- Entry and return are inverse. A step that accepts an interrupt and calls its handler goes to the
handler's address and stores the interrupted one, and nothing else. Whatever comes between, where the
stack pointer stands as it did then and the two cells of the stack are intact, each of the three returns
leads back, RETN and RETI with IFF2 in IFF1 and RET with both as they are. So when IFF2 was left alone
in the handler of a non-maskable interrupt, RETN puts into IFF1 what IFF2 was when the interrupt came. -/
theorem handler_returns {p : Processor Ram} {source : InterruptSource} {cycles : Nat}
    (unguarded : p.bus.romSize = 0) (called : source ≠ .maskable .mode0)
    (accepted : p.step.result = .ok (.interrupted source cycles)) :
    (∃ vector, p.Vectors source vector ∧ p.EntersHandler source vector) ∧
      ∀ q : Processor Ram, q.KeepsReturn p.step.processor →
        q.GoesBack p.registers .retn q.registers.iff2 ∧
        q.GoesBack p.registers .reti q.registers.iff2 ∧
        q.GoesBack p.registers (.ret none) q.registers.iff1 ∧
        (source = .nmi → q.registers.iff2 = p.step.processor.registers.iff2 →
          q.GoesBack p.registers .retn p.registers.iff2) := by
  obtain ⟨vector, vectors, enters⟩ := enters_of_interrupted unguarded called accepted
  refine ⟨⟨vector, vectors, enters⟩, ?_⟩
  intro q kept
  have top : p.step.processor.registers.sp = p.registers.sp - 2 := by rw [enters.registers]
  have low : q.bus.peek q.registers.sp = p.registers.pc.low := by
    rw [kept.sp, kept.low, top, enters.low]
  have high : q.bus.peek (q.registers.sp + 1) = p.registers.pc.high := by
    rw [kept.sp, kept.high, top, Word.sub_two_add_one, enters.high]
  have sp : q.registers.sp + 2 = p.registers.sp := by
    rw [kept.sp, top, UInt16.sub_add_cancel]
  obtain ⟨retn, reti, ret⟩ := goesBack low high sp
  refine ⟨retn, reti, ret, ?_⟩
  -- A non-maskable interrupt leaves in IFF2 what was there when it came.
  rintro rfl same
  have restored : q.registers.iff2 = p.registers.iff2 := by
    rw [same, enters.registers]
    rfl
  rw [← restored]
  exact retn

/-- A processor that is halted, interrupts enabled, with its stack at the beginning of memory. The
non-maskable interrupt line has risen, and its handler is a RETN. -/
def wokenByNmi : Processor Ram where
  registers := { pc := 0x1234, sp := 1, iff1 := true, iff2 := true, halted := true }
  mode := .mode0
  lines := { nmiEdge := true }
  cycles := 0
  config := {}
  bus := ({} : Ram).load 0x0066 [0xED, 0x45]

/-- The next two steps enter the handler and leave it, with interrupts enabled again. -/
theorem handler_returns_wokenByNmi :
    wokenByNmi.step.result = .ok (.interrupted .nmi 11) ∧
      wokenByNmi.EntersHandler .nmi 0x0066 ∧
      wokenByNmi.step.processor.step.processor.registers =
        { pc := 0x1234, sp := 1, iff1 := true, iff2 := true } := by
  have accepted : wokenByNmi.step.result = .ok (.interrupted .nmi 11) := by decide +kernel
  have called : InterruptSource.nmi ≠ .maskable .mode0 := nofun
  obtain ⟨⟨vector, vectors, enters⟩, back⟩ := handler_returns rfl called accepted
  obtain ⟨-, -, -, again⟩ := back wokenByNmi.step.processor ⟨rfl, rfl, rfl⟩
  obtain ⟨-, -, left⟩ := (again rfl rfl).step (by decide +kernel) (by decide +kernel)
  cases vectors
  exact ⟨accepted, enters, left⟩

end Processor

end Z80
