import Z80.Proofs.Processor.Wake
import Z80.Proofs.Session.FlipFlop

/-!
# Halts over a session

A processor is halted since a step completed a `HALT`, and its program counter is held behind that
instruction (`Session.HaltedAt`). However long it idles from then on, with whatever is done to its
inputs and its bus meanwhile (`Session.IdlesTo`), nothing of it changes but the level of the interrupt
line that it samples, and the first interrupt that is let in wakes it with what it has held
(`Session.halt_idles`).
-/

namespace Z80

namespace Session

variable {β : Type} [Bus β]

/-- The processor is halted since a step that completed a `HALT`, with the program counter at the
address since then. -/
inductive HaltedAt : Session β → Word → Prop where
  /-- The `HALT` was fetched, and the program counter is behind it. -/
  | fetched {s : Session β} (attained : s.Attained)
      (result : s.processor.step.result = .ok (.retired 4))
      (seen : s.processor.step.trace.accesses = [.read s.processor.registers.pc 0x76]) :
      HaltedAt (s.act .step) (s.processor.registers.pc + 1)
  /-- The `HALT` was supplied by a device, and stands before the program counter. -/
  | supplied {s : Session β} (attained : s.Attained)
      (result : s.processor.step.result = .ok (.interrupted (.maskable .mode0) 6))
      (seen : s.processor.step.trace.accesses = [.acknowledge 0x76]) :
      HaltedAt (s.act .step) s.processor.registers.pc
  | pass {s : Session β} {pc : Word} (h : HaltedAt s pc) {a : Action β} (ha : a.Passes) :
      HaltedAt (s.act a) pc
  | idle {s : Session β} {pc : Word} (h : HaltedAt s pc)
      (result : s.processor.step.result = .ok (.halted 4)) : HaltedAt (s.act .step) pc
  /-- The entry of an interrupt has failed. -/
  | failed {s : Session β} {pc : Word} (h : HaltedAt s pc) (fault : Fault)
      (result : s.processor.step.result = .error fault) : HaltedAt (s.act .step) pc

/-- A step that leaves the processor halted has come upon a `HALT`, or found it halted. -/
lemma haltedAt_step {s : Session β} (attained : s.Attained)
    (before : s.processor.registers.halted = true → s.HaltedAt s.processor.registers.pc)
    (halted : (s.act .step).processor.registers.halted = true) :
    (s.act .step).HaltedAt (s.act .step).processor.registers.pc := by
  obtain ⟨result, seen, pc⟩ | ⟨result, seen, pc⟩ | ⟨was, result, pc⟩ | ⟨was, fault, result, pc⟩ :=
    Processor.halts halted
  · exact pc ▸ HaltedAt.fetched attained result seen
  · exact pc ▸ HaltedAt.supplied attained result seen
  · exact pc ▸ (before was).idle result
  · exact pc ▸ (before was).failed fault result

/-- A processor that is halted in a session is so since a `HALT`. -/
lemma Reached.haltedAt {s : Session β} (h : s.Reached Action.KeepsRegisters)
    (halted : s.processor.registers.halted = true) : s.HaltedAt s.processor.registers.pc := by
  induction h with
  | powerOn bus config => cases halted
  | @act s a hs ha ih =>
    cases a with
    | step => exact haltedAt_step hs.attained ih halted
    | reset => cases halted
    | edit change => exact ha.elim
    | drive _ _ | share _ | addFresh | selectMode _ | resetCycles | changeBus _ =>
      rw [registers_act s (by exact trivial)] at halted ⊢
      exact (ih halted).pass trivial

/-- From one session to another nothing is done but steps that nothing disturbs, and what leaves the
registers alone. The sessions are given in which the steps were taken. -/
inductive IdlesTo (s : Session β) : List (Session β) → Session β → Prop where
  | start : IdlesTo s [] s
  | pass {us : List (Session β)} {t : Session β} (h : IdlesTo s us t) {a : Action β}
      (ha : a.Passes) : IdlesTo s us (t.act a)
  | step {us : List (Session β)} {t : Session β} (h : IdlesTo s us t)
      (undisturbed : t.processor.Undisturbed) : IdlesTo s (us ++ [t]) (t.act .step)

section

variable {s t : Session β} {us : List (Session β)} (idle : s.IdlesTo us t)
  (halted : s.processor.registers.halted = true)
  (unshadowed : s.processor.registers.eiExecuted = false)

include idle halted unshadowed

/-- The registers are held, but for the level that was sampled last. -/
lemma IdlesTo.held :
    ∃ level, t.processor.registers = { s.processor.registers with intPending := level } := by
  induction idle with
  | start => exact ⟨s.processor.registers.intPending, rfl⟩
  | @pass us t h a ha ih =>
    obtain ⟨level, held⟩ := ih
    exact ⟨level, (t.registers_act ha).trans held⟩
  | @step us t h undisturbed ih =>
    obtain ⟨level, held⟩ := ih
    have idles := Processor.idles (by rw [held]; exact halted) (by rw [held]; exact unshadowed)
      undisturbed
    refine ⟨t.processor.lines.intLevel, idles.registers.trans ?_⟩
    rw [held]

/-- Each of the steps idles, with the registers held. -/
lemma IdlesTo.idles {u : Session β} (taken : u ∈ us) :
    u.processor.Idles ∧
      ∃ level, u.processor.registers = { s.processor.registers with intPending := level } := by
  induction idle with
  | start => cases taken
  | pass h ha ih => exact ih taken
  | @step us t h undisturbed ih =>
    obtain before | last := List.mem_append.mp taken
    · exact ih before
    · obtain rfl := List.mem_singleton.mp last
      obtain ⟨level, held⟩ := h.held halted unshadowed
      refine ⟨Processor.idles ?_ ?_ undisturbed, level, held⟩
      · rw [held]
        exact halted
      · rw [held]
        exact unshadowed

end

/-- A processor that is halted in a session, however the session went, is so since a `HALT`, with the
program counter behind it. In whatever number of steps that nothing disturbs, with anything done to the
inputs, the mode and the bus in between, each step costs four cycles, makes no access, and changes of
the registers only the level that it samples. The next step that is asked for no reset and lets an
interrupt in enters that interrupt with the registers that were held, or it stops short and the
processor stays halted where it is. -/
theorem halt_idles {s t : Session β} {us : List (Session β)} (attained : s.Attained)
    (halted : s.processor.registers.halted = true) (idle : s.IdlesTo us t) :
    s.HaltedAt s.processor.registers.pc ∧
      (∀ u ∈ us, u.processor.step.result = .ok (.halted 4) ∧
        u.processor.step.trace.accesses = [] ∧
        u.processor.step.processor.registers =
          { s.processor.registers with intPending := u.processor.lines.intLevel }) ∧
      (∃ level, t.processor.registers = { s.processor.registers with intPending := level }) ∧
      (t.processor.lines.resetRequested = false →
        t.processor.nmiWaiting = true ∨
          t.processor.lines.intLevel = true ∧ t.processor.registers.iff1 = true →
        t.processor.Wakes s.processor.registers) := by
  -- A halted processor is not in the shadow of an enable.
  have unshadowed : s.processor.registers.eiExecuted = false := by
    apply Bool.eq_false_iff.mpr
    intro shadow
    have running := (attained.reached.flipFlopsTracked.consistent.shadow shadow).2
    exact absurd (running.symm.trans halted) nofun
  obtain ⟨level, held⟩ := idle.held halted unshadowed
  refine ⟨attained.reached.haltedAt halted, ?_, ⟨level, held⟩, ?_⟩
  · intro u taken
    obtain ⟨idles, earlier, same⟩ := idle.idles halted unshadowed taken
    refine ⟨idles.result, idles.silent, idles.registers.trans ?_⟩
    rw [same]
  · intro unasked disturbed
    have wakes : t.processor.Wakes t.processor.registers := by
      apply Processor.wakes _ _ unasked disturbed
      · rw [held]
        exact halted
      · rw [held]
        exact unshadowed
    rw [held] at wakes
    exact wakes.of_sampled

/-- Interrupts were enabled and the processor has halted, in mode 1. -/
def asleep : Session Ram :=
  (((powerOn (({} : Ram).load 0 [0xFB, 0x76]) {}).act .step).act .step).act (.selectMode .mode1)

/-- The session in which the processor sleeps is attained. -/
lemma attained_asleep : asleep.Attained :=
  .act (.act (.act (.powerOn _ _) trivial) trivial) trivial

/-- Two steps later the interrupt line has risen. -/
def disturbed : Session Ram := ((asleep.act .step).act .step).act (.drive 0 (.driveInt true))

/-- The processor has idled twice before the line rises. -/
lemma idlesTo_disturbed : asleep.IdlesTo [asleep, asleep.act .step] disturbed := by
  have first : asleep.processor.Undisturbed :=
    ⟨by decide +kernel, by decide +kernel, by decide +kernel⟩
  have second : (asleep.act .step).processor.Undisturbed :=
    ⟨by decide +kernel, by decide +kernel, by decide +kernel⟩
  exact .pass (.step (.step .start first) second) trivial

/-- The processor idles behind the `HALT` for two steps and is woken then. -/
theorem halt_idles_disturbed :
    asleep.HaltedAt 2 ∧ asleep.processor.step.result = .ok (.halted 4) ∧
      (asleep.act .step).processor.step.result = .ok (.halted 4) ∧
      disturbed.processor.Wakes asleep.processor.registers := by
  have halted : asleep.processor.registers.halted = true := by decide +kernel
  have pc : asleep.processor.registers.pc = 2 := by decide +kernel
  obtain ⟨since, idles, -, wakes⟩ := halt_idles attained_asleep halted idlesTo_disturbed
  rw [pc] at since
  obtain ⟨first, later⟩ := List.forall_mem_cons.mp idles
  obtain ⟨second, -⟩ := List.forall_mem_cons.mp later
  have raised := wakes (by decide +kernel) (.inr ⟨by decide +kernel, by decide +kernel⟩)
  exact ⟨since, first.1, second.1, raised⟩

end Session

end Z80
