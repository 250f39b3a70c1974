import Z80.Bus.Ram
import Z80.Bus.Scripted
import Z80.Proofs.Run.Account
import Z80.Proofs.Session.Nmi
import Z80.Proofs.Session.Shadow

/-!
# Flip-flops over a session

The flip-flops of the register bank are not independent. Interrupts that are enabled have their
enable copied, the shadow of an enable is there only while that copy is and the processor is not
halted (`FlipFlops.Consistent`), and a non-maskable interrupt stays in its flip-flop only after an
entry of its handler that faulted (`Session.FailedNmiEntryLast`). Every step keeps this, whichever
course it takes, and so it holds in every session (`Session.flipFlops_consistent`), runs with a
budget included.
-/

namespace Z80

namespace FlipFlops

/-- What holds of the flip-flops together, whatever was done. -/
structure Consistent (s : FlipFlops) : Prop where
  enabled : s.iff1 = true → s.iff2 = true
  shadow : s.eiExecuted = true → s.iff2 = true ∧ s.halted = false

variable {s : FlipFlops}

/-- The flip-flops stay consistent when the handler of the non-maskable interrupt is entered. -/
lemma Consistent.enterNmi (h : s.Consistent) : s.enterNmi.Consistent where
  enabled := nofun
  shadow := fun shadow => ⟨(h.shadow shadow).1, rfl⟩

/-- The flip-flops stay consistent when interrupts are no longer held off. -/
lemma Consistent.lift (h : s.Consistent) : s.lift.Consistent where
  enabled := h.enabled
  shadow := nofun

/-- An acknowledge cycle begins without a shadow only. -/
lemma consistent_acknowledge (free : s.eiExecuted = false) : s.acknowledge.Consistent where
  enabled := nofun
  shadow := fun shadow => absurd (free.symm.trans shadow) nofun

/-- An instruction is begun with the shadow lifted and by a processor that is not halted. -/
lemma Consistent.switch (h : s.Consistent) (i : Instruction) (free : s.eiExecuted = false)
    (running : s.halted = false) : (i.switch s).Consistent := by
  have unshadowed : s.eiExecuted = true → s.iff2 = true ∧ s.halted = false := by
    rw [free]
    nofun
  cases i with
  | di => exact ⟨nofun, fun shadow => absurd (free.symm.trans shadow) nofun⟩
  | ei => exact ⟨fun _ => rfl, fun _ => ⟨rfl, running⟩⟩
  | retn | reti => exact ⟨id, unshadowed⟩
  | halt => exact ⟨h.enabled, fun shadow => absurd (free.symm.trans shadow) nofun⟩
  | _ => exact h

end FlipFlops

/-- Whichever course a step takes, it leaves consistent flip-flops. -/
lemma Course.consistent {r : Registers} {mode : InterruptMode} {a : Advance} {seen : List Access}
    (h : Course r mode a seen) (before : r.flipFlops.Consistent) :
    a.registers.flipFlops.Consistent := by
  cases h with
  | nmi _ _ flipFlops =>
    rw [flipFlops]
    exact before.enterNmi
  | called _ accepts _ _ _ _ _ _ flipFlops =>
    obtain ⟨-, -, free⟩ := r.acceptsInt_iff.mp accepts
    rw [flipFlops]
    exact FlipFlops.consistent_acknowledge free
  | supplied _ accepts _ _ _ byte _ _ flipFlops =>
    obtain ⟨-, -, free⟩ := r.acceptsInt_iff.mp accepts
    rw [flipFlops]
    exact (FlipFlops.consistent_acknowledge free).switch _ free rfl
  | idle _ _ _ _ _ flipFlops =>
    rw [flipFlops]
    exact before.lift
  | fetched _ _ running _ _ i _ flipFlops =>
    rw [flipFlops]
    exact before.lift.switch i rfl running

/-- How many steps a run took, the one that faulted included. -/
def Run.taken {β : Type} (r : Run β) : Nat := if r.fault?.isSome then r.steps + 1 else r.steps

namespace Processor

variable {β : Type} [Bus β]

/-- A run leaves the processor as its steps do, the one that faults included. -/
lemma processor_runFor (p : Processor β) (budget : Nat) :
    (p.runFor budget).processor = p.after (p.runFor budget).taken := by
  have account := (Run.Tallies.start p budget).untilBudget
  change (p.runFor budget).Accounts p budget at account
  unfold Run.Accounts at account
  unfold Run.taken
  cases hf : (p.runFor budget).fault? with
  | none =>
    rw [hf] at account
    exact account.processor
  | some fault =>
    rw [hf] at account
    exact account.processor

/-- A step keeps the flip-flops consistent. -/
lemma consistent_step {p : Processor β} (h : p.registers.flipFlops.Consistent) :
    p.step.processor.registers.flipFlops.Consistent := by
  have sampled : p.sampled.registers.flipFlops.Consistent := ⟨h.enabled, h.shadow⟩
  obtain hr | ⟨hr, ⟨a, ha⟩ | ⟨abort, ha⟩⟩ := p.step_cases
  · rw [step_of_reset hr]
    exact ⟨nofun, nofun⟩
  · have course := step_course hr ha
    rw [step_of_ok hr ha]
    exact course.consistent sampled
  · rw [step_of_error hr ha, registers_of_abort ha]
    exact sampled

/-- The next step is an entry of the handler of the non-maskable interrupt, whether it completes or
not. -/
structure EntersNmi (p : Processor β) : Prop where
  unasked : p.lines.resetRequested = false
  waiting : p.nmiWaiting = true
  entry : p.attempt = (p.sampled.registers.acceptNmi p.mode).run p.bus

/-- A step leaves a non-maskable interrupt in its flip-flop only where it has failed to enter the
handler. -/
lemma entersNmi_of_nmiPending {p : Processor β}
    (pending : p.step.processor.registers.nmiPending = true) :
    p.EntersNmi ∧ ∃ fault, p.step.result = .error fault := by
  obtain hr | ⟨hr, ⟨a, ha⟩ | ⟨abort, ha⟩⟩ := p.step_cases
  · rw [step_of_reset hr] at pending
    cases pending
  · have served := (step_course hr ha).nmiPending_after
    rw [step_of_ok hr ha] at pending
    exact absurd (served.symm.trans pending) nofun
  · rw [step_of_error hr ha, registers_of_abort ha] at pending
    have waiting : p.sampled.registers.nmiPending = true := pending
    have entry := Registers.advance_of_nmiPending waiting p.mode
    refine ⟨⟨hr, waiting, congrArg (·.run p.bus) entry⟩, abort.fault, ?_⟩
    rw [step_of_error hr ha]

end Processor

/-- The action is no step and no reset, and leaves the registers alone. -/
def Action.Passes {β : Type} : Action β → Prop
  | .step | .reset | .edit _ => False
  | _ => True

namespace Session

variable {β : Type}

/-- No call through a handle touches the registers. -/
lemma registers_drive (s : Session β) (handle : Nat) (call : LineCall) :
    (s.drive handle call).processor.registers = s.processor.registers := by
  by_cases heard : s.pool.family? handle = some 0
  · rw [(s.drive_heard heard call).1]
    rfl
  · rw [(s.drive_unheard heard call).1]

variable [Bus β]

/-- The session after so many steps in a row. -/
def steps (s : Session β) : Nat → Session β
  | 0 => s
  | n + 1 => (s.steps n).act .step

/-- The session after a run with a budget of clock cycles. -/
def runFor (s : Session β) (budget : Nat) : Session β :=
  s.steps (s.processor.runFor budget).taken

/-- The session came from power-on by runs with a budget and by doing anything but edit registers.
-/
inductive Attained : Session β → Prop where
  | powerOn (bus : β) (config : Config) : Attained (.powerOn bus config)
  | act {s : Session β} {a : Action β} (hs : Attained s) (ha : a.KeepsRegisters) :
      Attained (s.act a)
  | runFor {s : Session β} (hs : Attained s) (budget : Nat) : Attained (s.runFor budget)

/-- Steps of a session are steps of its processor. -/
lemma processor_steps (s : Session β) (n : Nat) : (s.steps n).processor = s.processor.after n := by
  induction n with
  | zero => rfl
  | succ n ih => exact congrArg (fun p => p.step.processor) ih

/-- A session that was reached reaches what steps lead to. -/
lemma Reached.steps {s : Session β} (h : s.Reached Action.KeepsRegisters) (n : Nat) :
    (s.steps n).Reached Action.KeepsRegisters := by
  induction n with
  | zero => exact h
  | succ n ih => exact ih.act trivial

/-- A run with a budget is so many steps in a row. -/
lemma Attained.reached {s : Session β} (h : s.Attained) : s.Reached Action.KeepsRegisters := by
  induction h with
  | powerOn bus config => exact .powerOn bus config
  | act _ ha ih => exact ih.act ha
  | runFor _ budget ih => exact ih.steps _

/-- What is reached without a run is attained. -/
lemma Reached.attained {s : Session β} (h : s.Reached Action.KeepsRegisters) : s.Attained := by
  induction h with
  | powerOn bus config => exact .powerOn bus config
  | act _ ha ih => exact ih.act ha

/-- An action that passes the processor by touches no register. -/
lemma registers_act (s : Session β) {a : Action β} (ha : a.Passes) :
    (s.act a).processor.registers = s.processor.registers := by
  cases a with
  | drive handle call => exact s.registers_drive handle call
  | step | reset | edit _ => exact ha.elim
  | share _ | addFresh | selectMode _ | resetCycles | changeBus _ => rfl

/-- The step taken last was an entry of the handler of the non-maskable interrupt, and faulted. No
reset came after it. -/
def FailedNmiEntryLast (s : Session β) : Prop :=
  ∃ (before : Session β) (since : List (Action β)),
    before.Attained ∧ before.processor.EntersNmi ∧
      (∃ fault, before.processor.step.result = .error fault) ∧
      (∀ a ∈ since, a.Passes) ∧ s = since.foldl Session.act (before.act .step)

/-- The entry that failed is still the last thing to have happened when an action passes the
processor by. -/
lemma FailedNmiEntryLast.act {s : Session β} (h : s.FailedNmiEntryLast) {a : Action β}
    (ha : a.Passes) : (s.act a).FailedNmiEntryLast := by
  obtain ⟨before, since, attained, enters, faulted, quiet, rfl⟩ := h
  refine ⟨before, since ++ [a], attained, enters, faulted, ?_, ?_⟩
  · intro x hx
    obtain hx | hx := List.mem_append.mp hx
    · exact quiet x hx
    · rw [List.mem_singleton.mp hx]
      exact ha
  · rw [List.foldl_append]
    rfl

/-- The flip-flops are consistent, and one that holds a non-maskable interrupt tells of a failed
entry. -/
structure FlipFlopsTracked (s : Session β) : Prop where
  consistent : s.processor.registers.flipFlops.Consistent
  pending : s.processor.registers.nmiPending = true → s.FailedNmiEntryLast

/-- The flip-flops are accounted for when an action passes the processor by. -/
lemma FlipFlopsTracked.pass {s : Session β} (h : s.FlipFlopsTracked) {a : Action β}
    (ha : a.Passes) : (s.act a).FlipFlopsTracked := by
  have same := s.registers_act ha
  refine ⟨?_, ?_⟩
  · rw [same]
    exact h.consistent
  · rw [same]
    exact fun pending => (h.pending pending).act ha

/-- The flip-flops are accounted for after a step. -/
lemma FlipFlopsTracked.step {s : Session β} (h : s.FlipFlopsTracked) (attained : s.Attained) :
    (s.act .step).FlipFlopsTracked where
  consistent := Processor.consistent_step h.consistent
  pending := by
    intro pending
    obtain ⟨enters, faulted⟩ := Processor.entersNmi_of_nmiPending pending
    exact ⟨s, [], attained, enters, faulted, nofun, rfl⟩

/-- The flip-flops are accounted for in every session that is reached. -/
lemma Reached.flipFlopsTracked {s : Session β} (h : s.Reached Action.KeepsRegisters) :
    s.FlipFlopsTracked := by
  induction h with
  | powerOn bus config => exact ⟨⟨nofun, nofun⟩, nofun⟩
  | @act s a hs ha ih =>
    cases a with
    | step => exact ih.step hs.attained
    | reset => exact ⟨⟨nofun, nofun⟩, nofun⟩
    | edit change => exact ha.elim
    | drive _ _ | share _ | addFresh | selectMode _ | resetCycles | changeBus _ =>
      exact ih.pass trivial

/-- However a session went, runs with a budget included, its flip-flops fit together. Interrupts
that are enabled have their enable copied; in the shadow of an enable the copy is there and the
processor is not halted; and a non-maskable interrupt is held in its flip-flop only when the step
taken last failed to enter its handler, and no reset came after it. -/
theorem flipFlops_consistent {s : Session β} (h : s.Attained) :
    (s.processor.registers.iff1 = true → s.processor.registers.iff2 = true) ∧
      (s.processor.registers.eiExecuted = true →
        s.processor.registers.iff2 = true ∧ s.processor.registers.halted = false) ∧
      (s.processor.registers.nmiPending = true → s.FailedNmiEntryLast) ∧
      ∀ budget, (s.runFor budget).processor = (s.processor.runFor budget).processor := by
  obtain ⟨consistent, pending⟩ := h.reached.flipFlopsTracked
  refine ⟨consistent.enabled, consistent.shadow, pending, ?_⟩
  intro budget
  rw [runFor, processor_steps, Processor.processor_runFor]

/-- `EI` has been run, and then a non-maskable interrupt could not be entered, for the bus fails one
write. -/
def unentered : Session (Scripted Ram) :=
  ((((powerOn
    { bus := ({} : Ram).load 0 [0xFB]
      rules := [{ on := .write, skip := 1, error := .device }] } {}).runFor 4).act
    (.drive 0 (.driveNmi true))).act .step).act (.selectMode .mode2)

/-- The session in which the entry failed is attained. -/
lemma attained_unentered : unentered.Attained :=
  .act (.act (.act (.runFor (.powerOn _ _) 4) trivial) trivial) trivial

/-- The enable, its shadow and the interrupt are all there. -/
theorem flipFlops_consistent_unentered :
    unentered.processor.registers.iff2 = true ∧ unentered.processor.registers.halted = false ∧
      unentered.FailedNmiEntryLast := by
  obtain ⟨enabled, shadow, pending, -⟩ := flipFlops_consistent attained_unentered
  exact ⟨enabled (by decide +kernel), (shadow (by decide +kernel)).2, pending (by decide +kernel)⟩

end Session

end Z80
