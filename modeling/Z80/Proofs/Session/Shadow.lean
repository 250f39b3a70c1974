import Z80.Bus.Ram
import Z80.Bus.Scripted
import Z80.Proofs.Processor.Atomicity
import Z80.Proofs.Session.Basic

/-!
# Maskable interrupts over a session

An enable holds maskable interrupts off for one instruction more. The flip-flop that does so is
lifted before a fetch, laid back when the fetch faults, left alone by the entry of a non-maskable
interrupt, and set by `EI`, which may be fetched or supplied. Over a whole session it says that the
instruction completed last is `EI` (`Session.ShadowTracked`). This gives the exact condition for an
acknowledge cycle in terms of the past (`Session.acknowledges_iff`).
-/

namespace Z80

/-- The instruction that was completed last, if one was since the last reset. -/
def lastRetired : List Incident → Option Instruction
  | [] => none
  | x :: past => if x.isReset then none else x.retired?.or (lastRetired past)

/-- The step asked for an acknowledge cycle, answered or not. -/
def Step.Acknowledges {β : Type} (s : Step β) : Prop :=
  ∃ access ∈ s.trace.accesses, access.request = .acknowledge

/-- What completes no instruction and is no reset leaves the one completed last. -/
lemma lastRetired_append {later : List Incident} (past : List Incident)
    (h : ∀ x ∈ later, x.isReset = false ∧ x.retired? = none) :
    lastRetired (later ++ past) = lastRetired past := by
  induction later with
  | nil => rfl
  | cons x later ih =>
    obtain ⟨⟨hreset, hnone⟩, hlater⟩ := List.forall_mem_cons.mp h
    rw [List.cons_append, lastRetired, hreset, hnone]
    exact ih hlater

namespace Microprogram

variable {α β : Type} [Bus β]

/-- An acknowledge cycle is seen, whether it is answered or not. -/
lemma acknowledge_seen (now : Registers) (next : Byte → Microprogram α) (bus : β) :
    ∃ access ∈ ((acknowledge now next).run bus).trace.accesses,
      access.request = .acknowledge := by
  unfold run
  split
  case h_1 byte middle _ => exact ⟨.acknowledge byte, List.mem_cons_self, rfl⟩
  case h_2 error middle _ =>
    exact ⟨.failed .acknowledge error, List.mem_cons_self, rfl⟩

end Microprogram

namespace Incident

/-- A call on the inputs. -/
def isCall : Incident → Bool
  | called _ => true
  | _ => false

/-- Calls, faults and entries of the non-maskable interrupt complete no instruction. -/
lemma retires_nothing {x : Incident}
    (h : x.isCall = true ∨ x.isFault = true ∨ x.acceptsNmi = true) :
    x.isReset = false ∧ x.retired? = none := by
  cases x with
  | called call => exact ⟨rfl, rfl⟩
  | reset => rcases h with h | h | h <;> cases h
  | stepped result seen =>
    cases result with
    | error fault => exact ⟨rfl, rfl⟩
    | ok outcome =>
      cases outcome with
      | interrupted source cycles =>
        cases source with
        | nmi => exact ⟨rfl, rfl⟩
        | maskable mode => rcases h with h | h | h <;> cases h
      | _ => rcases h with h | h | h <;> cases h

/-- An instruction that has just been completed is the last one. -/
lemma lastRetired_of_retired {x : Incident} {i : Instruction} (h : x.retired? = some i)
    (past : List Incident) : lastRetired (x :: past) = some i := by
  have noReset : x.isReset = false := by
    cases x with
    | called call => rfl
    | reset => cases h
    | stepped result seen =>
      cases result with
      | error fault => rfl
      | ok outcome =>
        cases outcome with
        | reset => cases h
        | _ => rfl
  rw [lastRetired, noReset, h]
  rfl

end Incident

/-- The shadow of an enable is there when the instruction completed last is `EI`, and it is not there
with a halted processor. -/
structure Shadows (r : Registers) (last : Option Instruction) : Prop where
  shadow : r.eiExecuted = true ↔ last = some .ei
  awake : r.eiExecuted = true → r.halted = false

namespace Shadows

variable {r s : Registers} {last : Option Instruction}

/-- Only the two flip-flops count. -/
lemma congr (h : Shadows r last) (ei : s.eiExecuted = r.eiExecuted)
    (halted : s.eiExecuted = true → s.halted = false) : Shadows s last where
  shadow := by
    rw [ei]
    exact h.shadow
  awake := halted

/-- An instruction that is run by a processor that is not halted, with no shadow left from before,
leaves one when it is `EI`. -/
lemma of_switch (i : Instruction) {f : FlipFlops} (h : s.flipFlops = i.switch f)
    (running : f.halted = false) (free : f.eiExecuted = false) : Shadows s (some i) where
  shadow := by
    have set : s.eiExecuted = (f.eiExecuted || i == .ei) :=
      (congrArg FlipFlops.eiExecuted h).trans (i.eiExecuted_switch f)
    rw [set, free, Bool.false_or, beq_iff_eq, Option.some.injEq]
  awake := by
    intro shadow
    have set := (congrArg FlipFlops.eiExecuted h).symm.trans shadow
    exact (congrArg FlipFlops.halted h).trans (Instruction.halted_switch running free set)

end Shadows

/-- Whichever course a step takes, it leaves the shadow when it has completed `EI`, and as it was when
it has completed no instruction. -/
lemma Course.shadows {r : Registers} {mode : InterruptMode} {a : Advance} {seen : List Access}
    {past : List Incident} (h : Course r mode a seen) (before : Shadows r (lastRetired past)) :
    Shadows a.registers (lastRetired (.stepped (.ok a.outcome) seen :: past)) := by
  cases h with
  | nmi _ outcome flipFlops =>
    rw [outcome]
    exact before.congr (congrArg FlipFlops.eiExecuted flipFlops)
      fun _ => congrArg FlipFlops.halted flipFlops
  | called _ _ vectored _ outcome _ _ _ flipFlops =>
    have awake : a.registers.halted = false := congrArg FlipFlops.halted flipFlops
    rw [outcome]
    cases mode with
    | mode0 => exact absurd rfl vectored
    | mode1 | mode2 =>
      exact before.congr (congrArg FlipFlops.eiExecuted flipFlops) fun _ => awake
  | supplied _ accepts _ _ outcome byte _ shape flipFlops =>
    obtain ⟨-, -, free⟩ := r.acceptsInt_iff.mp accepts
    have retired : (Incident.stepped (.ok a.outcome) seen).retired? =
        some (Instruction.ofOpcode byte) := by
      rw [outcome, shape]
      rfl
    rw [Incident.lastRetired_of_retired retired]
    exact .of_switch _ flipFlops rfl free
  | idle _ _ halted outcome _ flipFlops =>
    -- A processor that is halted has no shadow to lift.
    have free : r.eiExecuted = false := by
      apply Bool.eq_false_iff.mpr
      exact fun shadow => absurd (halted.symm.trans (before.awake shadow)) nofun
    have lifted : a.registers.eiExecuted = false := congrArg FlipFlops.eiExecuted flipFlops
    rw [outcome]
    exact before.congr (lifted.trans free.symm)
      fun shadow => absurd (shadow.symm.trans lifted) nofun
  | fetched _ _ running _ outcome i fetch flipFlops =>
    have retired : (Incident.stepped (.ok a.outcome) seen).retired? = some i := by
      rw [outcome]
      exact fetch
    rw [Incident.lastRetired_of_retired retired]
    exact .of_switch i flipFlops running rfl

namespace Processor

variable {β : Type}

/-- The exact condition for an acknowledge cycle, in terms of the flip-flops and the inputs. -/
lemma acknowledges_step_iff [Bus β] (p : Processor β) :
    p.step.Acknowledges ↔
      p.lines.resetRequested = false ∧ p.nmiWaiting = false ∧ p.lines.intLevel = true ∧
        p.registers.iff1 = true ∧ p.registers.eiExecuted = false := by
  constructor
  · rintro ⟨access, seen, request⟩
    cases hr : p.lines.resetRequested with
    | true =>
      rw [accesses_step_of_reset hr] at seen
      cases seen
    | false =>
      rw [accesses_step hr] at seen
      obtain ⟨now, -, asks⟩ := (Registers.stops_advance _ _).of_mem_accesses seen
      rw [request] at asks
      obtain ⟨quiet, accepts⟩ := asks rfl
      obtain ⟨level, enabled, free⟩ := (Registers.acceptsInt_iff _).mp accepts
      exact ⟨rfl, quiet, level, enabled, free⟩
  · rintro ⟨hr, quiet, level, enabled, free⟩
    have accepts : p.sampled.registers.acceptsInt = true :=
      (Registers.acceptsInt_iff _).mpr ⟨level, enabled, free⟩
    rw [Step.Acknowledges, accesses_step hr, attempt,
      Registers.advance_of_acceptsInt quiet accepts]
    exact Microprogram.acknowledge_seen _ _ _

/-- A step keeps the shadow in line with what has happened. -/
lemma shadows_step [Bus β] {p : Processor β} {past : List Incident}
    (h : Shadows p.registers (lastRetired past)) :
    Shadows p.step.processor.registers (lastRetired (p.step.incident :: past)) := by
  obtain hr | ⟨hr, ⟨a, ha⟩ | ⟨abort, ha⟩⟩ := p.step_cases
  · rw [Step.incident, step_of_reset hr]
    exact ⟨⟨nofun, nofun⟩, nofun⟩
  · have course := step_course hr ha
    have before : Shadows p.sampled.registers (lastRetired past) := h.congr rfl h.awake
    have incident : p.step.incident = .stepped (.ok a.outcome) p.step.trace.accesses := by
      rw [Step.incident, step_of_ok hr ha]
    have after : p.step.processor.registers = a.registers := by
      rw [step_of_ok hr ha]
    rw [incident, after]
    exact course.shadows before
  · rw [Step.incident, step_of_error hr ha, registers_of_abort ha]
    exact h.congr rfl h.awake

end Processor

/-- The action leaves the registers to the processor. -/
def Action.KeepsRegisters {β : Type} : Action β → Prop
  | .edit _ => False
  | _ => True

namespace Session

variable {β : Type}

/-- The shadow of an enable says what the past says. -/
def ShadowTracked (s : Session β) : Prop := Shadows s.processor.registers (lastRetired s.past)

/-- What holds interrupts off is accounted for after a call through a handle. -/
lemma ShadowTracked.drive {s : Session β} (h : s.ShadowTracked) (handle : Nat) (call : LineCall) :
    (s.drive handle call).ShadowTracked := by
  unfold ShadowTracked
  by_cases heard : s.pool.family? handle = some 0
  · obtain ⟨processor, past⟩ := s.drive_heard heard call
    rw [processor, past]
    exact h
  · obtain ⟨processor, past⟩ := s.drive_unheard heard call
    rw [processor, past]
    exact h

variable [Bus β]

/-- Whatever is done, the shadow goes on saying what the past says. -/
lemma ShadowTracked.act {s : Session β} (h : s.ShadowTracked) {a : Action β}
    (ha : a.KeepsRegisters) : (s.act a).ShadowTracked := by
  cases a with
  | drive handle call => exact h.drive handle call
  | step => exact Processor.shadows_step h
  | reset => exact ⟨⟨nofun, nofun⟩, nofun⟩
  | edit change => exact ha.elim
  | share _ | addFresh | selectMode _ | resetCycles | changeBus _ => exact h

/-- What holds interrupts off is accounted for in every session that is reached. -/
lemma Reached.shadowTracked {s : Session β} (h : s.Reached Action.KeepsRegisters) :
    s.ShadowTracked := by
  induction h with
  | powerOn bus config => exact ⟨⟨nofun, nofun⟩, nofun⟩
  | act _ ha ih => exact ih.act ha

/-- A step begins an acknowledge cycle exactly when no reset is requested, no non-maskable interrupt
waits, the maskable line is high, interrupts are enabled, and the instruction completed last since the
last reset is not `EI`. So the shadow of an enable outlasts calls, faults and entries of the
non-maskable interrupt, it ends with the next instruction that completes, and a line that has dropped
is not served. -/
theorem acknowledges_iff {s : Session β} (h : s.Reached Action.KeepsRegisters) :
    (s.processor.step.Acknowledges ↔
      s.processor.lines.resetRequested = false ∧ s.processor.nmiWaiting = false ∧
        s.processor.lines.intLevel = true ∧ s.processor.registers.iff1 = true ∧
        lastRetired s.past ≠ some .ei) ∧
      (∀ later earlier, s.past = later ++ earlier → lastRetired earlier = some .ei →
        (∀ x ∈ later, x.isCall = true ∨ x.isFault = true ∨ x.acceptsNmi = true) →
        ¬ s.processor.step.Acknowledges) ∧
      (∀ x earlier i, s.past = x :: earlier → x.retired? = some i → i ≠ .ei →
        (s.processor.step.Acknowledges ↔
          s.processor.lines.resetRequested = false ∧ s.processor.nmiWaiting = false ∧
            s.processor.lines.intLevel = true ∧ s.processor.registers.iff1 = true)) ∧
      (∀ handle, s.pool.family? handle = some 0 →
        ¬ (s.drive handle (.driveInt false)).processor.step.Acknowledges) := by
  have condition : s.processor.step.Acknowledges ↔
      s.processor.lines.resetRequested = false ∧ s.processor.nmiWaiting = false ∧
        s.processor.lines.intLevel = true ∧ s.processor.registers.iff1 = true ∧
        lastRetired s.past ≠ some .ei := by
    rw [Processor.acknowledges_step_iff, ne_eq, ← h.shadowTracked.shadow, Bool.not_eq_true]
  refine ⟨condition, ?_, ?_, ?_⟩
  · intro later earlier split last quiet acknowledges
    obtain ⟨-, -, -, -, other⟩ := condition.mp acknowledges
    rw [split, lastRetired_append earlier fun x hx => Incident.retires_nothing (quiet x hx)] at other
    exact other last
  · intro x earlier i split retired other
    rw [condition, split, Incident.lastRetired_of_retired retired]
    simp only [ne_eq, Option.some.injEq, other, not_false_eq_true, and_true]
  · intro handle heard acknowledges
    rw [(s.drive_heard heard _).1, Processor.acknowledges_step_iff] at acknowledges
    obtain ⟨-, -, level, -⟩ := acknowledges
    cases level

/-- `EI` has been run with the maskable line high, and the fetch of the instruction after it has
faulted. -/
def shadowed : Session (Scripted Ram) :=
  (((powerOn
    { bus := ({} : Ram).load 0 [0xFB, 0x00]
      rules := [{ on := .read, address := some 1, error := .device }] } {}).act
    (.drive 0 (.driveInt true))).act .step).act .step

/-- The session in which a fetch fails behind `EI` is reached. -/
lemma reached_shadowed : shadowed.Reached Action.KeepsRegisters :=
  (((Reached.powerOn _ _).act trivial).act trivial).act trivial

/-- The interrupt is held off until the instruction after `EI` has been fetched again. -/
theorem acknowledges_iff_shadowed :
    shadowed.past.any Incident.isFault = true ∧ ¬ shadowed.processor.step.Acknowledges ∧
      (shadowed.act .step).processor.step.Acknowledges := by
  have before := (acknowledges_iff reached_shadowed).1
  have after := (acknowledges_iff (reached_shadowed.act (a := .step) trivial)).1
  refine ⟨by decide +kernel, ?_, ?_⟩
  · rw [before]
    decide +kernel
  · rw [after]
    decide +kernel

end Session

end Z80
