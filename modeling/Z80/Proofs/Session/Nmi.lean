import Z80.Bus.Ram
import Z80.Bus.Scripted
import Z80.Proofs.Processor.Atomicity
import Z80.Proofs.Session.Basic

/-!
# Non-maskable interrupts over a session

A rise of the non-maskable interrupt line is remembered first at the line, and from the next step on
in a flip-flop of the register bank. Over a whole session the two together say that the line rose and
that neither an entry nor a reset came after it (`Session.NmiTracked`), so every rise is served once,
and those that come before one entry are served together (`Session.nmi_served_once`).
-/

namespace Z80

/-- The level that the calls so far have left the non-maskable interrupt line at. -/
def nmiLevelAfter : List Incident → Bool
  | [] => false
  | .called (.driveNmi level) :: _ => level
  | _ :: past => nmiLevelAfter past

/-- The non-maskable interrupt line rose, and neither an entry of its handler nor a reset came
later. -/
def RiseUnserved (past : List Incident) : Prop :=
  ∃ later earlier, past = later ++ .called (.driveNmi true) :: earlier ∧
    nmiLevelAfter earlier = false ∧ ∀ x ∈ later, x.isReset = false ∧ x.acceptsNmi = false

/-- A rise waits to be served if it is the last thing that has happened, or has waited before and
was neither served nor reset. -/
lemma riseUnserved_cons (x : Incident) (past : List Incident) :
    RiseUnserved (x :: past) ↔
      (x = .called (.driveNmi true) ∧ nmiLevelAfter past = false) ∨
        (x.isReset = false ∧ x.acceptsNmi = false ∧ RiseUnserved past) := by
  constructor
  · rintro ⟨later, earlier, split, low, quiet⟩
    cases later with
    | nil =>
      obtain ⟨rfl, rfl⟩ := List.cons.inj split
      exact .inl ⟨rfl, low⟩
    | cons y later =>
      obtain ⟨rfl, rfl⟩ := List.cons.inj split
      obtain ⟨hy, hlater⟩ := List.forall_mem_cons.mp quiet
      exact .inr ⟨hy.1, hy.2, later, earlier, rfl, low, hlater⟩
  · rintro (⟨rfl, low⟩ | ⟨hreset, hnmi, later, earlier, rfl, low, quiet⟩)
    · exact ⟨[], past, rfl, low, nofun⟩
    · exact ⟨x :: later, earlier, rfl, low, List.forall_mem_cons.mpr ⟨⟨hreset, hnmi⟩, quiet⟩⟩

namespace Course

variable {r : Registers} {mode : InterruptMode} {a : Advance} {seen : List Access}

/-- After a step that completes no non-maskable interrupt is pending. -/
lemma nmiPending_after (h : Course r mode a seen) : a.registers.nmiPending = false := by
  cases h with
  | nmi _ _ flipFlops => exact congrArg FlipFlops.nmiPending flipFlops
  | called quiet _ _ _ _ _ _ _ flipFlops =>
    exact (congrArg FlipFlops.nmiPending flipFlops).trans quiet
  | supplied quiet _ _ _ _ _ _ _ flipFlops =>
    have kept := congrArg FlipFlops.nmiPending flipFlops
    rw [Instruction.nmiPending_switch] at kept
    exact kept.trans quiet
  | idle quiet _ _ _ _ flipFlops => exact (congrArg FlipFlops.nmiPending flipFlops).trans quiet
  | fetched quiet _ _ _ _ _ _ flipFlops =>
    have kept := congrArg FlipFlops.nmiPending flipFlops
    rw [Instruction.nmiPending_switch] at kept
    exact kept.trans quiet

/-- A completed step has entered the handler when a non-maskable interrupt was pending, and only
then. -/
lemma outcome_nmi_iff (h : Course r mode a seen) :
    (∃ cycles, a.outcome = .interrupted .nmi cycles) ↔ r.nmiPending = true := by
  cases h with
  | nmi pending outcome _ => exact ⟨fun _ => pending, fun _ => ⟨_, outcome⟩⟩
  | called quiet _ _ _ outcome | supplied quiet _ _ _ outcome | idle quiet _ _ outcome
  | fetched quiet _ _ _ outcome =>
    rw [outcome, quiet]
    exact ⟨nofun, nofun⟩

end Course

namespace Processor

variable {β : Type}

/-- A step ends the waiting when it enters the handler or carries out a reset, and else leaves it as
it is. -/
lemma nmiWaiting_step [Bus β] (p : Processor β) :
    p.step.processor.nmiWaiting = true ↔
      p.nmiWaiting = true ∧ p.step.incident.isReset = false ∧
        p.step.incident.acceptsNmi = false := by
  obtain hr | ⟨hr, ⟨a, ha⟩ | ⟨abort, ha⟩⟩ := p.step_cases
  · rw [step_of_reset hr]
    exact ⟨nofun, nofun⟩
  · have course := step_course hr ha
    rw [step_of_ok hr ha]
    have served : (a.registers.nmiPending || false) = false := by
      rw [course.nmiPending_after, Bool.or_false]
    constructor
    · intro waiting
      exact absurd (waiting.symm.trans served) nofun
    · rintro ⟨waiting, -, passed⟩
      obtain ⟨cycles, outcome⟩ := course.outcome_nmi_iff.mpr waiting
      rw [Step.incident, outcome] at passed
      cases passed
  · rw [step_of_error hr ha]
    have moved : (abort.registers.nmiPending || false) = p.nmiWaiting := by
      rw [registers_of_abort ha, Bool.or_false]
      rfl
    exact ⟨fun waiting => ⟨moved ▸ waiting, rfl, rfl⟩, fun h => moved.trans h.1⟩

/-- A step with a non-maskable interrupt waiting and no reset enters its handler or faults. -/
lemma step_of_nmiWaiting [Bus β] (p : Processor β) (waiting : p.nmiWaiting = true)
    (hr : p.lines.resetRequested = false) :
    (∃ cycles, p.step.result = .ok (.interrupted .nmi cycles) ∧
        p.step.processor.nmiWaiting = false) ∨
      (∃ fault, p.step.result = .error fault ∧ p.step.processor.nmiWaiting = true) := by
  obtain hr' | ⟨-, ⟨a, ha⟩ | ⟨abort, ha⟩⟩ := p.step_cases
  · exact absurd (hr'.symm.trans hr) nofun
  · obtain ⟨cycles, outcome⟩ := (step_course hr ha).outcome_nmi_iff.mpr waiting
    have result : p.step.result = .ok (.interrupted .nmi cycles) := by
      rw [step_of_ok hr ha, outcome]
    refine .inl ⟨cycles, result, ?_⟩
    rw [Bool.eq_false_iff, ne_eq, nmiWaiting_step, Step.incident, result]
    exact nofun
  · have result : p.step.result = .error abort.fault := by
      rw [step_of_error hr ha]
    refine .inr ⟨abort.fault, result, ?_⟩
    rw [nmiWaiting_step, Step.incident, result]
    exact ⟨waiting, rfl, rfl⟩

/-- A non-maskable interrupt that was served had waited, and no reset had been asked for. -/
lemma nmiWaiting_of_result [Bus β] (p : Processor β) {cycles : Nat}
    (h : p.step.result = .ok (.interrupted .nmi cycles)) :
    p.nmiWaiting = true ∧ p.lines.resetRequested = false := by
  obtain hr | ⟨hr, ⟨a, ha⟩ | ⟨abort, ha⟩⟩ := p.step_cases
  · rw [step_of_reset hr] at h
    cases h
  · rw [step_of_ok hr ha] at h
    exact ⟨(step_course hr ha).outcome_nmi_iff.mp ⟨cycles, Except.ok.inj h⟩, hr⟩
  · rw [step_of_error hr ha] at h
    cases h

/-- No step touches the level of the non-maskable interrupt line. -/
lemma nmiLevel_step [Bus β] (p : Processor β) :
    p.step.processor.lines.nmiLevel = p.lines.nmiLevel := by
  obtain hr | ⟨hr, ⟨a, ha⟩ | ⟨abort, ha⟩⟩ := p.step_cases
  · rw [step_of_reset hr]
    rfl
  · rw [step_of_ok hr ha]
    rfl
  · rw [step_of_error hr ha]
    rfl

/-- After a reset no non-maskable interrupt waits. -/
lemma nmiWaiting_reset (p : Processor β) : p.reset.1.nmiWaiting = false := rfl

/-- A call adds a non-maskable interrupt to the waiting ones when it makes the line rise, and takes
none away. -/
lemma nmiWaiting_drive (p : Processor β) (call : LineCall) :
    (p.drive call).nmiWaiting = true ↔
      p.nmiWaiting = true ∨ (call = .driveNmi true ∧ p.lines.nmiLevel = false) := by
  cases call with
  | requestReset | driveInt _ =>
    simp only [reduceCtorEq, false_and, or_false]
    exact Iff.rfl
  | driveNmi level =>
    show (p.registers.nmiPending || (p.lines.nmiEdge || (level && !p.lines.nmiLevel))) = true ↔ _
    simp only [nmiWaiting, LineCall.driveNmi.injEq, Bool.or_eq_true, Bool.and_eq_true,
      Bool.not_eq_true', or_assoc]

end Processor

/-- The action leaves the flip-flop of the non-maskable interrupt to the processor. -/
def Action.KeepsNmi {β : Type} : Action β → Prop
  | .edit change => ∀ r, (change r).nmiPending = r.nmiPending
  | _ => True

namespace Session

variable {β : Type}

/-- What the processor remembers of the non-maskable interrupt line is what the past says. -/
structure NmiTracked (s : Session β) : Prop where
  level : s.processor.lines.nmiLevel = nmiLevelAfter s.past
  waiting : s.processor.nmiWaiting = true ↔ RiseUnserved s.past

/-- At power-on no rise has been seen and none waits. -/
lemma nmiTracked_powerOn (bus : β) (config : Config) : (powerOn bus config).NmiTracked where
  level := rfl
  waiting := by
    constructor
    · nofun
    · rintro ⟨later, earlier, split, -⟩
      cases later <;> cases split

/-- The non-maskable interrupt is accounted for after a call through a handle. -/
lemma NmiTracked.drive {s : Session β} (h : s.NmiTracked) (handle : Nat) (call : LineCall) :
    (s.drive handle call).NmiTracked := by
  by_cases heard : s.pool.family? handle = some 0
  · obtain ⟨processor, past⟩ := s.drive_heard heard call
    refine ⟨?_, ?_⟩
    · rw [processor, past]
      cases call with
      | driveNmi level => rfl
      | requestReset | driveInt _ => exact h.level
    · rw [processor, past, Processor.nmiWaiting_drive, h.waiting, h.level, riseUnserved_cons,
        Incident.called.injEq, or_comm]
      exact or_congr Iff.rfl ⟨fun rise => ⟨rfl, rfl, rise⟩, fun rise => rise.2.2⟩
  · obtain ⟨processor, past⟩ := s.drive_unheard heard call
    refine ⟨?_, ?_⟩
    · rw [processor, past]
      exact h.level
    · rw [processor, past]
      exact h.waiting

variable [Bus β]

/-- The non-maskable interrupt is accounted for after a step. -/
lemma NmiTracked.step {s : Session β} (h : s.NmiTracked) : (s.act .step).NmiTracked where
  level := s.processor.nmiLevel_step.trans h.level
  waiting := by
    show s.processor.step.processor.nmiWaiting = true ↔
      RiseUnserved (s.processor.step.incident :: s.past)
    rw [Processor.nmiWaiting_step, h.waiting, riseUnserved_cons]
    constructor
    · rintro ⟨rise, hreset, hnmi⟩
      exact .inr ⟨hreset, hnmi, rise⟩
    · rintro (⟨call, -⟩ | ⟨hreset, hnmi, rise⟩)
      · cases call
      · exact ⟨rise, hreset, hnmi⟩

/-- Whatever is done, the processor goes on remembering what the past says. -/
lemma NmiTracked.act {s : Session β} (h : s.NmiTracked) {a : Action β} (ha : a.KeepsNmi) :
    (s.act a).NmiTracked := by
  cases a with
  | drive handle call => exact h.drive handle call
  | step => exact h.step
  | reset =>
    refine ⟨h.level, ?_⟩
    show s.processor.reset.1.nmiWaiting = true ↔ RiseUnserved (.reset :: s.past)
    rw [Processor.nmiWaiting_reset, riseUnserved_cons]
    exact ⟨nofun, nofun⟩
  | edit change =>
    refine ⟨h.level, ?_⟩
    show ((change s.processor.registers).nmiPending || s.processor.lines.nmiEdge) = true ↔ _
    rw [ha]
    exact h.waiting
  | share _ | addFresh | selectMode _ | resetCycles | changeBus _ => exact ⟨h.level, h.waiting⟩

/-- The non-maskable interrupt is accounted for in every session that is reached. -/
lemma Reached.nmiTracked {s : Session β} (h : s.Reached Action.KeepsNmi) : s.NmiTracked := by
  induction h with
  | powerOn bus config => exact nmiTracked_powerOn bus config
  | act _ ha ih => exact ih.act ha

/-- Every rise of the non-maskable interrupt line is served once. An interrupt waits exactly when the
line rose since the last entry and the last reset. A step without a reset then enters the handler, and
nothing waits any more, or faults, and it waits still; no other step enters it. A call makes an
interrupt wait when it makes the line rise, and never takes one back. -/
theorem nmi_served_once {s : Session β} (h : s.Reached Action.KeepsNmi) :
    (s.processor.nmiWaiting = true ↔ RiseUnserved s.past) ∧
      (s.processor.nmiWaiting = true → s.processor.lines.resetRequested = false →
        (∃ cycles, s.processor.step.result = .ok (.interrupted .nmi cycles) ∧
          s.processor.step.processor.nmiWaiting = false) ∨
        (∃ fault, s.processor.step.result = .error fault ∧
          s.processor.step.processor.nmiWaiting = true)) ∧
      (∀ cycles, s.processor.step.result = .ok (.interrupted .nmi cycles) →
        s.processor.nmiWaiting = true ∧ s.processor.lines.resetRequested = false) ∧
      (∀ handle call, (s.drive handle call).processor.nmiWaiting = true ↔
        s.processor.nmiWaiting = true ∨
          (s.pool.family? handle = some 0 ∧ call = .driveNmi true ∧
            s.processor.lines.nmiLevel = false)) := by
  refine ⟨h.nmiTracked.waiting, ?_, ?_, ?_⟩
  · exact s.processor.step_of_nmiWaiting
  · exact fun cycles => s.processor.nmiWaiting_of_result
  · intro handle call
    by_cases heard : s.pool.family? handle = some 0
    · rw [(s.drive_heard heard call).1, Processor.nmiWaiting_drive]
      simp only [heard, true_and]
    · rw [(s.drive_unheard heard call).1]
      simp only [heard, false_and, or_false]

/-- A pulse through a second handle, and a step that faults on its way into the handler, for the bus
fails one write. -/
def pulsed : Session (Scripted Ram) :=
  ((((powerOn { bus := {}, rules := [{ on := .write, error := .device }] } {}).act
    (.share 0)).act (.drive 1 (.driveNmi true))).act (.drive 1 (.driveNmi false))).act .step

/-- The session in which the line pulsed is reached. -/
lemma reached_pulsed : pulsed.Reached Action.KeepsNmi :=
  ((((Reached.powerOn _ _).act trivial).act trivial).act trivial).act trivial

/-- The pulse is over and the entry has failed, and the interrupt waits still. The next step serves
it. -/
theorem nmi_served_once_pulsed :
    pulsed.processor.lines.nmiLevel = false ∧ pulsed.past.any Incident.isFault = true ∧
      RiseUnserved pulsed.past ∧ ¬ RiseUnserved (pulsed.act .step).past := by
  have before := nmi_served_once reached_pulsed
  have after := nmi_served_once (reached_pulsed.act (a := .step) trivial)
  refine ⟨by decide +kernel, by decide +kernel, before.1.mp (by decide +kernel), ?_⟩
  intro rise
  exact absurd (after.1.mpr rise) (by decide +kernel)

end Session

end Z80
