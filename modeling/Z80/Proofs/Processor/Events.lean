import Z80.Proofs.Execution.Mute
import Z80.Proofs.Processor.Course

/-!
# What tracing reports

With tracing a step does what it does without, and reports what happened besides
(`Processor.step_reports`): a reset, the entry of a handler and where it led, an instruction with its
first byte and the cycles it was charged, or the fault that cut the step short. An instruction that
was begun is reported although it did not get to its end, and an idle step reports nothing.
-/

namespace Z80

open Microprogram

/-- A listener keeps the events that it is told. -/
def Report.hear (told : List Event) : Report → List Event
  | event e => told ++ [e]
  | record _ => told

/-- To be told the reports of a trace is to be told its events. -/
lemma Trace.relay_hear (told : List Event) (t : Trace) :
    Trace.relay Report.hear told t = told ++ t.events := by
  induction t generalizing told with
  | nil => exact (List.append_nil told).symm
  | cons seen later ih =>
    cases seen with
    | access a => exact ih told
    | report r =>
      cases r with
      | event e => exact (ih (told ++ [e])).trans (List.append_assoc told [e] _)
      | record r => exact ih told

namespace Microprogram

/-- What is reported makes no difference to the events that were told: it is nothing but records. -/
def Quiet {α : Type} : Microprogram α → Prop := Reports fun r => ∀ told, Report.hear told r = told

/-- Where nothing is reported, no event is. -/
lemma Mute.quiet {α : Type} {p : Microprogram α} (hp : p.Mute) : p.Quiet := hp.imp nofun

/-- Records are no events. -/
lemma quiet_tellRecords (records : List Record) : (tellRecords records).Quiet := by
  induction records with
  | nil => exact trivial
  | cons r rest ih => exact ⟨fun _ => rfl, ih⟩

end Microprogram

/-- What an instruction asks for is carried out without an event. -/
lemma Retirement.quiet_settle (done : Retirement) (mode : InterruptMode) :
    (done.settle mode).Quiet := by
  unfold settle
  cases done.effect with
  | none => exact trivial
  | halt => exact ⟨fun _ => rfl, trivial⟩
  | selectMode selected => exact (quiet_tellRecords _).bind_done

namespace Registers

/-- An instruction that a device supplies is carried out without a report. -/
lemma mute_runSupplied (r : Registers) (opcode : Byte) : (r.runSupplied opcode).Mute := by
  apply (mute_acknowledgeBytes r _).bind
  intro operands
  exact (Instruction.mute_execute _ _).withSupplied _ operands

/-- However a maskable interrupt is answered, no event is reported on the way. -/
lemma quiet_answerInt (r : Registers) (mode : InterruptMode) (data : Byte) :
    (r.answerInt mode data).Quiet := by
  cases mode with
  | mode0 =>
    apply (r.mute_runSupplied data).quiet.bind
    intro done
    exact (done.quiet_settle .mode0).bind_done
  | mode1 => exact (r.mute_callTo mode1Vector).quiet.bind_done
  | mode2 => exact (r.mute_callTo (.ofHalves r.i data)).quiet.bind_done

/-- No event is reported before the handler of a maskable interrupt is entered. -/
lemma quiet_enterMaskable (r : Registers) (mode : InterruptMode) : (r.enterMaskable mode).Quiet :=
  fun data => quiet_answerInt _ mode data

/-- Nothing comes before the instruction at the program counter. -/
def fetches (r : Registers) : Bool := !r.nmiPending && !r.acceptsInt && !r.halted

end Registers

/-- A handler was entered, and its address reported. -/
def Advance.Entered (a : Advance) (told : List Event) : Prop :=
  ∃ source cycles, a.outcome = .interrupted source cycles ∧
    told = [.interruptAccepted source a.registers.pc]

/-- An instruction was completed, its beginning and its end reported. -/
def Advance.Fetched (pc : Word) (opcode : Byte) (a : Advance) (told : List Event) : Prop :=
  ∃ charged : UInt32, a.outcome = .retired charged.toNat ∧
    told = [.instructionStart pc opcode, .instructionRetired pc charged]

namespace Registers

/-- A non-maskable interrupt is reported where its handler is entered, and nothing is if it stops
short. -/
lemma heard_acceptNmi (r : Registers) (mode : InterruptMode) :
    (r.acceptNmi mode).Follows Report.hear Advance.Entered (· = []) [] := by
  have goes : (r.callTo nmiVector).Yields fun entered => entered.pc = nmiVector :=
    (Yields.of_forall (fun _ => trivial) (r.push r.pc)).bind fun _ _ => rfl
  refine (r.mute_callTo nmiVector).follows_bind nofun goes rfl ?_
  intro entered there
  refine ⟨.nmi, _, rfl, ?_⟩
  rw [there]
  rfl

/-- A maskable interrupt is reported where its handler is entered, and nothing is if it stops
short. -/
lemma heard_acceptInt (r : Registers) (mode : InterruptMode) :
    (r.acceptInt mode).Follows Report.hear Advance.Entered (· = []) [] := by
  have entry := (r.quiet_enterMaskable mode).onAbort fun _ => r
  refine entry.follows_bind (fun _ keeps => keeps []) (.of_forall (fun _ => trivial) _) rfl ?_
  intro entry _
  exact ⟨.maskable mode, _, rfl, rfl⟩

/-- A fetch begins with a read. The beginning of the instruction is reported at once, whatever comes
of it. -/
lemma heard_fetchExecute (r : Registers) (mode : InterruptMode) :
    ∃ next, r.fetchExecute mode = .read r r.pc next ∧
      ∀ opcode, (next opcode).Follows Report.hear (Advance.Fetched r.pc opcode)
        (· = [.instructionStart r.pc opcode]) [] := by
  refine ⟨_, rfl, ?_⟩
  intro opcode
  have decoding := Instruction.mute_decodeRest r r.pc opcode
  refine decoding.follows_bind nofun (.of_forall (fun _ => trivial) _) rfl ?_
  intro i _
  refine (i.mute_execute r).follows_bind nofun (i.cycles_execute r) rfl ?_
  intro done ⟨_, most⟩
  refine (done.quiet_settle mode).follows_bind (fun _ keeps => keeps _)
    (.of_forall (fun _ => trivial) _) rfl ?_
  intro after _
  have short : done.cycles < 4294967296 := Nat.lt_of_le_of_lt most (by decide)
  refine ⟨.ofNat done.cycles, ?_, rfl⟩
  rw [UInt32.toNat_ofNat_of_lt' short]

end Registers

namespace Processor

variable {β : Type}

/-- The same processor, with tracing enabled or disabled. -/
def traced (p : Processor β) (enabled : Bool) : Processor β :=
  { p with config := { p.config with tracing := enabled } }

/-- The events of a trace are seen when tracing is enabled, and none are otherwise. -/
lemma events_visible (p : Processor β) (t : Trace) :
    (p.visible t).events = if p.config.tracing then t.events else [] := by
  unfold visible
  split
  case isTrue => rfl
  case isFalse =>
    rw [Trace.events, List.filterMap_filter]
    apply List.filterMap_eq_nil_iff.mpr
    intro seen _
    cases seen with
    | access a => rfl
    | report r => cases r <;> rfl

/-- Without tracing no event is seen. -/
lemma events_visible_untraced (p : Processor β) (t : Trace) :
    ((p.traced false).visible t).events = [] := events_visible (p.traced false) t

variable [Bus β]

/-- The step is for the instruction at the program counter: no reset, no interrupt and no halt comes
before it. -/
def fetches (p : Processor β) : Bool := !p.lines.resetRequested && p.sampled.registers.fetches

/-- The byte at the program counter, if the bus gives one. -/
def opcode? (p : Processor β) : Option Byte :=
  match Bus.read p.bus p.registers.pc with
  | (.ok opcode, _) => some opcode
  | (.error _, _) => none

/-- What is reported of an instruction that is begun. -/
def starts (p : Processor β) : List Event :=
  if p.fetches then p.opcode?.toList.map (.instructionStart p.registers.pc) else []

/-- What is told of a step with its result: of an interrupt its source and the program counter after
it, of an instruction its address, its first byte and what it was charged, and of a fault its class
after the beginning of an instruction, if one was begun. -/
def Tells (p : Processor β) (after : Word) (told : List Event) : Except Fault StepOutcome → Prop
  | .ok .reset => told = [.reset]
  | .ok (.interrupted source _) => told = [.interruptAccepted source after]
  | .ok (.retired cycles) => ∃ opcode charged, p.opcode? = some opcode ∧ charged.toNat = cycles ∧
      told = [.instructionStart p.registers.pc opcode, .instructionRetired p.registers.pc charged]
  | .ok (.halted _) => told = []
  | .error fault => told = p.starts ++ [.faultRaised p.registers.pc fault.kind]

/-- No beginning is reported of a step that fetches no instruction. -/
lemma starts_of_not_fetches {p : Processor β} (h : p.fetches = false) : p.starts = [] := by
  rw [starts, h]
  rfl

/-- The beginning of an instruction is reported with its first byte. -/
lemma starts_of_opcode {p : Processor β} {opcode : Byte} (h : p.fetches = true)
    (begins : p.opcode? = some opcode) : p.starts = [.instructionStart p.registers.pc opcode] := by
  rw [starts, h, begins]
  rfl

/-- No beginning is reported of an instruction whose first byte cannot be read. -/
lemma starts_of_no_opcode {p : Processor β} (none : p.opcode? = none) : p.starts = [] := by
  rw [starts, none]
  split <;> rfl

/-- What is reported of a handler is what is to be told of the step that entered it. -/
lemma Tells.of_entered {p : Processor β} {a : Advance} {told : List Event} (h : a.Entered told) :
    p.Tells a.registers.pc told (.ok a.outcome) := by
  obtain ⟨source, cycles, outcome, rfl⟩ := h
  rw [outcome]
  rfl

/-- What is reported of an instruction is what is to be told of the step that completed it. -/
lemma Tells.of_fetched {p : Processor β} {opcode : Byte} {a : Advance} {told : List Event}
    (begins : p.opcode? = some opcode) (h : a.Fetched p.registers.pc opcode told) :
    p.Tells a.registers.pc told (.ok a.outcome) := by
  obtain ⟨charged, outcome, rfl⟩ := h
  rw [outcome]
  exact ⟨opcode, charged, begins, rfl, rfl⟩

/-- What is told of a fetch depends on what the bus gives for its first byte. -/
lemma heard_attempt_fetching {p : Processor β} (h : p.fetches = true)
    (attempted : ∃ repair, p.attempt = (({ p.sampled.registers with
      eiExecuted := false }.fetchExecute p.mode).onAbort repair).run p.bus) :
    p.attempt.Follows Report.hear (fun a told => p.Tells a.registers.pc told (.ok a.outcome))
      (· = p.starts) [] := by
  obtain ⟨repair, attempted⟩ := attempted
  obtain ⟨next, begins, heard⟩ :=
    Registers.heard_fetchExecute { p.sampled.registers with eiExecuted := false } p.mode
  rw [attempted, begins]
  -- Whether a beginning is reported is decided by the first access alone.
  simp only [onAbort, run]
  split
  case h_1 opcode middle answer =>
    have byte : p.opcode? = some opcode := by
      change Bus.read p.bus p.registers.pc = _ at answer
      rw [opcode?, answer]
    rw [starts_of_opcode h byte]
    have told := ((heard opcode).onAbort repair).of_run middle
    exact (told.imp (fun _ _ => Tells.of_fetched (p := p) byte) fun _ => id).after_access
  case h_2 error after answer =>
    have missing : p.opcode? = none := by
      change Bus.read p.bus p.registers.pc = _ at answer
      rw [opcode?, answer]
    exact (starts_of_no_opcode missing).symm

/-- An attempt tells what it should if it completes, and the beginning of an instruction if it stops
short. -/
lemma heard_attempt {p : Processor β} (unasked : p.lines.resetRequested = false) :
    p.attempt.Follows Report.hear (fun a told => p.Tells a.registers.pc told (.ok a.outcome))
      (· = p.starts) [] := by
  have fetches : p.fetches = p.sampled.registers.fetches := by
    rw [Processor.fetches, unasked]
    rfl
  unfold Registers.fetches at fetches
  cases pending : p.sampled.registers.nmiPending with
  | true =>
    rw [pending] at fetches
    rw [starts_of_not_fetches fetches, attempt, Registers.advance_of_nmiPending pending]
    exact ((Registers.heard_acceptNmi _ _).of_run _).imp (fun _ _ => Tells.of_entered)
      fun _ => id
  | false =>
    cases accepts : p.sampled.registers.acceptsInt with
    | true =>
      rw [pending, accepts] at fetches
      rw [starts_of_not_fetches fetches, attempt, Registers.advance_of_acceptsInt pending accepts]
      exact ((Registers.heard_acceptInt _ _).of_run _).imp (fun _ _ => Tells.of_entered)
        fun _ => id
    | false =>
      cases halted : p.sampled.registers.halted with
      | true =>
        rw [attempt, Registers.advance_of_halted pending accepts halted]
        -- A halted processor begins nothing, and so tells nothing.
        exact rfl
      | false =>
        rw [pending, accepts, halted] at fetches
        apply heard_attempt_fetching fetches
        rw [attempt, Registers.advance_of_running pending accepts halted]
        exact ⟨_, rfl⟩

/-- Tracing makes no difference to what a step does. -/
lemma step_traced (p : Processor β) (enabled : Bool) :
    (p.traced enabled).step.result = p.step.result ∧
      (p.traced enabled).step.processor = p.step.processor.traced enabled ∧
      (p.traced enabled).step.trace.accesses = p.step.trace.accesses := by
  obtain hr | ⟨hr, ⟨a, ha⟩ | ⟨abort, ha⟩⟩ := p.step_cases
  · have hr' : (p.traced enabled).lines.resetRequested = true := hr
    rw [step_of_reset hr, step_of_reset hr', accesses_visible, accesses_visible]
    exact ⟨rfl, rfl, rfl⟩
  · have hr' : (p.traced enabled).lines.resetRequested = false := hr
    have ha' : (p.traced enabled).attempt.ending = .ok a := ha
    rw [step_of_ok hr ha, step_of_ok hr' ha', accesses_visible, accesses_visible]
    exact ⟨rfl, rfl, rfl⟩
  · have hr' : (p.traced enabled).lines.resetRequested = false := hr
    have ha' : (p.traced enabled).attempt.ending = .error abort := ha
    rw [step_of_error hr ha, step_of_error hr' ha', accesses_visible, accesses_visible]
    exact ⟨rfl, rfl, rfl⟩

/-- Without tracing no event is seen of a step. -/
lemma events_step_untraced (p : Processor β) : (p.traced false).step.trace.events = [] := by
  obtain hr | ⟨hr, ⟨a, ha⟩ | ⟨abort, ha⟩⟩ := (p.traced false).step_cases
  · rw [step_of_reset hr]
    exact p.events_visible_untraced _
  · rw [step_of_ok hr ha]
    exact p.events_visible_untraced _
  · rw [step_of_error hr ha]
    exact p.events_visible_untraced _

/-- With tracing the events of a step are what is to be told of it. -/
lemma tells_step_traced (p : Processor β) :
    p.Tells p.step.processor.registers.pc (p.traced true).step.trace.events p.step.result := by
  obtain hr | ⟨hr, ⟨a, ha⟩ | ⟨abort, ha⟩⟩ := p.step_cases
  · have hr' : (p.traced true).lines.resetRequested = true := hr
    rw [step_of_reset hr, step_of_reset hr', events_visible]
    rfl
  · have hr' : (p.traced true).lines.resetRequested = false := hr
    have ha' : (p.traced true).attempt.ending = .ok a := ha
    have told := heard_attempt hr
    unfold Completion.Follows at told
    rw [ha, Trace.relay_hear] at told
    rw [step_of_ok hr ha, step_of_ok hr' ha', events_visible]
    exact told
  · have hr' : (p.traced true).lines.resetRequested = false := hr
    have ha' : (p.traced true).attempt.ending = .error abort := ha
    have told := heard_attempt hr
    unfold Completion.Follows at told
    rw [ha, Trace.relay_hear] at told
    rw [step_of_error hr ha, step_of_error hr' ha', events_visible]
    show Trace.events (p.attempt.trace ++ faultReports abort.fault p.registers.pc) = _
    rw [Trace.events_append]
    exact congrArg (· ++ _) told

end Processor

/-- The follower when it has been told the events of the step, one after the other. -/
def Step.deliver {β σ : Type} (s : Step β) (receive : σ → Event → σ) (follower : σ) : σ :=
  s.trace.events.foldl receive follower

namespace Processor

variable {β : Type} [Bus β]

/-- Tracing observes a step and does not interfere. Enabled or not, the step comes to the same, leaves
the same but for the setting, and makes the same accesses. Without tracing a follower is told nothing.
With tracing it is told what happened: a reset; the source of an interrupt and where it led; the
beginning of an instruction, and its end with what was charged; nothing while the processor idles; and
a fault at the end of a step that began at the program counter, after the beginning of an instruction
if its first byte was read. -/
theorem step_reports (p : Processor β) :
    (∀ enabled, (p.traced enabled).step.result = p.step.result ∧
        (p.traced enabled).step.processor = p.step.processor.traced enabled ∧
        (p.traced enabled).step.trace.accesses = p.step.trace.accesses) ∧
      (∀ (σ : Type) (receive : σ → Event → σ) (follower : σ),
        (p.traced false).step.deliver receive follower = follower) ∧
      ∃ told, p.Tells p.step.processor.registers.pc told p.step.result ∧
        ∀ (σ : Type) (receive : σ → Event → σ) (follower : σ),
          (p.traced true).step.deliver receive follower = told.foldl receive follower := by
  refine ⟨p.step_traced, ?_, _, p.tells_step_traced, fun _ _ _ => rfl⟩
  intro σ receive follower
  rw [Step.deliver, events_step_untraced]
  rfl

end Processor

end Z80
