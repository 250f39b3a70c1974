import Z80.Proofs.Processor.Events

/-!
# The interrupt mode and the log

What a step does to the interrupt mode: a reset puts it back to that of power-on, an `IM` instruction
that was fetched and completed selects its own, and nothing else touches it, an instruction that a
device supplies included (`Processor.mode_step`).

A line of the log may say which mode is in force from there on (`InterruptMode.ofLine?`), and no line
but those of a selection and a reset reads like one that does (`InterruptMode.ofLine?_text`). Whoever
knew the mode before a step and reads the lines that it writes knows the mode after it
(`Processor.replay_step`).
-/

namespace Z80

open Microprogram

/-- The mode that a record says is in force from there on. After a reset it is that of power-on. -/
def Record.selects? (resetMode : InterruptMode) : Record → Option InterruptMode
  | modeSelected mode => some mode
  | reset => some resetMode
  | _ => none

namespace InterruptMode

/-- The mode that a line of the log says is in force from there on. -/
def ofLine? (resetMode : InterruptMode) (line : String) : Option InterruptMode :=
  if line = "reset" then some resetMode
  else table.find? fun mode => line == "interrupt mode " ++ toString mode.number

/-- A line says nothing of the mode if none that does begins like it. -/
lemma ofLine?_of_start (resetMode : InterruptMode) {start : String} (rest : String)
    (other : ∀ line ∈ ["reset", "interrupt mode 0", "interrupt mode 1", "interrupt mode 2"],
      line.toList.take start.toList.length ≠ start.toList) :
    ofLine? resetMode (start ++ rest) = none := by
  have differs : ∀ line ∈ ["reset", "interrupt mode 0", "interrupt mode 1", "interrupt mode 2"],
      start ++ rest ≠ line := by
    rintro _ among rfl
    apply other _ among
    rw [String.toList_append, List.take_left]
  rw [ofLine?, if_neg (differs _ (by decide)), List.find?_eq_none]
  intro mode _ same
  have line := beq_iff_eq.mp same
  cases mode with
  | mode0 => exact differs "interrupt mode 0" (by decide) line
  | mode1 => exact differs "interrupt mode 1" (by decide) line
  | mode2 => exact differs "interrupt mode 2" (by decide) line

/-- The message of a fault says nothing of the mode, whatever follows it. -/
lemma ofLine?_message (resetMode : InterruptMode) (fault : Fault) (rest : String) :
    ofLine? resetMode (fault.message ++ rest) = none := by
  cases fault with
  | illegal cause =>
    unfold Fault.message IllegalOpcode.message
    rw [String.append_assoc, String.append_assoc, String.append_assoc]
    exact ofLine?_of_start resetMode _ (by decide +kernel)
  | bus error =>
    unfold Fault.message BusError.message
    cases error with
    | unmapped address | readOnly address =>
      rw [String.append_assoc]
      exact ofLine?_of_start resetMode _ (by decide +kernel)
    | device address reason =>
      rw [String.append_assoc, String.append_assoc, String.append_assoc]
      exact ofLine?_of_start resetMode _ (by decide +kernel)
    | noAcknowledge => exact ofLine?_of_start resetMode rest (by decide +kernel)

/-- A line of the log says of the mode what its record does. -/
lemma ofLine?_text (resetMode : InterruptMode) (r : Record) :
    ofLine? resetMode r.text = r.selects? resetMode := by
  unfold Record.text
  cases r with
  | modeSelected mode => cases mode <;> rfl
  | reset => rfl
  | nmiAccepted => rfl
  | faulted fault pc =>
    dsimp only
    rw [String.append_assoc, String.append_assoc]
    exact ofLine?_message resetMode fault _
  | decoded pc instruction =>
    dsimp only
    rw [Hex.word, String.append_assoc, String.append_assoc]
    exact ofLine?_of_start resetMode _ (by decide +kernel)
  | halted pc => exact ofLine?_of_start resetMode _ (by decide +kernel)
  | intAccepted mode handler =>
    dsimp only
    rw [String.append_assoc, String.append_assoc]
    exact ofLine?_of_start resetMode _ (by decide +kernel)

/-- The mode for one who knew it before and has read more lines of the log. -/
def replay (resetMode mode : InterruptMode) (lines : List String) : InterruptMode :=
  lines.foldl (fun mode line => (ofLine? resetMode line).getD mode) mode

/-- The lines of a log are read one part after the other. -/
lemma replay_append (resetMode mode : InterruptMode) (lines later : List String) :
    replay resetMode mode (lines ++ later) = replay resetMode (replay resetMode mode lines) later :=
  List.foldl_append

end InterruptMode

/-- The lines that are written to the log. -/
def Trace.lines (t : Trace) : List String := t.records.map Record.text

/-- A listener keeps the mode. -/
def Report.note (resetMode mode : InterruptMode) : Report → InterruptMode
  | event _ => mode
  | record r => (r.selects? resetMode).getD mode

/-- To read the lines of the log is as good as to be told the reports. -/
lemma Trace.relay_note (resetMode mode : InterruptMode) (t : Trace) :
    Trace.relay (Report.note resetMode) mode t = InterruptMode.replay resetMode mode t.lines := by
  induction t generalizing mode with
  | nil => rfl
  | cons seen later ih =>
    cases seen with
    | access a => exact ih mode
    | report r =>
      cases r with
      | event e => exact ih mode
      | record r =>
        have line : InterruptMode.replay resetMode mode (Trace.lines (.report (.record r) :: later)) =
            InterruptMode.replay resetMode ((InterruptMode.ofLine? resetMode r.text).getD mode)
              (Trace.lines later) := rfl
        rw [line, InterruptMode.ofLine?_text]
        exact ih _

/-- The mode that an instruction selects. -/
def Instruction.selects? : Instruction → Option InterruptMode
  | im mode => some mode
  | _ => none

/-- The mode after what an instruction asks for. -/
def Effect.modeAfter (mode : InterruptMode) : Effect → InterruptMode
  | selectMode selected => selected
  | none | halt => mode

namespace Instruction

/-- An instruction asks for the mode that it selects, and an instruction that selects none for no
other. -/
lemma mode_execute (i : Instruction) (r : Registers) (mode : InterruptMode) :
    (i.execute r).Yields fun done => done.effect.modeAfter mode = i.selects?.getD mode := by
  have asks : i.effect.modeAfter mode = i.selects?.getD mode := by cases i <;> rfl
  exact (Yields.of_forall (fun _ => trivial) _).bind fun _ _ => asks

/-- The modes are selected on the extended page. -/
lemma selects?_ofOpcode (opcode : Byte) : (ofOpcode opcode).selects? = none := by
  revert opcode
  exact Byte.forall_of_lt (by decide +kernel)

end Instruction

namespace Retirement

/-- What an instruction asks for decides the mode after it. -/
lemma mode_settle (done : Retirement) (mode : InterruptMode) :
    (done.settle mode).Yields fun after => after = done.effect.modeAfter mode := by
  unfold settle
  cases done.effect with
  | none => rfl
  | halt => rfl
  | selectMode selected => exact (Yields.of_forall (fun _ => trivial) _).bind fun _ _ => rfl

/-- A selection is written to the log where it changes the mode, and the log tells the mode either
way. -/
lemma follows_settle (done : Retirement) (resetMode mode : InterruptMode)
    {stops : InterruptMode → Prop} :
    (done.settle mode).Follows (Report.note resetMode)
      (fun after kept => after = done.effect.modeAfter mode ∧ kept = after) stops mode := by
  unfold settle
  cases done.effect with
  | none => exact ⟨rfl, rfl⟩
  | halt => exact ⟨rfl, rfl⟩
  | selectMode selected =>
    by_cases same : selected = mode
    · simp only [Processor.modeRecords, if_pos same]
      exact ⟨rfl, same.symm⟩
    · simp only [Processor.modeRecords, if_neg same]
      exact ⟨rfl, rfl⟩

end Retirement

namespace Registers

/-- An instruction that a device supplies asks for no other mode. -/
lemma mode_runSupplied (r : Registers) (opcode : Byte) (mode : InterruptMode) :
    (r.runSupplied opcode).Yields fun done => done.effect.modeAfter mode = mode := by
  apply (Yields.of_forall (fun _ => trivial) _).bind
  intro operands _
  have asks := (Instruction.ofOpcode opcode).mode_execute
    { r with pc := r.pc - UInt16.ofNat (Instruction.ofOpcode opcode).size } mode
  rw [Instruction.selects?_ofOpcode] at asks
  exact asks.withSupplied _ operands

variable (resetMode : InterruptMode)

/-- However a maskable interrupt is answered, the mode stays, and the log tells of no other. -/
lemma follows_answerInt (r : Registers) (mode : InterruptMode) (data : Byte) :
    (r.answerInt mode data).Follows (Report.note resetMode)
      (fun entry kept => entry.2.1 = mode ∧ kept = mode) (· = mode) mode := by
  cases mode with
  | mode0 =>
    refine (r.mute_runSupplied data).follows_bind nofun (r.mode_runSupplied data .mode0) rfl ?_
    intro done keeps
    refine (done.follows_settle resetMode .mode0).bind ?_
    rintro after kept ⟨rfl, rfl⟩
    exact ⟨keeps, keeps⟩
  | mode1 =>
    have entering := r.mute_callTo mode1Vector
    refine entering.follows_bind nofun (.of_forall (fun _ => trivial) _) rfl ?_
    intro _ _
    exact ⟨rfl, rfl⟩
  | mode2 =>
    have entering := r.mute_callTo (.ofHalves r.i data)
    refine entering.follows_bind nofun (.of_forall (fun _ => trivial) _) rfl ?_
    intro _ _
    exact ⟨rfl, rfl⟩

/-- To enter the handler of a maskable interrupt leaves the mode, and the log tells of no other. -/
lemma follows_enterMaskable (r : Registers) (mode : InterruptMode) :
    (r.enterMaskable mode).Follows (Report.note resetMode)
      (fun entry kept => entry.2.1 = mode ∧ kept = mode) (· = mode) mode :=
  ⟨rfl, fun data => follows_answerInt resetMode _ mode data⟩

/-- The log of a non-maskable interrupt tells the mode after it. -/
lemma follows_acceptNmi (r : Registers) (mode : InterruptMode) :
    (r.acceptNmi mode).Follows (Report.note resetMode) (fun a kept => kept = a.mode) (· = mode)
      mode := by
  refine (r.mute_callTo nmiVector).follows_bind nofun (.of_forall (fun _ => trivial) _) rfl ?_
  intro _ _
  exact rfl

/-- The log of a maskable interrupt tells the mode after it. -/
lemma follows_acceptInt (r : Registers) (mode : InterruptMode) :
    (r.acceptInt mode).Follows (Report.note resetMode) (fun a kept => kept = a.mode) (· = mode)
      mode := by
  apply ((r.follows_enterMaskable resetMode mode).onAbort fun _ => r).bind
  rintro entry kept ⟨same, rfl⟩
  exact same.symm

/-- The log of an instruction tells the mode after it. -/
lemma follows_fetchExecute (r : Registers) (mode : InterruptMode) :
    (r.fetchExecute mode).Follows (Report.note resetMode) (fun a kept => kept = a.mode) (· = mode)
      mode := by
  refine ⟨rfl, fun opcode => ?_⟩
  have decoding := Instruction.mute_decodeRest r r.pc opcode
  refine decoding.follows_bind nofun (.of_forall (fun _ => trivial) _) rfl ?_
  intro i _
  refine (i.mute_execute r).follows_bind nofun (.of_forall (fun _ => trivial) _) rfl ?_
  intro done _
  apply (done.follows_settle resetMode mode).bind
  rintro after kept ⟨-, rfl⟩
  exact rfl

/-- Whoever knows the mode before a step and is told what it reports knows the mode after it, and the
mode is the same as before if the step stops short. -/
lemma follows_advance (r : Registers) (mode : InterruptMode) :
    (r.advance mode).Follows (Report.note resetMode) (fun a kept => kept = a.mode) (· = mode)
      mode := by
  unfold advance
  split
  case isTrue => exact r.follows_acceptNmi resetMode mode
  case isFalse =>
    split
    case isTrue => exact r.follows_acceptInt resetMode mode
    case isFalse =>
      split
      case isTrue => exact rfl
      case isFalse => exact (follows_fetchExecute resetMode _ mode).onAbort _

end Registers

/-- The mode that a completed step selects, given what was seen of it on the bus. -/
def StepOutcome.selects? (resetMode : InterruptMode) (seen : List Access) :
    StepOutcome → Option InterruptMode
  | reset => some resetMode
  | retired _ => (Instruction.ofAccesses? seen).bind Instruction.selects?
  | halted _ | interrupted _ _ => none

namespace Registers

variable {β : Type} [Bus β] {bus after : β} {t : Trace} {r : Registers} {mode : InterruptMode}
  {a : Advance}

/-- An instruction that was completed leaves the mode that it selects. -/
lemma mode_fetchExecute (resetMode : InterruptMode)
    (h : (r.fetchExecute mode).Completes bus a after t) :
    a.mode = (a.outcome.selects? resetMode t.accesses).getD mode := by
  obtain ⟨opcode, i, done, bus₁, bus₂, bus₃, t₁, t₂, t₃, decoded, executed, settled, -, outcome, seen⟩ :=
    fetchExecute_stages h
  have fetched : Instruction.ofAccesses? t.accesses = some i := by
    rw [seen]
    exact ofAccesses_decodeRest decoded _
  rw [outcome, StepOutcome.selects?, fetched]
  exact (settled.yields (done.mode_settle mode)).trans (executed.yields (i.mode_execute r mode))

/-- A maskable interrupt that was accepted leaves the mode as it was. -/
lemma mode_acceptInt (resetMode : InterruptMode)
    (h : (r.acceptInt mode).Completes bus a after t) :
    a.mode = (a.outcome.selects? resetMode t.accesses).getD mode := by
  obtain ⟨entry, t', entered, rfl, -⟩ := acceptInt_inv h
  exact entered.yields ((r.follows_enterMaskable resetMode mode).yields fun _ _ ends => ends.1)

/-- Whatever a step went on to, it leaves the mode that its outcome selects. -/
lemma mode_advance (resetMode : InterruptMode) (h : (r.advance mode).Completes bus a after t) :
    a.mode = (a.outcome.selects? resetMode t.accesses).getD mode := by
  unfold advance at h
  split at h
  case isTrue =>
    have entered : (r.acceptNmi mode).Yields fun a =>
      a.mode = (a.outcome.selects? resetMode t.accesses).getD mode := rfl
    exact h.yields entered
  case isFalse =>
    split at h
    case isTrue => exact mode_acceptInt resetMode h
    case isFalse =>
      split at h
      case isTrue =>
        obtain ⟨rfl, -, -⟩ := h.done_inv
        rfl
      case isFalse => exact mode_fetchExecute resetMode h.onAbort_inv

end Registers

/-- The mode that a step selects: that of power-on if it carries out a reset, that of the instruction if
it completes an `IM` that it has fetched, and none otherwise. -/
def Step.selects? {β : Type} (s : Step β) : Option InterruptMode :=
  match s.result with
  | .ok outcome => outcome.selects? s.processor.config.resetMode s.trace.accesses
  | .error _ => none

namespace Processor

variable {β : Type}

/-- Tracing makes no difference to the log. -/
lemma lines_visible (p : Processor β) (t : Trace) : (p.visible t).lines = t.lines :=
  congrArg (List.map Record.text) (filterMap_visible (fun _ => rfl) p t)

/-- What is read in the log when a mode is selected from outside. -/
lemma replay_selectMode (p : Processor β) (mode : InterruptMode) :
    InterruptMode.replay p.config.resetMode p.mode (p.selectMode mode).2.lines = mode := by
  rw [← Trace.relay_note]
  unfold selectMode modeRecords
  by_cases same : mode = p.mode
  · rw [if_pos same]
    exact same.symm
  · rw [if_neg same]
    rfl

variable [Bus β]

/-- No step changes the configuration. -/
lemma config_step (p : Processor β) : p.step.processor.config = p.config := by
  obtain hr | ⟨hr, ⟨a, ha⟩ | ⟨abort, ha⟩⟩ := p.step_cases
  · rw [step_of_reset hr]
    rfl
  · rw [step_of_ok hr ha]
    rfl
  · rw [step_of_error hr ha]
    rfl

/-- A step leaves the mode that it selects, and the mode as it was if it selects none. -/
theorem mode_step (p : Processor β) : p.step.processor.mode = p.step.selects?.getD p.mode := by
  obtain hr | ⟨hr, ⟨a, ha⟩ | ⟨abort, ha⟩⟩ := p.step_cases
  · rw [step_of_reset hr]
    rfl
  · have selected := Registers.mode_advance p.config.resetMode (Completes.of_ending ha)
    rw [step_of_ok hr ha, Step.selects?, accesses_visible]
    exact selected
  · rw [step_of_error hr ha]
    rfl

/-- The log of a step leads from the mode before it to the mode after it. -/
theorem replay_step (p : Processor β) :
    InterruptMode.replay p.config.resetMode p.mode p.step.trace.lines = p.step.processor.mode := by
  have told : p.attempt.Follows (Report.note p.config.resetMode) (fun a kept => kept = a.mode)
      (· = p.mode) p.mode :=
    (p.sampled.registers.follows_advance p.config.resetMode p.mode).of_run p.bus
  unfold Completion.Follows at told
  obtain hr | ⟨hr, ⟨a, ha⟩ | ⟨abort, ha⟩⟩ := p.step_cases
  · rw [step_of_reset hr, lines_visible]
    rfl
  · rw [ha] at told
    rw [step_of_ok hr ha, lines_visible, ← Trace.relay_note]
    exact told
  · rw [ha] at told
    rw [step_of_error hr ha, lines_visible, ← Trace.relay_note, Trace.relay_append, told]
    rfl

end Processor

end Z80
