import Z80.Proofs.Microprogram.Completion
import Z80.Microprogram.Supplied

/-!
# Microprograms that stop short

What the log of accesses says of a run that stops short. The log is complete: the same requests, made
of the bus one after the other, get the same answers and leave the same bus
(`Microprogram.perform_run`). An access that fails is the last one, and its failure ends the run
(`Microprogram.run_failed`), and nothing else ends it with a failure of the bus
(`Microprogram.run_bus_fault`).

That a microprogram stops short is a relation too (`Microprogram.Aborts`), with inversions beside
those of `Microprogram.Completes`: a sequence stops short in its first part, or in its second when the
first has completed.
-/

namespace Z80

/-- What comes of a request: the access as it is met on the bus, and the bus afterwards. -/
def Request.meet {β : Type} [Bus β] (bus : β) : Request → Access × β
  | read address =>
    match Bus.read bus address with
    | (.ok value, after) => (.read address value, after)
    | (.error error, after) => (.failed (.read address) error, after)
  | write address value =>
    match Bus.write bus address value with
    | (.ok _, after) => (.write address value, after)
    | (.error error, after) => (.failed (.write address value) error, after)
  | acknowledge =>
    match Bus.acknowledge bus with
    | (.ok value, after) => (.acknowledge value, after)
    | (.error error, after) => (.failed .acknowledge error, after)

/-- Makes requests of a bus, one after the other. -/
def Bus.perform {β : Type} [Bus β] (bus : β) : List Request → List Access × β
  | [] => ([], bus)
  | request :: rest =>
    let (access, middle) := request.meet bus
    let (seen, after) := perform middle rest
    (access :: seen, after)

/-- However a request is met, it is the one that is seen. -/
lemma Request.request_meet {β : Type} [Bus β] (bus : β) (request : Request) :
    (request.meet bus).1.request = request := by
  cases request with
  | read address =>
    simp only [meet]
    split <;> rfl
  | write address value =>
    simp only [meet]
    split <;> rfl
  | acknowledge =>
    simp only [meet]
    split <;> rfl

namespace Access

variable {seen before later : List Access} {request : Request} {error : BusError}

/-- Where nothing was seen, no access has failed. -/
lemma not_failed_nil (h : [] = before ++ .failed request error :: later) : False :=
  List.append_ne_nil_of_right_ne_nil _ (List.cons_ne_nil _ _) h.symm

/-- An access that has failed after one that completed is among the later ones. -/
lemma completed_cons_inv {access : Access} (completed : access.error? = none)
    (h : access :: seen = before ++ .failed request error :: later) :
    ∃ before', seen = before' ++ .failed request error :: later := by
  cases before with
  | nil =>
    obtain ⟨rfl, -⟩ := List.cons.inj h
    cases completed
  | cons first before' => exact ⟨before', (List.cons.inj h).2⟩

/-- Where one failed access is all that was seen, it was the last one and its error is the one that
is looked for. -/
lemma failed_singleton_inv {other : Request} {cause : BusError}
    (h : [.failed other cause] = before ++ .failed request error :: later) :
    later = [] ∧ cause = error := by
  cases before with
  | nil =>
    obtain ⟨same, rfl⟩ := List.cons.inj h
    exact ⟨rfl, (Access.failed.inj same).2⟩
  | cons first before' =>
    obtain ⟨-, rest⟩ := List.cons.inj h
    exact (not_failed_nil rest).elim

end Access

namespace Microprogram

variable {α β γ : Type} [Bus β]

/-- What holds of runs without an access, and of a run that makes one more access or report before a
run it holds of, holds of every run. Whether the access reads, writes or acknowledges makes no
difference. -/
theorem run_induction {motive : β → Completion β α → Prop}
    (done : ∀ bus value, motive bus ⟨.ok value, bus, []⟩)
    (illegal : ∀ bus now cause, motive bus ⟨.error ⟨.illegal cause, now⟩, bus, []⟩)
    (completed : ∀ bus middle (request : Request) (access : Access) c,
      request.meet bus = (access, middle) → access.error? = none →
        motive middle c → motive bus (c.after (.access access)))
    (failed : ∀ bus after (request : Request) error now,
      request.meet bus = (.failed request error, after) →
        motive bus ⟨.error ⟨.bus error, now⟩, after, [.access (.failed request error)]⟩)
    (reported : ∀ bus r c, motive bus c → motive bus (c.after (.report r)))
    (p : Microprogram α) (bus : β) : motive bus (p.run bus) := by
  induction p generalizing bus with
  | done value => exact done bus value
  | illegal now cause => exact illegal bus now cause
  | read now address next ih =>
    unfold run
    split
    case h_1 value middle hb =>
      apply completed bus middle (.read address) _ _ _ rfl (ih value middle)
      simp only [Request.meet, hb]
    case h_2 error after hb =>
      apply failed
      simp only [Request.meet, hb]
  | write now address value next ih =>
    unfold run
    split
    case h_1 middle hb =>
      apply completed bus middle (.write address value) _ _ _ rfl (ih middle)
      simp only [Request.meet, hb]
    case h_2 error after hb =>
      apply failed
      simp only [Request.meet, hb]
  | acknowledge now next ih =>
    unfold run
    split
    case h_1 value middle hb =>
      apply completed bus middle .acknowledge _ _ _ rfl (ih value middle)
      simp only [Request.meet, hb]
    case h_2 error after hb =>
      apply failed
      simp only [Request.meet, hb]
  | report r next ih => exact reported bus r _ (ih bus)

/-- The log misses no access: made again of the bus, the requests get the same answers and leave the
same bus. -/
theorem perform_run (p : Microprogram α) (bus : β) :
    Bus.perform bus ((p.run bus).trace.accesses.map Access.request) =
      ((p.run bus).trace.accesses, (p.run bus).bus) := by
  apply run_induction (motive := fun bus c =>
    Bus.perform bus (c.trace.accesses.map Access.request) = (c.trace.accesses, c.bus))
  case done => exact fun _ _ => rfl
  case illegal => exact fun _ _ _ => rfl
  case completed =>
    intro bus middle request access c met _ ih
    -- The log remembers what was asked for, so that the same is asked again.
    have asked : access.request = request := by
      rw [← request.request_meet bus, met]
    show Bus.perform bus (access.request :: c.trace.accesses.map Access.request) = _
    simp only [Bus.perform, asked, met, ih]
    rfl
  case failed =>
    intro bus after request error now met
    show Bus.perform bus [request] = _
    simp only [Bus.perform, met]
    rfl
  case reported => exact fun _ _ _ ih => ih

/-- An access that fails is the last one, and the run ends with its failure. -/
theorem run_failed {p : Microprogram α} {bus : β} {before later : List Access} {request : Request}
    {error : BusError}
    (h : (p.run bus).trace.accesses = before ++ .failed request error :: later) :
    later = [] ∧ ∃ left, (p.run bus).ending = .error ⟨.bus error, left⟩ := by
  revert before
  apply run_induction (motive := fun _ c => ∀ {before},
    c.trace.accesses = before ++ .failed request error :: later →
      later = [] ∧ ∃ left, c.ending = .error ⟨.bus error, left⟩)
  case done =>
    intro _ _ before h
    exact (Access.not_failed_nil h).elim
  case illegal =>
    intro _ _ _ before h
    exact (Access.not_failed_nil h).elim
  case completed =>
    intro _ _ _ access c _ completed ih before h
    -- The access that failed is not this one, so it is in the log of what follows.
    obtain ⟨before', rest⟩ := Access.completed_cons_inv completed h
    exact ih rest
  case failed =>
    intro _ _ _ _ now _ before h
    obtain ⟨rfl, rfl⟩ := Access.failed_singleton_inv h
    exact ⟨rfl, now, rfl⟩
  case reported => exact fun _ _ _ ih => ih

/-- A run that ends with a failure of the bus ends with an access that failed so. -/
theorem run_bus_fault {p : Microprogram α} {bus : β} {error : BusError} {left : Registers}
    (h : (p.run bus).ending = .error ⟨.bus error, left⟩) :
    ∃ before request, (p.run bus).trace.accesses = before ++ [.failed request error] := by
  revert h
  apply run_induction (motive := fun _ c => c.ending = .error ⟨.bus error, left⟩ →
    ∃ before request, c.trace.accesses = before ++ [Access.failed request error])
  case done =>
    intro _ _ h
    cases h
  case illegal =>
    intro _ _ _ h
    cases h
  case completed =>
    intro _ _ _ access c _ _ ih h
    obtain ⟨before, request, seen⟩ := ih h
    refine ⟨access :: before, request, ?_⟩
    rw [List.cons_append, ← seen]
    rfl
  case failed =>
    intro _ _ request _ now _ h
    cases h
    exact ⟨[], request, rfl⟩
  case reported => exact fun _ _ _ ih => ih

/-- On the bus the microprogram stops short, leaves the bus as given, and shows the trace. -/
def Aborts (p : Microprogram α) (bus : β) (abort : Abort) (after : β) (t : Trace) : Prop :=
  p.run bus = ⟨.error abort, after, t⟩

section

variable {bus after : β} {abort : Abort} {t : Trace}

/-- A run that ended before its time aborts. -/
lemma Aborts.of_ending {p : Microprogram α} (h : (p.run bus).ending = .error abort) :
    p.Aborts bus abort (p.run bus).bus (p.run bus).trace := by
  rw [Aborts, ← h]

/-- A sequence stops short in its first part, or in its second when the first has completed. -/
lemma Aborts.bind_inv {p : Microprogram α} {f : α → Microprogram γ}
    (h : (p.bind f).Aborts bus abort after t) :
    p.Aborts bus abort after t ∨
      ∃ x middle t₁ t₂, p.Completes bus x middle t₁ ∧ (f x).Aborts middle abort after t₂ ∧
        t = t₁ ++ t₂ := by
  rw [Aborts, run_bind] at h
  cases hp : p.run bus with
  | mk ending middle t₁ =>
    rw [hp] at h
    cases ending with
    | error abort' =>
      cases h
      exact .inl hp
    | ok x =>
      cases hf : (f x).run middle with
      | mk ending after' t₂ =>
        simp only [hf] at h
        cases h
        exact .inr ⟨x, middle, t₁, t₂, hp, hf, rfl⟩

/-- Where the registers are put right, the microprogram stops short with the same fault. -/
lemma Aborts.onAbort_inv {p : Microprogram α} {repair : Registers → Registers}
    (h : (p.onAbort repair).Aborts bus abort after t) :
    ∃ left, p.Aborts bus ⟨abort.fault, left⟩ after t := by
  rw [Aborts, run_onAbort] at h
  cases hp : p.run bus with
  | mk ending middle t₁ =>
    rw [hp] at h
    cases ending with
    | ok x => cases h
    | error abort' =>
      cases h
      exact ⟨abort'.registers, hp⟩

/-- Reporting is no place to stop short. -/
lemma Aborts.report_inv {r : Report} {next : Microprogram α}
    (h : (Microprogram.report r next).Aborts bus abort after t) :
    ∃ t', next.Aborts bus abort after t' ∧ t = .report r :: t' := by
  unfold Aborts run at h
  cases hn : next.run bus with
  | mk ending bus' trace =>
    rw [hn] at h
    cases h
    exact ⟨trace, hn, rfl⟩

/-- A read stops short when the bus fails it, or later. -/
lemma Aborts.read_inv {now : Registers} {address : Word} {next : Byte → Microprogram α}
    (h : (Microprogram.read now address next).Aborts bus abort after t) :
    (∃ error, abort = ⟨.bus error, now⟩) ∨
      ∃ byte middle t', (next byte).Aborts middle abort after t' ∧
        t = .access (.read address byte) :: t' := by
  unfold Aborts run at h
  split at h
  case h_1 byte middle _ =>
    cases hn : (next byte).run middle with
    | mk ending bus' trace =>
      rw [hn] at h
      cases h
      exact .inr ⟨byte, middle, trace, hn, rfl⟩
  case h_2 error middle _ =>
    cases h
    exact .inl ⟨error, rfl⟩

/-- An acknowledge cycle stops short when the bus fails it, or later. -/
lemma Aborts.acknowledge_inv {now : Registers} {next : Byte → Microprogram α}
    (h : (Microprogram.acknowledge now next).Aborts bus abort after t) :
    (∃ error, abort = ⟨.bus error, now⟩) ∨
      ∃ byte middle t', (next byte).Aborts middle abort after t' ∧
        t = .access (.acknowledge byte) :: t' := by
  unfold Aborts run at h
  split at h
  case h_1 byte middle _ =>
    cases hn : (next byte).run middle with
    | mk ending bus' trace =>
      rw [hn] at h
      cases h
      exact .inr ⟨byte, middle, trace, hn, rfl⟩
  case h_2 error middle _ =>
    cases h
    exact .inl ⟨error, rfl⟩

/-- Of work that began by telling something and aborted, the rest aborted. -/
lemma Aborts.tell_bind_inv {r : Report} {f : Unit → Microprogram α}
    (h : ((tell r).bind f).Aborts bus abort after t) :
    ∃ t', (f ()).Aborts bus abort after t' ∧ t = .report r :: t' :=
  h.report_inv

/-- Work that began by reading a byte and aborted has failed to read it, or the rest aborted. -/
lemma Aborts.readByte_bind_inv {now : Registers} {address : Word} {f : Byte → Microprogram α}
    (h : ((readByte now address).bind f).Aborts bus abort after t) :
    (∃ error, abort = ⟨.bus error, now⟩) ∨
      ∃ byte middle t', (f byte).Aborts middle abort after t' ∧
        t = .access (.read address byte) :: t' :=
  h.read_inv

/-- Work that began by acknowledging a byte and aborted has failed to get it, or the rest
aborted. -/
lemma Aborts.acknowledgeByte_bind_inv {now : Registers} {f : Byte → Microprogram α}
    (h : ((acknowledgeByte now).bind f).Aborts bus abort after t) :
    (∃ error, abort = ⟨.bus error, now⟩) ∨
      ∃ byte middle t', (f byte).Aborts middle abort after t' ∧
        t = .access (.acknowledge byte) :: t' :=
  h.acknowledge_inv

/-- It never gives up on an opcode: wherever it stops short, it is at an access. -/
def NeverIllegal (p : Microprogram α) : Prop := p.Stops fun _ request => request ≠ none

/-- Work that goes on without an access meets an illegal opcode only in its first part. -/
lemma NeverIllegal.bind_done {p : Microprogram α} {f : α → γ} (hp : p.NeverIllegal) :
    (p.bind fun value => .done (f value)).NeverIllegal :=
  Stops.bind hp fun _ => trivial

/-- Work that never meets an illegal opcode does not abort with one. -/
lemma NeverIllegal.not_aborts {p : Microprogram α} (hp : p.NeverIllegal) {cause : IllegalOpcode}
    {left : Registers} : ¬ p.Aborts bus ⟨.illegal cause, left⟩ after t := by
  intro h
  have ending : (p.run bus).ending = .error ⟨.illegal cause, left⟩ := by rw [h]
  obtain ⟨request, asked, kind⟩ := hp.of_run ending
  exact asked (kind.mpr rfl)

end

end Microprogram

end Z80
