import Mathlib.Tactic.Lemma
import Z80.Microprogram.Basic

/-!
# Completion

What a microprogram ends with on a bus, as a relation between the microprogram, the bus, the value,
the bus afterwards and the trace (`Microprogram.Completes`), and its inversions: a sequence completes
when its parts do, one after the other, and an access completes when the bus completes it.
-/

namespace Z80.Microprogram

variable {α β γ : Type} [Bus β]

/-- On the bus the microprogram ends with the value, leaves the bus as given, and shows the trace. -/
def Completes (p : Microprogram α) (bus : β) (value : α) (after : β) (t : Trace) : Prop :=
  p.run bus = ⟨.ok value, after, t⟩

/-- A run that ended with a value completes. -/
lemma Completes.of_ending {p : Microprogram α} {bus : β} {value : α}
    (h : (p.run bus).ending = .ok value) :
    p.Completes bus value (p.run bus).bus (p.run bus).trace := by
  rw [Completes, ← h]

/-- What was done already completes with its value, with the bus as it was and nothing seen. -/
lemma Completes.done_inv {value v : α} {bus after : β} {t : Trace}
    (h : (done value).Completes bus v after t) : v = value ∧ after = bus ∧ t = [] := by
  cases h
  exact ⟨rfl, rfl, rfl⟩

/-- A read completes when the bus gives a byte and what comes after it completes. -/
lemma Completes.read {now : Registers} {address : Word} {next : Byte → Microprogram α}
    {bus middle after : β} {byte : Byte} {value : α} {t : Trace}
    (hb : Bus.read bus address = (.ok byte, middle))
    (hn : (next byte).Completes middle value after t) :
    (Microprogram.read now address next).Completes bus value after
      (.access (.read address byte) :: t) := by
  rw [Completes] at hn ⊢
  simp only [run, hb, hn, Completion.after]

/-- A write completes when the bus takes the byte and what comes after it completes. -/
lemma Completes.write {now : Registers} {address : Word} {byte : Byte} {next : Microprogram α}
    {bus middle after : β} {value : α} {t : Trace}
    (hb : Bus.write bus address byte = (.ok (), middle))
    (hn : next.Completes middle value after t) :
    (Microprogram.write now address byte next).Completes bus value after
      (.access (.write address byte) :: t) := by
  rw [Completes] at hn ⊢
  simp only [run, hb, hn, Completion.after]

/-- An acknowledge cycle completes when a device gives a byte and what comes after it completes. -/
lemma Completes.acknowledge {now : Registers} {next : Byte → Microprogram α}
    {bus middle after : β} {byte : Byte} {value : α} {t : Trace}
    (hb : Bus.acknowledge bus = (.ok byte, middle))
    (hn : (next byte).Completes middle value after t) :
    (Microprogram.acknowledge now next).Completes bus value after
      (.access (.acknowledge byte) :: t) := by
  rw [Completes] at hn ⊢
  simp only [run, hb, hn, Completion.after]

/-- A report completes when what comes after it completes. -/
lemma Completes.report {r : Report} {next : Microprogram α} {bus after : β} {value : α} {t : Trace}
    (hn : next.Completes bus value after t) :
    (Microprogram.report r next).Completes bus value after (.report r :: t) := by
  rw [Completes] at hn ⊢
  simp only [run, hn, Completion.after]

/-- A read that completed was given a byte, and what comes after it completed. -/
lemma Completes.read_inv {now : Registers} {address : Word} {next : Byte → Microprogram α}
    {bus after : β} {value : α} {t : Trace}
    (h : (Microprogram.read now address next).Completes bus value after t) :
    ∃ byte middle t', Bus.read bus address = (.ok byte, middle) ∧
      (next byte).Completes middle value after t' ∧
      t = .access (.read address byte) :: t' := by
  unfold Completes run at h
  split at h
  case h_1 byte middle hb =>
    cases hn : (next byte).run middle with
    | mk ending bus' trace =>
      rw [hn] at h
      cases h
      exact ⟨byte, middle, trace, hb, hn, rfl⟩
  case h_2 => cases h

/-- A write that completed was taken by the bus, and what comes after it completed. -/
lemma Completes.write_inv {now : Registers} {address : Word} {byte : Byte}
    {next : Microprogram α} {bus after : β} {value : α} {t : Trace}
    (h : (Microprogram.write now address byte next).Completes bus value after t) :
    ∃ middle t', Bus.write bus address byte = (.ok (), middle) ∧
      next.Completes middle value after t' ∧
      t = .access (.write address byte) :: t' := by
  unfold Completes run at h
  split at h
  case h_1 _ middle hb =>
    cases hn : next.run middle with
    | mk ending bus' trace =>
      rw [hn] at h
      cases h
      exact ⟨middle, trace, hb, hn, rfl⟩
  case h_2 => cases h

/-- An acknowledge cycle that completed was given a byte, and what comes after it completed. -/
lemma Completes.acknowledge_inv {now : Registers} {next : Byte → Microprogram α}
    {bus after : β} {value : α} {t : Trace}
    (h : (Microprogram.acknowledge now next).Completes bus value after t) :
    ∃ byte middle t', Bus.acknowledge bus = (.ok byte, middle) ∧
      (next byte).Completes middle value after t' ∧
      t = .access (.acknowledge byte) :: t' := by
  unfold Completes run at h
  split at h
  case h_1 byte middle hb =>
    cases hn : (next byte).run middle with
    | mk ending bus' trace =>
      rw [hn] at h
      cases h
      exact ⟨byte, middle, trace, hb, hn, rfl⟩
  case h_2 => cases h

/-- After a report that completed what comes after it completed. -/
lemma Completes.report_inv {r : Report} {next : Microprogram α} {bus after : β} {value : α}
    {t : Trace} (h : (Microprogram.report r next).Completes bus value after t) :
    ∃ t', next.Completes bus value after t' ∧ t = .report r :: t' := by
  unfold Completes run at h
  cases hn : next.run bus with
  | mk ending bus' trace =>
    rw [hn] at h
    cases h
    exact ⟨trace, hn, rfl⟩

/-- A sequence completes when both its parts do, one after the other. -/
lemma Completes.bind {p : Microprogram α} {f : α → Microprogram γ} {bus middle after : β} {x : α}
    {value : γ} {t₁ t₂ : Trace} (hp : p.Completes bus x middle t₁)
    (hf : (f x).Completes middle value after t₂) :
    (p.bind f).Completes bus value after (t₁ ++ t₂) := by
  rw [Completes] at hp hf ⊢
  rw [run_bind, hp]
  simp only [hf]

/-- A sequence completes when its first part does and then its second part. -/
lemma Completes.bind_inv {p : Microprogram α} {f : α → Microprogram γ} {bus after : β}
    {value : γ} {t : Trace} (h : (p.bind f).Completes bus value after t) :
    ∃ x middle t₁ t₂, p.Completes bus x middle t₁ ∧ (f x).Completes middle value after t₂ ∧
      t = t₁ ++ t₂ := by
  rw [Completes, run_bind] at h
  cases hp : p.run bus with
  | mk ending middle t₁ =>
    rw [hp] at h
    cases ending with
    | error abort => cases h
    | ok x =>
      cases hf : (f x).run middle with
      | mk ending after' t₂ =>
        simp only [hf] at h
        cases h
        exact ⟨x, middle, t₁, t₂, hp, hf, rfl⟩

/-- Work that begins by telling something completes when the rest does. -/
lemma Completes.tell_bind {r : Report} {f : Unit → Microprogram α} {bus after : β} {value : α}
    {t : Trace} (hf : (f ()).Completes bus value after t) :
    ((tell r).bind f).Completes bus value after (.report r :: t) :=
  hf.report

/-- Of work that began by telling something and completed, the rest completed. -/
lemma Completes.tell_bind_inv {r : Report} {f : Unit → Microprogram α} {bus after : β} {value : α}
    {t : Trace} (h : ((tell r).bind f).Completes bus value after t) :
    ∃ t', (f ()).Completes bus value after t' ∧ t = .report r :: t' :=
  h.report_inv

/-- Work that began by reading a byte and completed was given one, and the rest completed. -/
lemma Completes.readByte_bind_inv {now : Registers} {address : Word} {f : Byte → Microprogram α}
    {bus after : β} {value : α} {t : Trace}
    (h : ((readByte now address).bind f).Completes bus value after t) :
    ∃ byte middle t', Bus.read bus address = (.ok byte, middle) ∧
      (f byte).Completes middle value after t' ∧ t = .access (.read address byte) :: t' :=
  h.read_inv

/-- Work that began by acknowledging a byte and completed was given one, and the rest completed. -/
lemma Completes.acknowledgeByte_bind_inv {now : Registers} {f : Byte → Microprogram α}
    {bus after : β} {value : α} {t : Trace}
    (h : ((acknowledgeByte now).bind f).Completes bus value after t) :
    ∃ byte middle t', Bus.acknowledge bus = (.ok byte, middle) ∧
      (f byte).Completes middle value after t' ∧ t = .access (.acknowledge byte) :: t' :=
  h.acknowledge_inv

/-- Records are no accesses. -/
lemma Completes.tellRecords_inv {records : List Record} {bus after : β} {t : Trace}
    (h : (tellRecords records).Completes bus () after t) : after = bus ∧ t.accesses = [] := by
  induction records generalizing t with
  | nil =>
    obtain ⟨-, rfl, rfl⟩ := h.done_inv
    exact ⟨rfl, rfl⟩
  | cons r rest ih =>
    obtain ⟨t', h', rfl⟩ := h.report_inv
    obtain ⟨rfl, silent⟩ := ih h'
    exact ⟨rfl, silent⟩

/-- What holds of all values that can be yielded holds of the one that was completed with. -/
lemma Completes.yields {p : Microprogram α} {P : α → Prop} {bus after : β} {value : α} {t : Trace}
    (h : p.Completes bus value after t) (hp : p.Yields P) : P value := by
  have ending : (p.run bus).ending = .ok value := by rw [h]
  exact hp.of_run ending

/-- Putting the registers right changes how a run ends, and nothing else. -/
lemma run_onAbort (p : Microprogram α) (repair : Registers → Registers) (bus : β) :
    (p.onAbort repair).run bus =
      { p.run bus with
        ending := (p.run bus).ending.mapError fun abort =>
          { abort with registers := repair abort.registers } } := by
  induction p generalizing bus with
  | done value => rfl
  | illegal now cause => rfl
  | read now address next ih =>
    simp only [onAbort, run]
    split
    case h_1 value middle _ =>
      rw [ih value middle]
      rfl
    case h_2 => rfl
  | write now address value next ih =>
    simp only [onAbort, run]
    split
    case h_1 middle _ =>
      rw [ih middle]
      rfl
    case h_2 => rfl
  | acknowledge now next ih =>
    simp only [onAbort, run]
    split
    case h_1 value middle _ =>
      rw [ih value middle]
      rfl
    case h_2 => rfl
  | report r next ih =>
    simp only [onAbort, run]
    rw [ih bus]
    rfl

/-- What completes does so whatever would be put right if it stopped short. -/
lemma Completes.onAbort {p : Microprogram α} {bus after : β} {value : α} {t : Trace}
    (h : p.Completes bus value after t) (repair : Registers → Registers) :
    (p.onAbort repair).Completes bus value after t := by
  rw [Completes, run_onAbort, h]
  rfl

/-- Putting the registers right where a microprogram stops short does not show when it completes. -/
lemma Completes.onAbort_inv {p : Microprogram α} {repair : Registers → Registers} {bus after : β}
    {value : α} {t : Trace} (h : (p.onAbort repair).Completes bus value after t) :
    p.Completes bus value after t := by
  rw [Completes, run_onAbort] at h
  cases hp : p.run bus with
  | mk ending middle t₁ =>
    rw [hp] at h
    cases ending with
    | error abort => cases h
    | ok x =>
      cases h
      exact hp

end Z80.Microprogram
