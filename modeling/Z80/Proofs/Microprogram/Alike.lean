import Z80.Proofs.Microprogram.Completion
import Z80.Microprogram.Supplied

/-!
# Microprograms that are alike

Two microprograms are alike when they make the same accesses and reports, whatever the bus answers,
and end with values that are related. The registers they name along the way are not compared.
Sequences of alike parts are alike (`Microprogram.Alike.bind`), and on the same bus alike
microprograms are seen the same, leave the same bus, and end alike (`Microprogram.Alike.run`).
-/

namespace Z80

variable {α β γ : Type}

/-- Ends with related values, or with the same fault. -/
inductive EndsAlike (R : α → α → Prop) : Except Abort α → Except Abort α → Prop where
  | ok {x y : α} (related : R x y) : EndsAlike R (.ok x) (.ok y)
  | error {fault : Fault} (left left' : Registers) :
      EndsAlike R (.error ⟨fault, left⟩) (.error ⟨fault, left'⟩)

/-- The same bus afterwards, the same trace, and ends that are alike. -/
structure Completion.Alike (R : α → α → Prop) (c d : Completion β α) : Prop where
  bus : c.bus = d.bus
  trace : c.trace = d.trace
  ending : EndsAlike R c.ending d.ending

/-- Completions that are alike still are when the same was seen before both. -/
lemma Completion.Alike.after {R : α → α → Prop} {c d : Completion β α} (h : c.Alike R d)
    (seen : Observation) : (c.after seen).Alike R (d.after seen) :=
  ⟨h.bus, congrArg (seen :: ·) h.trace, h.ending⟩

namespace Microprogram

/-- The same accesses and reports whatever the bus answers, and values in the end that are related.
-/
inductive Alike (R : α → α → Prop) : Microprogram α → Microprogram α → Prop where
  | done {x y : α} (related : R x y) : Alike R (.done x) (.done y)
  | illegal {now now' : Registers} {cause : IllegalOpcode} :
      Alike R (.illegal now cause) (.illegal now' cause)
  | read {now now' : Registers} {address : Word} {next next' : Byte → Microprogram α}
      (rest : ∀ value, Alike R (next value) (next' value)) :
      Alike R (.read now address next) (.read now' address next')
  | write {now now' : Registers} {address : Word} {value : Byte} {next next' : Microprogram α}
      (rest : Alike R next next') :
      Alike R (.write now address value next) (.write now' address value next')
  | acknowledge {now now' : Registers} {next next' : Byte → Microprogram α}
      (rest : ∀ value, Alike R (next value) (next' value)) :
      Alike R (.acknowledge now next) (.acknowledge now' next')
  | report {r : Report} {next next' : Microprogram α} (rest : Alike R next next') :
      Alike R (.report r next) (.report r next')

namespace Alike

variable {R : α → α → Prop} {Q : γ → γ → Prop} {p q : Microprogram α}

/-- Sequences are alike when their first parts are, and so are their second parts for values that
are related. -/
lemma bind {f g : α → Microprogram γ} (h : p.Alike R q)
    (rest : ∀ x y, R x y → (f x).Alike Q (g y)) : (p.bind f).Alike Q (q.bind g) := by
  induction h with
  | done related => exact rest _ _ related
  | illegal => exact .illegal
  | read _ ih => exact .read ih
  | write _ ih => exact .write ih
  | acknowledge _ ih => exact .acknowledge ih
  | report _ ih => exact .report ih

/-- Microprograms that are alike still are when both are supplied with the same bytes. -/
lemma withSupplied (h : p.Alike R q) (first : Word) (bytes : List Byte) :
    (p.withSupplied first bytes).Alike R (q.withSupplied first bytes) := by
  induction h with
  | done related => exact .done related
  | illegal => exact .illegal
  | @read _ _ address _ _ _ ih =>
    unfold Microprogram.withSupplied
    cases suppliedAt first bytes address with
    | some value => exact ih value
    | none => exact .read ih
  | write _ ih => exact .write ih
  | acknowledge _ ih => exact .acknowledge ih
  | report _ ih => exact .report ih

variable (now now' : Registers)

/-- The same byte is read alike, whatever the registers. -/
lemma readByte (address : Word) : (readByte now address).Alike Eq (readByte now' address) :=
  .read fun _ => .done rfl

/-- The same word is read alike, whatever the registers. -/
lemma readWord (address : Word) : (readWord now address).Alike Eq (readWord now' address) :=
  .read fun _ => .read fun _ => .done rfl

/-- The same word is written alike, whatever the registers. -/
lemma writeWord (address value : Word) :
    (writeWord now address value).Alike Eq (writeWord now' address value) :=
  .write (.write (.done rfl))

/-- A byte is acknowledged alike, whatever the registers. -/
lemma acknowledgeByte : (acknowledgeByte now).Alike Eq (acknowledgeByte now') :=
  .acknowledge fun _ => .done rfl

/-- Bytes are acknowledged alike, whatever the registers. -/
lemma acknowledgeBytes (n : Nat) : (acknowledgeBytes now n).Alike Eq (acknowledgeBytes now' n) := by
  induction n with
  | zero => exact .done rfl
  | succ n ih =>
    apply (acknowledgeByte now now').bind
    rintro value _ rfl
    apply ih.bind
    rintro rest _ rfl
    exact .done rfl

/-- The same records are written alike. -/
lemma tellRecords (records : List Record) :
    (tellRecords records).Alike Eq (tellRecords records) := by
  induction records with
  | nil => exact .done rfl
  | cons r rest ih => exact .report ih

variable {now now'} [Bus β]

/-- On the same bus alike microprograms run alike. -/
theorem run (h : p.Alike R q) (bus : β) : (p.run bus).Alike R (q.run bus) := by
  induction h generalizing bus with
  | done related => exact ⟨rfl, rfl, .ok related⟩
  | illegal => exact ⟨rfl, rfl, .error _ _⟩
  | @read _ _ address _ _ _ ih =>
    unfold Microprogram.run
    cases Bus.read bus address with
    | mk answer middle =>
      cases answer with
      | ok value => exact (ih value middle).after _
      | error e => exact ⟨rfl, rfl, .error _ _⟩
  | @write _ _ address value _ _ _ ih =>
    unfold Microprogram.run
    cases Bus.write bus address value with
    | mk answer middle =>
      cases answer with
      | ok _ => exact (ih middle).after _
      | error e => exact ⟨rfl, rfl, .error _ _⟩
  | acknowledge _ ih =>
    unfold Microprogram.run
    cases Bus.acknowledge bus with
    | mk answer middle =>
      cases answer with
      | ok value => exact (ih value middle).after _
      | error e => exact ⟨rfl, rfl, .error _ _⟩
  | report _ ih => exact (ih bus).after _

end Alike

variable [Bus β] {R : α → α → Prop} {Q : γ → γ → Prop} {p q : Microprogram α}

/-- A sequence runs alike when its first part does and its second part does on what the first has
left. -/
lemma run_bind_alike {f g : α → Microprogram γ} {bus : β} (first : (p.run bus).Alike R (q.run bus))
    (second : ∀ x y middle t, p.Completes bus x middle t → R x y →
      ((f x).run middle).Alike Q ((g y).run middle)) :
    ((p.bind f).run bus).Alike Q ((q.bind g).run bus) := by
  rw [run_bind, run_bind]
  cases hp : p.run bus with
  | mk endingP middle t =>
    cases hq : q.run bus with
    | mk endingQ middle' t' =>
      rw [hp, hq] at first
      obtain ⟨rfl, rfl, ending⟩ := first
      cases ending with
      | ok related =>
        obtain ⟨sameBus, sameTrace, ends⟩ := second _ _ _ _ hp related
        exact ⟨sameBus, congrArg (t ++ ·) sameTrace, ends⟩
      | error left left' => exact ⟨rfl, rfl, .error left left'⟩

/-- Putting the registers right does not change what is alike. -/
lemma run_onAbort_alike {bus : β} (h : (p.run bus).Alike R (q.run bus))
    (repair repair' : Registers → Registers) :
    ((p.onAbort repair).run bus).Alike R ((q.onAbort repair').run bus) := by
  rw [run_onAbort, run_onAbort]
  cases hp : p.run bus with
  | mk endingP middle t =>
    cases hq : q.run bus with
    | mk endingQ middle' t' =>
      rw [hp, hq] at h
      obtain ⟨rfl, rfl, ending⟩ := h
      cases ending with
      | ok related => exact ⟨rfl, rfl, .ok related⟩
      | error left left' => exact ⟨rfl, rfl, .error (repair left) (repair' left')⟩

end Microprogram

end Z80
