import Z80.Microprogram.Supplied
import Z80.Proofs.Bus.Success
import Z80.Proofs.Memory.Image

/-!
# Checked microprograms

Work that may look past the end of a table, or compute a number that is too large for its width, or
subtract too much. Where it does, it has no value (`Checked`). On memory it may also look past the end
of the image, and then it has no run (`Checked.run?`).

Work without such a danger is lifted, and on memory it has the run that it has without checks
(`Checked.run?_liftM`). So when checked work turns out to be the lift of plain work, none of its checks
can fail.
-/

namespace Z80

namespace Microprogram

instance : LawfulMonad Microprogram := .mk' _ bind_done (fun _ _ => rfl) bind_assoc

variable {α γ : Type}

/-- Runs work that may end without a value on memory, where an address is an index in the image. -/
def run? : Microprogram (Option α) → Ram → Option (Completion Ram α)
  | done value, m => value.map fun value => ⟨.ok value, m, []⟩
  | illegal now cause, m => some ⟨.error ⟨.illegal cause, now⟩, m, []⟩
  | read _ address next, m =>
    m.memory.image[address.toNat]?.bind fun value =>
      ((next value).run? m).map (·.after (.access (.read address value)))
  | write now address value next, m =>
    if address < m.romSize then
      let error := BusError.readOnly address
      some ⟨.error ⟨.bus error, now⟩, m, [.access (.failed (.write address value) error)]⟩
    else if address.toNat < m.memory.image.length then
      (next.run? { m with memory := m.memory.set address value }).map
        (·.after (.access (.write address value)))
    else none
  | acknowledge now next, m =>
    match m.acknowledge with
    | some value => ((next value).run? m).map (·.after (.access (.acknowledge value)))
    | none =>
      let error := BusError.noAcknowledge
      some ⟨.error ⟨.bus error, now⟩, m, [.access (.failed .acknowledge error)]⟩
  | report r next, m => (next.run? m).map (·.after (.report r))

/-- To change a value afterwards makes no difference to what is supplied. -/
lemma withSupplied_map (f : α → γ) (p : Microprogram α) (first : Word) (bytes : List Byte) :
    (f <$> p).withSupplied first bytes = f <$> p.withSupplied first bytes := by
  induction p with
  | done value => rfl
  | illegal now cause => rfl
  | read now address next ih =>
    show withSupplied first bytes (read now address fun value => f <$> next value) = _
    rw [withSupplied, withSupplied]
    cases suppliedAt first bytes address with
    | some value => exact ih value
    | none => exact congrArg (read now address) (funext ih)
  | write now address value next ih => exact congrArg (write now address value) ih
  | acknowledge now next ih => exact congrArg (acknowledge now) (funext ih)
  | report r next ih => exact congrArg (report r) ih

/-- To change a value afterwards makes no difference to what is put right. -/
lemma onAbort_map (f : α → γ) (p : Microprogram α) (repair : Registers → Registers) :
    (f <$> p).onAbort repair = f <$> p.onAbort repair := by
  induction p with
  | done value => rfl
  | illegal now cause => rfl
  | read now address next ih => exact congrArg (read (repair now) address) (funext ih)
  | write now address value next ih => exact congrArg (write (repair now) address value) ih
  | acknowledge now next ih => exact congrArg (acknowledge (repair now)) (funext ih)
  | report r next ih => exact congrArg (report r) ih

/-- What comes after a microprogram matters only on the values that it can end with. -/
lemma Yields.bind_congr {P : α → Prop} {p : Microprogram α} (hp : p.Yields P)
    {f g : α → Microprogram γ} (h : ∀ value, P value → f value = g value) : p.bind f = p.bind g := by
  induction p with
  | done value => exact h value hp
  | illegal now cause => rfl
  | read now address next ih => exact congrArg (read now address) (funext fun v => ih v (hp v))
  | write now address value next ih => exact congrArg (write now address value) (ih hp)
  | acknowledge now next ih => exact congrArg (acknowledge now) (funext fun v => ih v (hp v))
  | report r next ih => exact congrArg (report r) (ih hp)

/-- No address is past the end of the image, so work that always has a value has its run. -/
theorem run?_some (p : Microprogram α) (m : Ram) : (some <$> p).run? m = some (p.run m) := by
  induction p generalizing m with
  | done value => rfl
  | illegal now cause => rfl
  | read now address next ih =>
    show m.memory.image[address.toNat]?.bind (fun value => ((some <$> next value).run? m).map _) = _
    rw [m.memory.getElem?_image address, Option.bind_some, ih]
    rfl
  | write now address value next ih =>
    -- The image is as long as there are addresses, whatever has been stored in it.
    have short : address.toNat < m.memory.image.length := by
      rw [m.memory.length_image]
      exact address.toNat_lt
    show run? (write now address value (some <$> next)) m = _
    by_cases readOnly : address < m.romSize
    · have refused : Bus.write m address value = _ := Ram.write_readOnly readOnly
      simp only [run?, if_pos readOnly, run, refused]
    · have written : Bus.write m address value = _ := Ram.write_ok readOnly
      simp only [run?, if_neg readOnly, if_pos short, ih, run, written]
      rfl
  | acknowledge now next ih =>
    show run? (acknowledge now fun value => some <$> next value) m = _
    cases answer : m.acknowledge with
    | some value =>
      simp only [run?, answer, ih, run, Ram.acknowledge_of_some answer]
      rfl
    | none => simp only [run?, answer, run, Ram.acknowledge_of_none answer]
  | report r next ih =>
    show ((some <$> next).run? m).map _ = _
    rw [ih]
    rfl

end Microprogram

/-- A microprogram that ends without a value where a check fails. -/
abbrev Checked : Type → Type := OptionT Microprogram

namespace Checked

variable {α γ : Type}

/-- What is computed with a check. -/
def check (x : Option α) : Checked α := .mk (.done x)

/-- Answers reads from the supplied bytes where they reach. -/
def withSupplied (first : Word) (bytes : List Byte) (p : Checked α) : Checked α :=
  .mk (p.run.withSupplied first bytes)

/-- The same work, but where it stops short the registers are put right. -/
def onAbort (repair : Registers → Registers) (p : Checked α) : Checked α :=
  .mk (p.run.onAbort repair)

/-- Runs checked work on memory. -/
def run? (p : Checked α) (m : Ram) : Option (Completion Ram α) := p.run.run? m

/-- A check of what is there passes. -/
@[simp] lemma check_some (value : α) : check (some value) = pure value := rfl

/-- What comes after work without checks matters only on the values that it can end with. -/
lemma bind_congr {P : α → Prop} {p : Microprogram α} (hp : p.Yields P) {f g : α → Checked γ}
    (h : ∀ value, P value → f value = g value) : (liftM p : Checked α) >>= f = liftM p >>= g := by
  have after (f : α → Checked γ) :
      (liftM p >>= f : Checked γ).run = p.bind fun value => (f value).run :=
    Microprogram.bind_assoc p _ _
  apply OptionT.ext
  rw [after, after]
  exact hp.bind_congr fun value hv => congrArg OptionT.run (h value hv)

/-- Work without checks is supplied with bytes as it is. -/
lemma withSupplied_liftM (p : Microprogram α) (first : Word) (bytes : List Byte) :
    withSupplied first bytes (liftM p) = liftM (p.withSupplied first bytes) :=
  OptionT.ext (p.withSupplied_map some first bytes)

/-- Work without checks is put right as it is. -/
lemma onAbort_liftM (p : Microprogram α) (repair : Registers → Registers) :
    onAbort repair (liftM p) = liftM (p.onAbort repair) :=
  OptionT.ext (p.onAbort_map some repair)

/-- Work without checks always passes, and runs on memory as it is. -/
theorem run?_liftM (p : Microprogram α) (m : Ram) : run? (liftM p) m = some (p.run m) :=
  p.run?_some m

end Checked

end Z80
